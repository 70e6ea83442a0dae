import Sponge.Connection.Endpoint

/-!
# Segments on their way

The owner of a connection takes segments from its queue and gives them to a datagram
adapter, which sets the ports and the checksum.  Nothing a connection does depends on
what has been taken from the queue, or on what the adapter sets; and every segment is
short enough for any of the adapters.
-/

namespace Sponge

namespace TCPConnection

/-- The connection with `sent` put back in front of its queue. -/
def withSent (c : TCPConnection) (sent : List TCPSegment) : TCPConnection :=
  { c with segmentsOut := sent ++ c.segmentsOut }

section WithSent

variable (c : TCPConnection) (sent : List TCPSegment)

@[simp] theorem withSent_nil : c.withSent [] = c := rfl

@[simp] theorem withSent_sender : (c.withSent sent).sender = c.sender := rfl

@[simp] theorem withSent_receiver : (c.withSent sent).receiver = c.receiver := rfl

@[simp] theorem withSent_close : (c.withSent sent).close = c.close := rfl

@[simp] theorem withSent_segmentsOut :
    (c.withSent sent).segmentsOut = sent ++ c.segmentsOut := rfl

theorem checkClose_withSent : (c.withSent sent).checkClose = c.checkClose.withSent sent := by
  have hsame : ((c.withSent sent).streamBothEof && (c.withSent sent).lingerOver) =
      (c.streamBothEof && c.lingerOver) := rfl
  unfold checkClose
  rw [hsame]
  split <;> rfl

theorem clean_withSent : (c.withSent sent).clean = c.clean.withSent sent := by
  have hflush : (c.withSent sent).flush = c.flush.withSent sent := by
    simp [flush, withSent, List.append_assoc]
  rw [clean, hflush, checkClose_withSent, clean]

theorem badShutdown_withSent (sendRst : Bool) :
    (c.withSent sent).badShutdown sendRst = (c.badShutdown sendRst).withSent sent := by
  cases sendRst with
  | false => rfl
  | true =>
      simp only [badShutdown, withSent, if_true, List.append_assoc]
      rfl

/-- The receiver's half of `segment_received` in one piece. -/
theorem receive_eq (seg : TCPSegment) : c.receive seg = { c with
    receiver := c.receiver.segmentReceived seg
    lingerAfterStreamsFinish := c.lingerAfterStreamsFinish &&
      !((c.receiver.segmentReceived seg).streamOut.inputEnded && !c.sender.stream.eof) } := by
  simp only [receive]
  generalize c.receiver.segmentReceived seg = r
  cases r.streamOut.inputEnded && !c.sender.stream.eof with
  | true => simp
  | false => simp

theorem receive_withSent (seg : TCPSegment) :
    (c.withSent sent).receive seg = (c.receive seg).withSent sent := by
  rw [receive_eq, receive_eq]
  rfl

theorem segmentReceived_withSent (seg : TCPSegment) :
    (c.withSent sent).segmentReceived seg = (c.segmentReceived seg).withSent sent := by
  have hrecv := receive_withSent { c with lastReciveTime := c.nowTime } sent seg
  unfold segmentReceived
  split
  · exact badShutdown_withSent { c with lastReciveTime := c.nowTime } sent false
  · show clean { receive (withSent { c with lastReciveTime := c.nowTime } sent) seg with
        sender :=
          respond (receive (withSent { c with lastReciveTime := c.nowTime } sent) seg).sender
            seg } = _
    rw [hrecv, ← clean_withSent]
    rfl

theorem tick_withSent (ms : Nat) : (c.withSent sent).tick ms = (c.tick ms).withSent sent := by
  by_cases hmany : c.sender.consecutiveRetransmissions ≥ TCPConfig.maxRetxAttempts
  · have hright : c.tick ms =
        badShutdown { c with nowTime := Word.add 32 c.nowTime ms } true := if_pos hmany
    have hleft : (c.withSent sent).tick ms =
        badShutdown (withSent { c with nowTime := Word.add 32 c.nowTime ms } sent) true :=
      if_pos hmany
    rw [hleft, hright, badShutdown_withSent]
  · have hright : c.tick ms = clean { c with
        nowTime := Word.add 32 c.nowTime ms, sender := c.sender.tick ms } := if_neg hmany
    have hleft : (c.withSent sent).tick ms = clean (withSent { c with
        nowTime := Word.add 32 c.nowTime ms, sender := c.sender.tick ms } sent) := if_neg hmany
    rw [hleft, hright, clean_withSent]

/-- Taking the first segment from the queue. -/
theorem withSent_pop {seg : TCPSegment} {rest : List TCPSegment}
    (h : c.segmentsOut = seg :: rest) :
    withSent { c with segmentsOut := rest } (sent ++ [seg]) = c.withSent sent := by
  simp [withSent, h]

end WithSent

end TCPConnection

namespace Endpoint

/-- The endpoint with `sent` put back in front of its queue. -/
def withSent (e : Endpoint) (sent : List TCPSegment) : Endpoint :=
  { e with connection := e.connection.withSent sent }

/-- What has been taken from the queue makes no difference to an operation. -/
theorem step_withSent (e : Endpoint) (sent : List TCPSegment) (op : ConnectionOp) :
    (e.withSent sent).step op = (e.step op).withSent sent := by
  cases op with
  | connect =>
      simp only [step, withSent, TCPConnection.connect, ← TCPConnection.clean_withSent]
      rfl
  | write data =>
      simp only [step, withSent, TCPConnection.write, ← TCPConnection.clean_withSent]
      rfl
  | endInputStream =>
      simp only [step, withSent, TCPConnection.endInputStream, ← TCPConnection.clean_withSent]
      rfl
  | tick ms => simp only [step, withSent, TCPConnection.tick_withSent]
  | read len => rfl
  | receive seg =>
      simp only [step, withSent, TCPConnection.segmentReceived_withSent]
      rfl

end Endpoint

/-! ## What an adapter sets -/

namespace TCPSegment

/-- The segment without what the adapters set. -/
def core (seg : TCPSegment) : TCPSegment :=
  { seg with header := { seg.header with sport := 0, dport := 0, cksum := 0 } }

variable (seg : TCPSegment)

@[simp] theorem core_payload : seg.core.payload = seg.payload := rfl

@[simp] theorem core_seqno : seg.core.header.seqno = seg.header.seqno := rfl

@[simp] theorem core_ackno : seg.core.header.ackno = seg.header.ackno := rfl

@[simp] theorem core_ack : seg.core.header.ack = seg.header.ack := rfl

@[simp] theorem core_rst : seg.core.header.rst = seg.header.rst := rfl

@[simp] theorem core_syn : seg.core.header.syn = seg.header.syn := rfl

@[simp] theorem core_fin : seg.core.header.fin = seg.header.fin := rfl

@[simp] theorem core_win : seg.core.header.win = seg.header.win := rfl

@[simp] theorem core_lengthInSequenceSpace :
    seg.core.lengthInSequenceSpace = seg.lengthInSequenceSpace := rfl

end TCPSegment

theorem TCPReceiver.segmentReceived_core (r : TCPReceiver) (seg : TCPSegment) :
    r.segmentReceived seg.core = r.segmentReceived seg := by
  unfold segmentReceived
  rfl

theorem TCPConnection.segmentReceived_core (c : TCPConnection) (seg : TCPSegment) :
    c.segmentReceived seg.core = c.segmentReceived seg := by
  have hrecv : ∀ c' : TCPConnection, c'.receive seg.core = c'.receive seg := by
    intro c'
    unfold TCPConnection.receive
    rw [TCPReceiver.segmentReceived_core]
  unfold TCPConnection.segmentReceived
  simp only [hrecv]
  rfl

/-- Neither the ports nor the checksum make a difference to who receives a segment. -/
theorem Endpoint.step_core {e : Endpoint} {seg seg' : TCPSegment} (h : seg.core = seg'.core) :
    e.step (.receive seg) = e.step (.receive seg') := by
  have hconnection : ∀ s : TCPSegment, e.connection.segmentReceived s =
      e.connection.segmentReceived s.core := fun s =>
    (TCPConnection.segmentReceived_core e.connection s).symm
  have hacks : ∀ s : TCPSegment, e.newAcks s = e.newAcks s.core := fun _ => rfl
  simp only [Endpoint.step]
  rw [hconnection seg, hconnection seg', hacks seg, hacks seg', h]

/-! ## The size of a segment -/

/-- A header without options, and at most a full payload. -/
structure TCPSegment.Sized (seg : TCPSegment) : Prop where
  doff : seg.header.doff = 5
  length : seg.payload.length ≤ TCPConfig.maxPayloadSize + 1

theorem TCPConnection.sized_stamp (r : TCPReceiver) {seg : TCPSegment} (h : seg.Sized) :
    (stamp r seg).Sized := by
  refine ⟨?_, by rw [stamp_payload]; exact h.length⟩
  unfold stamp
  cases r.ackno <;> exact h.doff

theorem TCPSender.FirstSent.sized {isn : WrappingInt32} {whole : List Byte}
    {firsts : List TCPSegment} {n : Nat} {fin : Bool}
    (h : TCPSender.FirstSent isn whole firsts n fin) : ∀ seg ∈ firsts, seg.Sized := by
  intro seg hseg
  have hlen := (h.length_bounds seg hseg).2
  have hpayload : seg.payload.length ≤ seg.lengthInSequenceSpace := by
    rw [TCPSegment.lengthInSequenceSpace]
    omega
  refine ⟨?_, by omega⟩
  rcases h with ⟨rfl, -, -⟩ | ⟨rest, rfl, hcarries⟩
  · exact absurd hseg (by simp)
  · cases List.mem_cons.mp hseg with
    | inl hsyn =>
        rw [hsyn]
        rfl
    | inr hrest =>
        obtain ⟨k, payload, flag, heq, -⟩ := hcarries.mem hrest
        rw [heq]
        rfl

namespace Endpoint

variable {e : Endpoint} {op : ConnectionOp} {firsts : List TCPSegment} {n : Nat} {fin : Bool}

/-- Everything emitted so far is short. -/
def EmitsSized (e : Endpoint) : Prop :=
  ∀ seg ∈ e.connection.segmentsOut, seg.Sized

theorem EmitsSized.step (h : e.EmitsSized) (hsends : e.Sends firsts n fin)
    (hop : e.WritesBeforeEnd op) : (e.step op).EmitsSized := by
  intro seg hseg
  cases hdown : e.shutsDown op with
  | true =>
      rw [(shuts_of_shutsDown hdown).segmentsOut] at hseg
      cases List.mem_append.mp hseg with
      | inl hold => exact h seg hold
      | inr hrst =>
          cases op with
          | tick ms =>
              have heq : seg = e.connection.rstSegment := by simpa [rstOut] using hrst
              rw [heq]
              exact ⟨rfl, Nat.zero_le _⟩
          | receive seg' => exact absurd hrst (by simp [rstOut])
          | connect => exact absurd hrst (by simp [rstOut])
          | write data => exact absurd hrst (by simp [rstOut])
          | endInputStream => exact absurd hrst (by simp [rstOut])
          | read len => exact absurd hrst (by simp [rstOut])
  | false =>
      have hruns := runs_of_not_shutsDown hsends.drained hdown
      rw [hruns.segmentsOut] at hseg
      cases List.mem_append.mp hseg with
      | inl hold => exact h seg hold
      | inr hnew =>
          obtain ⟨orig, horig, rfl⟩ := List.mem_map.mp hnew
          obtain ⟨pushed, firsts', n', fin', hemit⟩ := hsends.driven hop
          have hpushed : orig ∈ pushed := by
            rw [hemit.segmentsOut, (hsends.prepared hop).drained, List.nil_append] at horig
            exact horig
          refine TCPConnection.sized_stamp _ ?_
          rcases hemit.kinds orig hpushed with hcopy | ⟨m, -, -, heq⟩
          · exact hemit.sent.shape.sized orig hcopy
          · rw [heq]
            exact ⟨rfl, Nat.zero_le _⟩

end Endpoint
end Sponge

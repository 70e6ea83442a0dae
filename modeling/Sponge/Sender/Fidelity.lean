import Sponge.Lib.Run
import Sponge.Sender.Invariant

/-!
# Every run of the sender

`SenderRun` is a sender with the history of its run: the bytes its stream has
accepted, the segments sent for the first time and the acknowledgments accepted.
The main result says what the sender puts on the wire in any run: the SYN, then
consecutive slices of the stream, then the FIN, and otherwise only copies of
these and empty segments.
-/

namespace Sponge

/-- What the owner of a sender can do with it. -/
inductive SenderOp where
  | write (data : List Byte)
  | endInput
  | fillWindow
  | ackReceived (ackno : WrappingInt32) (windowSize : UInt16)
  | tick (msSinceLastTick : Nat)
  | sendEmptyAck
deriving DecidableEq, Repr

namespace TCPSender

def apply (s : TCPSender) : SenderOp → TCPSender
  | .write data => { s with stream := (s.stream.write data).1 }
  | .endInput => { s with stream := s.stream.endInput }
  | .fillWindow => s.fillWindow
  | .ackReceived ackno windowSize => s.ackReceived ackno windowSize
  | .tick ms => s.tick ms
  | .sendEmptyAck => s.sendEmptyAck

end TCPSender

/-- A sender and the history of its run. -/
structure SenderRun where
  sender : TCPSender
  /-- the bytes accepted by the stream -/
  accepted : List Byte := []
  /-- the segments sent for the first time -/
  firsts : List TCPSegment := []
  /-- the acknowledgments accepted, unwrapped, each with its window -/
  acks : List (Nat × UInt16) := []
deriving DecidableEq, Repr

namespace SenderRun

def start (capacity : Nat) (retxTimeout : UInt16) (isn : WrappingInt32) : SenderRun where
  sender := TCPSender.new capacity retxTimeout isn

/-- The bytes an operation adds to the stream. -/
def newBytes (h : SenderRun) : SenderOp → List Byte
  | .write data => h.sender.stream.accepted data
  | _ => []

/-- The segments a call has pushed. -/
def pushed (before after : TCPSender) : List TCPSegment :=
  after.segmentsOut.drop before.segmentsOut.length

/-- A call that uses new sequence numbers sends its segments for the first time. -/
def newFirsts (before after : TCPSender) : List TCPSegment :=
  if after.nextSeqno = before.nextSeqno then [] else pushed before after

/-- The acknowledgment an operation brings, if it is accepted. -/
def newAcks (h : SenderRun) : SenderOp → List (Nat × UInt16)
  | .ackReceived ackno windowSize =>
      let ack := unwrap ackno h.sender.isn h.sender.nextSeqno
      if h.sender.rejects ack then [] else [(ack, windowSize)]
  | _ => []

def step (h : SenderRun) (op : SenderOp) : SenderRun where
  sender := h.sender.apply op
  accepted := h.accepted ++ h.newBytes op
  firsts := h.firsts ++ newFirsts h.sender (h.sender.apply op)
  acks := h.acks ++ h.newAcks op

/-- The states reached by any sequence of operations. -/
abbrev Reached (capacity : Nat) (retxTimeout : UInt16) (isn : WrappingInt32) (h : SenderRun) :
    Prop :=
  Run.Reach step (fun _ _ => True) (start capacity retxTimeout isn) h

/-- The run's invariant. -/
def Consistent (h : SenderRun) : Prop :=
  h.sender.EdgeInRange ∧ ∃ n fin, h.sender.Sent h.accepted h.firsts n fin

end SenderRun

namespace TCPSender

/-- Every segment after the SYN uses a sequence number, and at most those of a full
payload and the FIN. -/
theorem Carries.length_bounds {isn : WrappingInt32} {whole : List Byte} {segs : List TCPSegment}
    {n : Nat} {fin : Bool} (h : Carries isn whole segs n fin) :
    ∀ seg ∈ segs, 1 ≤ seg.lengthInSequenceSpace ∧
      seg.lengthInSequenceSpace ≤ TCPConfig.maxPayloadSize + 1 := by
  induction h with
  | nil => simp
  | data payload _ hpos hmax _ _ ih =>
      intro seg hseg
      rcases List.mem_append.mp hseg with hold | hnew
      · exact ih seg hold
      · rw [List.mem_singleton.mp hnew, segment_length]
        simp only [Bool.false_eq_true, if_false]
        omega
  | fin payload _ hmax _ _ ih =>
      intro seg hseg
      rcases List.mem_append.mp hseg with hold | hnew
      · exact ih seg hold
      · rw [List.mem_singleton.mp hnew, segment_length]
        simp only [Bool.false_eq_true, if_false, if_true]
        omega

theorem Carries.length_pos {isn : WrappingInt32} {whole : List Byte} {segs : List TCPSegment}
    {n : Nat} {fin : Bool} (h : Carries isn whole segs n fin) :
    ∀ seg ∈ segs, 1 ≤ seg.lengthInSequenceSpace :=
  fun seg hseg => (h.length_bounds seg hseg).1

theorem FirstSent.length_bounds {isn : WrappingInt32} {whole : List Byte}
    {firsts : List TCPSegment} {n : Nat} {fin : Bool} (h : FirstSent isn whole firsts n fin) :
    ∀ seg ∈ firsts, 1 ≤ seg.lengthInSequenceSpace ∧
      seg.lengthInSequenceSpace ≤ TCPConfig.maxPayloadSize + 1 := by
  rcases h with ⟨rfl, -, -⟩ | ⟨rest, rfl, hcarries⟩
  · simp
  · intro seg hseg
    rcases List.mem_cons.mp hseg with rfl | hrest
    · simp
    · exact hcarries.length_bounds seg hrest

theorem FirstSent.length_pos {isn : WrappingInt32} {whole : List Byte} {firsts : List TCPSegment}
    {n : Nat} {fin : Bool} (h : FirstSent isn whole firsts n fin) :
    ∀ seg ∈ firsts, 1 ≤ seg.lengthInSequenceSpace :=
  fun seg hseg => (h.length_bounds seg hseg).1

theorem eq_nil_of_span_eq_zero {segs : List TCPSegment}
    (hpos : ∀ seg ∈ segs, 1 ≤ seg.lengthInSequenceSpace) (hzero : span segs = 0) : segs = [] := by
  cases segs with
  | nil => rfl
  | cons seg rest =>
      have hone := hpos seg (by simp)
      rw [span_cons] at hzero
      omega

/-- What `new_firsts` records is what the specification of a call says it sends
for the first time. -/
theorem Stepped.newFirsts_eq {s s' : TCPSender} {whole : List Byte}
    {firsts pushed firsts' : List TCPSegment} {n n' : Nat} {fin fin' : Bool}
    (hstep : Stepped s s' whole firsts n fin pushed firsts' n' fin')
    (h : s.nextSeqno = span firsts) : firsts ++ SenderRun.newFirsts s s' = firsts' := by
  have hpushed : SenderRun.pushed s s' = pushed := by
    rw [SenderRun.pushed, hstep.segmentsOut, List.drop_left]
  have hnext := hstep.sent.next
  rw [SenderRun.newFirsts, hpushed]
  -- the record goes by `next_seqno`: it has moved exactly if something new was pushed
  rcases hstep.pushes with hnew | ⟨hsame, hnum, -⟩
  · split_ifs with heq
    · have hzero : span pushed = 0 := by
        rw [hnext, hnew, span_append, h] at heq
        omega
      have hnil := eq_nil_of_span_eq_zero (fun seg hseg => hstep.sent.shape.length_pos seg
        (by rw [hnew]; exact List.mem_append_right _ hseg)) hzero
      rw [hnew, hnil]
    · exact hnew.symm
  · rw [if_pos hnum, List.append_nil, hsame]

/-- A FIN among the segments sent says that the FIN has been sent, and sits at the
end of what has been carried. -/
theorem FirstSent.fin_of_mem {isn : WrappingInt32} {whole : List Byte} {firsts : List TCPSegment}
    {n : Nat} {fin : Bool} (h : FirstSent isn whole firsts n fin) {seg : TCPSegment}
    (hseg : seg ∈ firsts) (hflag : seg.header.fin = true) :
    fin = true ∧ ∃ k payload, seg = segment isn (1 + k) payload false true ∧
      payload = (whole.drop k).take payload.length ∧ k + payload.length = n := by
  rcases h with ⟨rfl, -, -⟩ | ⟨rest, rfl, hcarries⟩
  · simp at hseg
  · rcases List.mem_cons.mp hseg with rfl | hrest
    · simp [segment] at hflag
    · obtain ⟨k, payload, flag, heq, hslice, -, hfin⟩ := hcarries.mem hrest
      have htrue : flag = true := by
        rw [heq] at hflag
        exact hflag
      rw [htrue] at heq
      exact ⟨(hfin htrue).1, k, payload, heq, hslice, (hfin htrue).2⟩

/-- The flag of the invariant is visible among the segments sent. -/
theorem FirstSent.fin_iff {isn : WrappingInt32} {whole : List Byte} {firsts : List TCPSegment}
    {n : Nat} {fin : Bool} (h : FirstSent isn whole firsts n fin) :
    fin = true ↔ ∃ seg ∈ firsts, seg.header.fin = true := by
  constructor
  · intro hfin
    rcases h with ⟨-, -, hnone⟩ | ⟨rest, rfl, hcarries⟩
    · rw [hfin] at hnone
      exact absurd hnone (by simp)
    · subst hfin
      cases hcarries with
      | fin payload _ _ _ _ =>
          exact ⟨_, List.mem_cons_of_mem _ (List.mem_append_right _ (List.mem_singleton_self _)),
            rfl⟩
  · rintro ⟨seg, hseg, hflag⟩
    exact (h.fin_of_mem hseg hflag).1

end TCPSender

namespace SenderRun

open TCPSender

theorem consistent_start (capacity : Nat) (retxTimeout : UInt16) (isn : WrappingInt32) :
    Consistent (start capacity retxTimeout isn) :=
  ⟨edgeInRange_new capacity retxTimeout isn, 0, false, sent_new capacity retxTimeout isn⟩

/-- A call of a method, with the recorded history. -/
theorem stepped_of_apply {h : SenderRun} {op : SenderOp} {n n' : Nat} {fin fin' : Bool}
    {pushed firsts' : List TCPSegment} (hsent : h.sender.Sent h.accepted h.firsts n fin)
    (hbytes : h.newBytes op = [])
    (hstep : Stepped h.sender (h.sender.apply op) h.accepted h.firsts n fin pushed firsts' n'
      fin') :
    Stepped h.sender (h.step op).sender (h.step op).accepted h.firsts n fin pushed
      (h.step op).firsts n' fin' := by
  have hfirsts : (h.step op).firsts = firsts' := hstep.newFirsts_eq hsent.next
  have haccepted : (h.step op).accepted = h.accepted := by simp [step, hbytes]
  rw [hfirsts, haccepted]
  exact hstep

/-- One operation of a run: writing and ending the input touch the stream only,
the methods of the sender are described by `Stepped`. -/
theorem Consistent.exists_stepped {h : SenderRun} (hc : h.Consistent) (op : SenderOp) :
    ∃ s n fin pushed n' fin', h.sender.Sent h.accepted h.firsts n fin ∧
      s.isn = h.sender.isn ∧ s.nextSeqno = h.sender.nextSeqno ∧
      s.segmentsOut = h.sender.segmentsOut ∧
      Stepped s (h.step op).sender (h.step op).accepted h.firsts n fin pushed
        (h.step op).firsts n' fin' := by
  obtain ⟨hedge, n, fin, hsent⟩ := hc
  -- for the calls that send nothing
  have hstream : ∀ {s : TCPSender}, h.sender.apply op = s →
      s.segmentsOut = h.sender.segmentsOut → s.nextSeqno = h.sender.nextSeqno →
      s.Sent (h.step op).accepted h.firsts n fin → s.EdgeInRange →
      Stepped s (h.step op).sender (h.step op).accepted h.firsts n fin []
        (h.step op).firsts n fin := by
    intro s happly hout hnext hs he
    have hfirsts : (h.step op).firsts = h.firsts := by
      simp [step, happly, newFirsts, hnext]
    have hsender : (h.step op).sender = s := happly
    rw [hfirsts, hsender]
    exact hs.stepped_of_same he rfl rfl rfl rfl rfl rfl rfl (by simp) (by simp)
  cases op with
  | write data =>
      exact ⟨h.sender.apply (.write data), n, fin, [], n, fin, hsent, rfl, rfl, rfl,
        hstream rfl rfl rfl (hsent.write data) ⟨hedge.pos, hedge.lt, hedge.le⟩⟩
  | endInput =>
      have hs : (h.sender.apply .endInput).Sent (h.step .endInput).accepted h.firsts n fin := by
        simpa [step, newBytes, apply] using hsent.endInput
      exact ⟨h.sender.apply .endInput, n, fin, [], n, fin, hsent, rfl, rfl, rfl,
        hstream rfl rfl rfl hs ⟨hedge.pos, hedge.lt, hedge.le⟩⟩
  | fillWindow =>
      obtain ⟨pushed, firsts', n', fin', hstep, -⟩ := hsent.fillWindow_stepped hedge
      exact ⟨h.sender, n, fin, pushed, n', fin', hsent, rfl, rfl, rfl,
        stepped_of_apply hsent rfl hstep⟩
  | ackReceived ackno windowSize =>
      cases hrej : h.sender.rejects (unwrap ackno h.sender.isn h.sender.nextSeqno) with
      | true =>
          have hs : h.sender.Sent (h.step (.ackReceived ackno windowSize)).accepted h.firsts
              n fin := by
            simpa [step, newBytes] using hsent
          exact ⟨h.sender, n, fin, [], n, fin, hsent, rfl, rfl, rfl,
            hstream (ackReceived_of_rejects windowSize hrej) rfl rfl hs hedge⟩
      | false =>
          obtain ⟨pushed, firsts', n', fin', hstep, -⟩ :=
            hsent.ackReceived_stepped hedge rfl windowSize hrej
          exact ⟨h.sender, n, fin, pushed, n', fin', hsent, rfl, rfl, rfl,
            stepped_of_apply hsent rfl hstep⟩
  | tick ms =>
      obtain ⟨pushed, hstep, -⟩ := hsent.tick_stepped hedge ms
      exact ⟨h.sender, n, fin, pushed, n, fin, hsent, rfl, rfl, rfl,
        stepped_of_apply hsent rfl hstep⟩
  | sendEmptyAck =>
      obtain ⟨pushed, firsts', n', fin', hstep, -⟩ := hsent.sendEmptyAck_stepped hedge
      exact ⟨h.sender, n, fin, pushed, n', fin', hsent, rfl, rfl, rfl,
        stepped_of_apply hsent rfl hstep⟩

theorem Consistent.step {h : SenderRun} (hc : h.Consistent) (op : SenderOp) :
    (h.step op).Consistent := by
  obtain ⟨s, n, fin, pushed, n', fin', -, -, -, -, hstep⟩ := hc.exists_stepped op
  exact ⟨hstep.edge, n', fin', hstep.sent⟩

theorem Reached.consistent {capacity : Nat} {retxTimeout : UInt16} {isn : WrappingInt32}
    {h : SenderRun} (hr : Reached capacity retxTimeout isn h) : h.Consistent :=
  Run.Reach.invariant (P := Consistent) hr (consistent_start capacity retxTimeout isn)
    fun _ op _ hc => hc.step op

/-- One call from `h` to `h'`, seen on the wire: `pushed` is what it puts on the
queue and `new` what of it is sent for the first time. -/
structure Faithful (h h' : SenderRun) (new pushed : List TCPSegment) : Prop where
  queue : h'.sender.segmentsOut = h.sender.segmentsOut ++ pushed
  firsts : h'.firsts = h.firsts ++ new
  kinds : new = pushed ∨ (new = [] ∧ ∀ seg ∈ pushed, seg ∈ h.firsts ∨
    seg = segment h.sender.isn h.sender.nextSeqno [] false false)
  /-- a FIN directly follows the last byte accepted when it is sent -/
  fin_at_end : ∀ seg ∈ new, seg.header.fin = true → ∃ k ≤ h'.accepted.length,
    seg = segment h.sender.isn (1 + k) (h'.accepted.drop k) false true
  after_fin : (∃ seg ∈ h.firsts, seg.header.fin = true) →
    new = [] ∧ h'.sender.nextSeqno = h.sender.nextSeqno

theorem Consistent.faithful {h : SenderRun} (hc : h.Consistent) (op : SenderOp) :
    ∃ new pushed, Faithful h (h.step op) new pushed := by
  obtain ⟨s, n, fin, pushed, n', fin', hsent, hisn, hnum, hout, hstep⟩ := hc.exists_stepped op
  have hnext := hstep.sent.next
  have hisn' := hstep.isn.trans hisn
  have hfinish : (∃ seg ∈ h.firsts, seg.header.fin = true) →
      (h.step op).firsts = h.firsts ∧ (h.step op).sender.nextSeqno = h.sender.nextSeqno := by
    rintro ⟨seg, hseg, hflag⟩
    have hdone := (hstep.after_fin (hsent.shape.fin_of_mem hseg hflag).1).2
    exact ⟨hdone, by rw [hnext, hdone, hsent.next]⟩
  rcases hstep.pushes with hnew | ⟨hsame, -, hcopies⟩
  · refine ⟨pushed, pushed, by rw [hstep.segmentsOut, hout], hnew, Or.inl rfl, ?_, ?_⟩
    · intro seg hseg hflag
      have hmem : seg ∈ (h.step op).firsts := by
        rw [hnew]
        exact List.mem_append_right _ hseg
      obtain ⟨hfin', k, payload, heq, hslice, hend⟩ := hstep.sent.shape.fin_of_mem hmem hflag
      -- a FIN is new only once: after it nothing is sent for the first time
      have hfin : fin = false := by
        by_contra hne
        have hstop := (hstep.after_fin (by simpa using hne)).2
        rw [hnew] at hstop
        have hnil : pushed = [] := by simpa using hstop
        rw [hnil] at hseg
        exact absurd hseg (by simp)
      have hall := (hstep.fin_now hfin hfin').1
      refine ⟨k, by omega, ?_⟩
      rw [heq, hisn', hslice, List.take_of_length_le (by rw [List.length_drop]; omega)]
    · intro hold
      obtain ⟨hfirsts, hnum'⟩ := hfinish hold
      rw [hnew] at hfirsts
      exact ⟨by simpa using hfirsts, hnum'⟩
  · refine ⟨[], pushed, by rw [hstep.segmentsOut, hout], by rw [hsame, List.append_nil],
      Or.inr ⟨rfl, ?_⟩, by simp, fun hold => ⟨rfl, (hfinish hold).2⟩⟩
    intro seg hseg
    rcases hcopies seg hseg with hcopy | ⟨-, hempty⟩
    · exact Or.inl hcopy
    · rw [hisn, hnum] at hempty
      exact Or.inr hempty

end SenderRun

/-- **The sender is faithful to its stream.**  In every run, the segments sent for
the first time are the SYN, then consecutive slices of the accepted bytes, then
at most one FIN; and every call pushes such segments, in order, or else copies of
them and empty segments at the next sequence number. -/
theorem sender_stream_fidelity {capacity : Nat} {retxTimeout : UInt16} {isn : WrappingInt32}
    {h : SenderRun} (hr : SenderRun.Reached capacity retxTimeout isn h) :
    (∃ n fin, TCPSender.FirstSent h.sender.isn h.accepted h.firsts n fin ∧
        h.sender.nextSeqno = TCPSender.span h.firsts) ∧
      ∀ op, ∃ new pushed, SenderRun.Faithful h (h.step op) new pushed := by
  have hc := hr.consistent
  refine ⟨?_, fun op => hc.faithful op⟩
  obtain ⟨-, n, fin, hsent⟩ := hc
  exact ⟨n, fin, hsent.shape, hsent.next⟩

/-- A run that sends the SYN, three bytes in a window of two, a copy of the first
data segment after a timeout, and the FIN. -/
def shortSenderRun : List SenderOp :=
  [.fillWindow, .ackReceived ⟨8⟩ 2, .write [97, 98, 99], .fillWindow, .tick 1000, .endInput,
    .ackReceived ⟨10⟩ 5]

theorem sender_stream_fidelity_short_run :
    (Run.exec SenderRun.step (SenderRun.start 10 1000 ⟨7⟩) shortSenderRun).firsts =
      [TCPSender.segment ⟨7⟩ 0 [] true false, TCPSender.segment ⟨7⟩ 1 [97, 98] false false,
        TCPSender.segment ⟨7⟩ 3 [99] false true] ∧
    ∀ op, ∃ new pushed, SenderRun.Faithful
      (Run.exec SenderRun.step (SenderRun.start 10 1000 ⟨7⟩) shortSenderRun)
      ((Run.exec SenderRun.step (SenderRun.start 10 1000 ⟨7⟩) shortSenderRun).step op) new pushed :=
  ⟨by decide +kernel,
    (sender_stream_fidelity (Run.Reach.exec .start (by decide +kernel))).2⟩

end Sponge

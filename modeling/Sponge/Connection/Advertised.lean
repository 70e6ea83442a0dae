import Sponge.Connection.Endpoint
import Sponge.Receiver.PeerIsn

/-!
# The advertised window never shrinks

Segments get their acknowledgment and window when they are flushed, not when they are made,
so that a copy sent again carries the receiver's present state.  An `Advertiser` records
each segment with ACK together with the absolute number that it acknowledges.  That number
only grows, and so does the right edge of the window: it is the capacity beyond what the
application has read, or `65535` beyond the acknowledgment where the field of the header
cannot hold it.
-/

namespace Sponge

/-- The field of the header holds the window up to its largest value. -/
theorem TCPConnection.stamp_win (r : TCPReceiver) (seg : TCPSegment) :
    (stamp r seg).header.win.toNat = min r.windowSize 65535 := by
  have hfield : (stamp r seg).header.win =
      UInt16.ofNat (if 65535 > r.windowSize then r.windowSize else 65535) := rfl
  rw [hfield, UInt16.toNat_ofNat']
  split_ifs <;> omega

namespace Endpoint

variable {e : Endpoint} {op : ConnectionOp} {peer : WrappingInt32}

/-- The receiver of a connection with its history; `peer` is the sequence number of every
SYN that arrives. -/
def receiverRun (e : Endpoint) (peer : WrappingInt32) : ReceiverRun where
  receiver := e.connection.receiver
  firstSyn := if e.connection.receiver.recieveIsn then some peer else none
  taken := e.taken

/-- The absolute number that the connection acknowledges: the SYN, the bytes assembled and
the FIN. -/
def absoluteAck (e : Endpoint) : Nat :=
  1 + (e.taken ++ e.connection.receiver.streamOut.buffer).length +
    (if e.connection.receiver.streamOut.inputEnded then 1 else 0)

/-- A SYN that arrives has the sequence number `peer`. -/
def OneSyn (peer : WrappingInt32) (_ : Endpoint) : ConnectionOp → Prop
  | .receive seg => seg.header.syn = true → seg.header.seqno = peer
  | _ => True

instance (e : Endpoint) : ∀ op, Decidable (e.OneSyn peer op)
  | .receive _ => inferInstanceAs (Decidable (_ → _))
  | .connect => isTrue trivial
  | .write _ => isTrue trivial
  | .endInputStream => isTrue trivial
  | .tick _ => isTrue trivial
  | .read _ => isTrue trivial

/-! ## What the sender pushes carries no acknowledgment of its own -/

/-- The sender has sent something along its own invariant, whatever was written. -/
def Sending (e : Endpoint) : Prop :=
  e.connection.sender.segmentsOut = [] ∧ e.connection.sender.EdgeInRange ∧
    ∃ whole firsts n fin, e.connection.sender.Sent whole firsts n fin

theorem sending_start (cfg : TCPConfig) : (start cfg).Sending :=
  ⟨rfl, TCPSender.edgeInRange_new _ _ _, [], [], 0, false, TCPSender.sent_new _ _ _⟩

theorem Sending.prepared (h : e.Sending) (op : ConnectionOp) :
    (e.prepared op).segmentsOut = [] ∧ (e.prepared op).EdgeInRange ∧
      ∃ whole firsts n fin, (e.prepared op).Sent whole firsts n fin := by
  obtain ⟨hdrained, hedge, whole, firsts, n, fin, hsent⟩ := h
  have hkeep : (e.prepared op).EdgeInRange := by
    refine ⟨?_, ?_, ?_⟩
    · rw [prepared_wdRightEdge]
      exact hedge.pos
    · rw [prepared_wdRightEdge]
      exact hedge.lt
    · rw [prepared_wdRightEdge, prepared_nextSeqno]
      exact hedge.le
  cases op with
  | write data => exact ⟨hdrained, hkeep, _, firsts, n, fin, hsent.write data⟩
  | endInputStream => exact ⟨hdrained, hkeep, _, firsts, n, fin, hsent.endInput⟩
  | connect => exact ⟨hdrained, hkeep, _, firsts, n, fin, hsent⟩
  | tick ms => exact ⟨hdrained, hkeep, _, firsts, n, fin, hsent⟩
  | read len => exact ⟨hdrained, hkeep, _, firsts, n, fin, hsent⟩
  | receive seg => exact ⟨hdrained, hkeep, _, firsts, n, fin, hsent⟩

/-- The calls that an operation makes, and the segments they push. -/
theorem Sending.driven (h : e.Sending) (op : ConnectionOp) :
    (e.driven op).EdgeInRange ∧ (∃ whole firsts n fin, (e.driven op).Sent whole firsts n fin) ∧
      ∀ seg ∈ (e.driven op).segmentsOut, seg.header.ack = false := by
  obtain ⟨hdrained, hedge, whole, firsts, n, fin, hsent⟩ := h.prepared op
  obtain ⟨pushed, firsts', n', fin', hemit⟩ := driven_emitted hsent hedge
  refine ⟨hemit.edge, ⟨whole, firsts', n', fin', hemit.sent⟩, ?_⟩
  intro seg hseg
  rw [hemit.segmentsOut, hdrained, List.nil_append] at hseg
  exact hemit.ack_eq_false hseg

theorem Sending.step (h : e.Sending) (op : ConnectionOp) : (e.step op).Sending := by
  cases hdown : e.shutsDown op with
  | false =>
      have hruns := runs_of_not_shutsDown h.1 hdown
      obtain ⟨hedge, ⟨whole, firsts, n, fin, hsent⟩, -⟩ := h.driven op
      unfold Sending
      rw [hruns.sender]
      exact ⟨rfl, hedge.drained, whole, firsts, n, fin, hsent.drained⟩
  | true =>
      have hshuts := shuts_of_shutsDown hdown
      obtain ⟨hdrained, hedge, whole, firsts, n, fin, hsent⟩ := h
      unfold Sending
      rw [hshuts.sender]
      exact ⟨hdrained, ⟨hedge.pos, hedge.lt, hedge.le⟩, whole, firsts, n, fin, hsent.setError⟩

/-! ## The acknowledged number and the edge of the window -/

/-- What a connection keeps of its receiver. -/
structure Hears (e : Endpoint) (peer : WrappingInt32) (capacity : Nat) : Prop where
  counted : (e.receiverRun peer).Counted
  isn : e.connection.receiver.recieveIsn = true → e.connection.receiver.isn = wrap 1 peer
  capacity_eq : e.connection.receiver.capacity = capacity
  stream_eq : e.connection.receiver.streamOut.capcity = capacity

theorem hears_start (cfg : TCPConfig) (peer : WrappingInt32) :
    (start cfg).Hears peer cfg.recvCapacity where
  counted := ReceiverRun.counted_start cfg.recvCapacity
  isn := by simp [start, TCPConnection.new, TCPReceiver.new]
  capacity_eq := rfl
  stream_eq := rfl

variable {capacity : Nat}

theorem Hears.ackno_eq (h : e.Hears peer capacity)
    (hknown : e.connection.receiver.recieveIsn = true) :
    e.connection.receiver.ackno = some (wrap e.absoluteAck peer) := by
  have hsyn : (e.receiverRun peer).firstSyn = some peer := if_pos hknown
  have hpinned : (e.receiverRun peer).Pinned := by
    rw [h.counted.pinned_iff]
    intro s hs
    obtain rfl : peer = s := Option.some.inj (hsyn.symm.trans hs)
    exact h.isn hknown
  exact h.counted.ackno_absolute hpinned hsyn

/-- The window ends the capacity beyond what has been read. -/
theorem Hears.edge_eq (h : e.Hears peer capacity) (hcap : capacity < 2 ^ 62) :
    e.absoluteAck + e.connection.receiver.windowSize = 1 + e.taken.length +
      (if e.connection.receiver.streamOut.inputEnded then 1 else 0) + capacity := by
  have hvalid : e.connection.receiver.streamOut.Valid := h.counted.valid
  have hsize := hvalid.size_eq
  have hle := hvalid.size_le
  rw [h.stream_eq] at hle
  have hwindow : e.connection.receiver.windowSize =
      capacity - e.connection.receiver.streamOut.size := by
    rw [TCPReceiver.windowSize, h.capacity_eq]
    exact Word.sub_of_le (by omega) hle
  rw [absoluteAck, hwindow, List.length_append]
  omega

/-- From `e` to `e'` nothing that was acknowledged or read is taken back. -/
structure Moves (e e' : Endpoint) : Prop where
  ack : e.absoluteAck ≤ e'.absoluteAck
  ended : e.connection.receiver.streamOut.inputEnded = true →
    e'.connection.receiver.streamOut.inputEnded = true
  taken : e.taken.length ≤ e'.taken.length

/-- An operation that leaves the receiver as it is, perhaps with its stream in error. -/
theorem Hears.keep {e' : Endpoint} (h : e.Hears peer capacity)
    (hreceiver : e'.connection.receiver = e.connection.receiver ∨
      e'.connection.receiver = e.connection.receiver.setError)
    (htaken : e'.taken = e.taken) : e'.Hears peer capacity ∧ e.Moves e' := by
  rcases hreceiver with hsame | herror
  · have hack : e'.absoluteAck = e.absoluteAck := by
      unfold absoluteAck
      rw [hsame, htaken]
    have hrun : e'.receiverRun peer = e.receiverRun peer := by
      unfold receiverRun
      rw [hsame, htaken]
    refine ⟨⟨?_, ?_, ?_, ?_⟩, hack.ge, ?_, by rw [htaken]⟩
    · rw [hrun]
      exact h.counted
    · rw [hsame]
      exact h.isn
    · rw [hsame]
      exact h.capacity_eq
    · rw [hsame]
      exact h.stream_eq
    · rw [hsame]
      exact id
  · have hack : e'.absoluteAck = e.absoluteAck := by
      unfold absoluteAck
      rw [herror, htaken]
      rfl
    have hrun : e'.receiverRun peer =
        { e.receiverRun peer with receiver := e.connection.receiver.setError } := by
      unfold receiverRun
      rw [herror, htaken]
      rfl
    refine ⟨⟨?_, ?_, ?_, ?_⟩, hack.ge, ?_, by rw [htaken]⟩
    · rw [hrun]
      exact ⟨h.counted.valid.setError, h.counted.written, h.counted.counter_lt, h.counted.isn⟩
    · rw [herror]
      exact h.isn
    · rw [herror]
      exact h.capacity_eq
    · rw [herror]
      exact h.stream_eq
    · rw [herror]
      exact id

theorem Hears.read (h : e.Hears peer capacity) (len : Nat) :
    (e.step (.read len)).Hears peer capacity ∧ e.Moves (e.step (.read len)) := by
  have hcounted : ((e.step (.read len)).receiverRun peer).Counted := h.counted.step (.read len)
  have hack := ReceiverRun.absoluteAck_le_step h.counted (.read len)
  refine ⟨⟨hcounted, h.isn, h.capacity_eq, h.stream_eq⟩, hack, id, ?_⟩
  show e.taken.length ≤ (e.taken ++ _).length
  rw [List.length_append]
  exact Nat.le_add_right _ _

/-- A segment that is assembled. -/
theorem Hears.receive (h : e.Hears peer capacity) {seg : TCPSegment}
    (hop : e.OneSyn peer (.receive seg))
    (hreceiver : (e.step (.receive seg)).connection.receiver =
      e.connection.receiver.segmentReceived seg) :
    (e.step (.receive seg)).Hears peer capacity ∧ e.Moves (e.step (.receive seg)) := by
  have hrun : (e.step (.receive seg)).receiverRun peer =
      (e.receiverRun peer).step (.receive seg) := by
    have hknown : (e.connection.receiver.segmentReceived seg).recieveIsn =
        (e.connection.receiver.recieveIsn || seg.header.syn) :=
      TCPReceiver.segmentReceived_recieveIsn _ _
    unfold receiverRun
    rw [hreceiver, hknown]
    simp only [ReceiverRun.step, ReceiverRun.mk.injEq, true_and]
    refine ⟨?_, rfl⟩
    cases hsyn : seg.header.syn with
    | false => simp
    | true =>
        rw [hop hsyn]
        cases e.connection.receiver.recieveIsn <;> simp
  have hcounted := h.counted.step (.receive seg)
  have hack := ReceiverRun.absoluteAck_le_step h.counted (.receive seg)
  rw [← hrun] at hcounted hack
  obtain ⟨more, hmore⟩ := e.connection.receiver.segmentReceived_extends seg
  refine ⟨⟨hcounted, ?_, ?_, ?_⟩, hack, ?_, le_refl _⟩
  · rw [hreceiver, TCPReceiver.segmentReceived_recieveIsn, TCPReceiver.segmentReceived_isn]
    intro hknown
    split_ifs with hsyn
    · rw [hop hsyn]
    · exact h.isn (by simpa [hsyn] using hknown)
  · rw [hreceiver, TCPReceiver.segmentReceived_capacity, h.capacity_eq]
  · rw [hreceiver, hmore.capcity, h.stream_eq]
  · rw [hreceiver]
    exact hmore.inputEnd

/-- What an operation does to the receiver. -/
theorem Hears.step (h : e.Hears peer capacity) (hs : e.Sending) (hop : e.OneSyn peer op) :
    (e.step op).Hears peer capacity ∧ e.Moves (e.step op) := by
  cases hdown : e.shutsDown op with
  | true =>
      refine h.keep (Or.inr (shuts_of_shutsDown hdown).receiver) ?_
      rcases shutsDown_cases hdown with ⟨ms, rfl, -⟩ | ⟨seg, rfl, -⟩
      · rfl
      · rfl
  | false =>
      have hreceiver := (runs_of_not_shutsDown hs.1 hdown).receiver
      cases op with
      | read len => exact h.read len
      | receive seg => exact h.receive hop hreceiver
      | connect => exact h.keep (Or.inl hreceiver) rfl
      | write data => exact h.keep (Or.inl hreceiver) rfl
      | endInputStream => exact h.keep (Or.inl hreceiver) rfl
      | tick ms => exact h.keep (Or.inl hreceiver) rfl

/-- The right edge, as the header can express it, only moves right. -/
theorem Hears.edge_le {e' : Endpoint} (h : e.Hears peer capacity) (h' : e'.Hears peer capacity)
    (hcap : capacity < 2 ^ 62) (hmoves : e.Moves e') :
    e.absoluteAck + min e.connection.receiver.windowSize 65535 ≤
      e'.absoluteAck + min e'.connection.receiver.windowSize 65535 := by
  have hedge := h.edge_eq hcap
  have hedge' := h'.edge_eq hcap
  have hack := hmoves.ack
  have htaken := hmoves.taken
  have hended : (if e.connection.receiver.streamOut.inputEnded then 1 else 0) ≤
      (if e'.connection.receiver.streamOut.inputEnded then 1 else 0) := by
    by_cases hend : e.connection.receiver.streamOut.inputEnded = true
    · rw [if_pos hend, if_pos (hmoves.ended hend)]
    · rw [if_neg hend]
      exact Nat.zero_le _
  omega

/-- The segments that an operation appends, if they have ACK, acknowledge what the receiver
has assembled by then and announce its window. -/
theorem exists_appended (hs : e.Sending) (h' : (e.step op).Hears peer capacity) :
    ∃ new, (e.step op).connection.segmentsOut = e.connection.segmentsOut ++ new ∧
      ∀ seg ∈ new, seg.header.ack = true →
        seg.header.ackno = wrap (e.step op).absoluteAck peer ∧
        seg.header.win.toNat = min (e.step op).connection.receiver.windowSize 65535 := by
  cases hdown : e.shutsDown op with
  | true =>
      refine ⟨e.rstOut op, (shuts_of_shutsDown hdown).segmentsOut, ?_⟩
      intro seg hseg hack
      rw [(mem_rstOut hseg).2.1] at hack
      contradiction
  | false =>
      have hruns := runs_of_not_shutsDown hs.1 hdown
      refine ⟨_, hruns.segmentsOut, ?_⟩
      intro seg hseg hack
      rw [← hruns.receiver] at hseg
      obtain ⟨orig, horig, rfl⟩ := List.mem_map.mp hseg
      have hplain := (hs.driven op).2.2 orig horig
      generalize e.step op = e' at *
      have hwin := TCPConnection.stamp_win e'.connection.receiver orig
      cases hno : e'.connection.receiver.ackno with
      | none =>
          rw [TCPConnection.stamp_of_none _ _ hno, hplain] at hack
          contradiction
      | some ackno =>
          have hknown : e'.connection.receiver.recieveIsn = true := by
            by_contra hun
            simp [TCPReceiver.ackno, hun] at hno
          have hstamp := (TCPConnection.stamp_of_some _ orig hno).2
          rw [h'.ackno_eq hknown] at hno
          exact ⟨hstamp.trans (Option.some.inj hno).symm, hwin⟩

end Endpoint

/-- A connection, and the segments with ACK that it has emitted, each with the absolute
number that it acknowledges. -/
structure Advertiser where
  endpoint : Endpoint
  adverts : List (Nat × TCPSegment) := []
deriving DecidableEq, Repr

namespace Advertiser

def start (cfg : TCPConfig) : Advertiser where
  endpoint := Endpoint.start cfg

/-- The segments with ACK that a step has appended to `segments_out`. -/
def newAdverts (before after : Endpoint) : List (Nat × TCPSegment) :=
  let new := after.connection.segmentsOut.drop before.connection.segmentsOut.length
  (new.filter fun seg => seg.header.ack).map fun seg => (after.absoluteAck, seg)

def step (w : Advertiser) (op : ConnectionOp) : Advertiser where
  endpoint := w.endpoint.step op
  adverts := w.adverts ++ newAdverts w.endpoint (w.endpoint.step op)

/-- All SYNs that arrive have the sequence number `peer`. -/
def Admits (peer : WrappingInt32) (w : Advertiser) (op : ConnectionOp) : Prop :=
  w.endpoint.OneSyn peer op

instance (peer : WrappingInt32) (w : Advertiser) (op : ConnectionOp) :
    Decidable (w.Admits peer op) :=
  inferInstanceAs (Decidable (w.endpoint.OneSyn peer op))

/-- The absolute right edge that a segment advertises. -/
def edge (a : Nat × TCPSegment) : Nat :=
  a.1 + a.2.header.win.toNat

/-- The segments with ACK in the order they are emitted: neither the number acknowledged
nor the right edge ever goes back. -/
structure NeverShrinks (w : Advertiser) (peer : WrappingInt32) : Prop where
  segments : w.adverts.map Prod.snd =
    w.endpoint.connection.segmentsOut.filter fun seg => seg.header.ack
  ackno : ∀ a ∈ w.adverts, a.2.header.ackno = wrap a.1 peer
  sorted : w.adverts.Pairwise fun a b => a.1 ≤ b.1 ∧ edge a ≤ edge b

/-- What a run keeps: nothing advertised so far is ahead of the receiver's present state. -/
structure Consistent (w : Advertiser) (peer : WrappingInt32) (capacity : Nat) : Prop where
  sending : w.endpoint.Sending
  hears : w.endpoint.Hears peer capacity
  shrinks : w.NeverShrinks peer
  present : ∀ a ∈ w.adverts, a.1 ≤ w.endpoint.absoluteAck ∧
    edge a ≤ w.endpoint.absoluteAck + min w.endpoint.connection.receiver.windowSize 65535

theorem consistent_start (cfg : TCPConfig) (peer : WrappingInt32) :
    (start cfg).Consistent peer cfg.recvCapacity where
  sending := Endpoint.sending_start cfg
  hears := Endpoint.hears_start cfg peer
  shrinks := ⟨rfl, by simp [start], List.Pairwise.nil⟩
  present := by simp [start]

theorem Consistent.step {w : Advertiser} {peer : WrappingInt32} {capacity : Nat}
    (h : w.Consistent peer capacity) (hcap : capacity < 2 ^ 62) {op : ConnectionOp}
    (hop : w.Admits peer op) : (w.step op).Consistent peer capacity := by
  obtain ⟨hhears, hmoves⟩ := h.hears.step h.sending hop
  obtain ⟨new, hnew, hstamped⟩ := Endpoint.exists_appended h.sending hhears
  have hedge := h.hears.edge_le hhears hcap hmoves
  have hack := hmoves.ack
  have hfresh : newAdverts w.endpoint (w.endpoint.step op) =
      (new.filter fun seg => seg.header.ack).map fun seg =>
        ((w.endpoint.step op).absoluteAck, seg) := by
    unfold newAdverts
    rw [hnew, List.drop_left]
  have hadverts : (w.step op).adverts = w.adverts ++
      (new.filter fun seg => seg.header.ack).map fun seg =>
        ((w.endpoint.step op).absoluteAck, seg) := by
    rw [← hfresh]
    rfl
  -- what is new stands exactly at the present number and edge
  have hpresent : ∀ a ∈ (new.filter fun seg => seg.header.ack).map (fun seg =>
      ((w.endpoint.step op).absoluteAck, seg)), a.1 = (w.endpoint.step op).absoluteAck ∧
        a.2.header.ackno = wrap a.1 peer ∧ edge a = (w.endpoint.step op).absoluteAck +
          min (w.endpoint.step op).connection.receiver.windowSize 65535 := by
    intro a ha
    obtain ⟨seg, hseg, rfl⟩ := List.mem_map.mp ha
    obtain ⟨hmem, hflag⟩ := List.mem_filter.mp hseg
    obtain ⟨hackno, hwin⟩ := hstamped seg hmem hflag
    exact ⟨rfl, hackno, by rw [edge, hwin]⟩
  have hold : ∀ a ∈ w.adverts, a.1 ≤ (w.endpoint.step op).absoluteAck ∧
      edge a ≤ (w.endpoint.step op).absoluteAck +
        min (w.endpoint.step op).connection.receiver.windowSize 65535 := by
    intro a ha
    obtain ⟨hfirst, hsecond⟩ := h.present a ha
    exact ⟨hfirst.trans hack, hsecond.trans hedge⟩
  refine ⟨h.sending.step op, hhears, ⟨?_, ?_, ?_⟩, ?_⟩
  · show _ = (w.endpoint.step op).connection.segmentsOut.filter _
    rw [hadverts, List.map_append, h.shrinks.segments, hnew, List.filter_append, List.map_map]
    congr 1
    exact List.map_id _
  · rw [hadverts]
    intro a ha
    rcases List.mem_append.mp ha with hmem | hmem
    · exact h.shrinks.ackno a hmem
    · exact (hpresent a hmem).2.1
  · rw [hadverts, List.pairwise_append]
    refine ⟨h.shrinks.sorted, ?_, ?_⟩
    · refine List.pairwise_of_forall_mem_list fun a ha b hb => ?_
      obtain ⟨hfirst, -, hsecond⟩ := hpresent a ha
      obtain ⟨hfirst', -, hsecond'⟩ := hpresent b hb
      rw [hfirst, hsecond, hfirst', hsecond']
      exact ⟨le_refl _, le_refl _⟩
    · intro a ha b hb
      obtain ⟨hfirst, -, hsecond⟩ := hpresent b hb
      rw [hfirst, hsecond]
      exact hold a ha
  · rw [hadverts]
    intro a ha
    rcases List.mem_append.mp ha with hmem | hmem
    · exact hold a hmem
    · obtain ⟨hfirst, -, hsecond⟩ := hpresent a hmem
      exact ⟨hfirst.le, hsecond.le⟩

end Advertiser

/-- **The advertised window never shrinks.**  In every run in which all SYNs that arrive
have one sequence number, the segments with ACK acknowledge numbers that never go back and
advertise right edges that never go back. -/
theorem window_never_shrinks {cfg : TCPConfig} {peer : WrappingInt32} {w : Advertiser}
    (hcap : cfg.recvCapacity < 2 ^ 62)
    (hr : Run.Reach Advertiser.step (Advertiser.Admits peer) (Advertiser.start cfg) w) :
    w.NeverShrinks peer := by
  have hinv : w.Consistent peer cfg.recvCapacity :=
    Run.Reach.invariant (P := fun w => w.Consistent peer cfg.recvCapacity) hr
      (Advertiser.consistent_start cfg peer) fun _ _ hop h => h.step hcap hop
  exact hinv.shrinks

/-- A SYN is answered, a byte arrives and is read, our own byte is sent, and sent again
after more has arrived. -/
def answeredBytes : List ConnectionOp :=
  [.connect,
    .receive { header := { syn := true, ack := true, seqno := ⟨7⟩, ackno := ⟨1⟩, win := 9 } },
    .receive { header := { seqno := ⟨8⟩ }, payload := [1, 2] }, .write [9], .read 1,
    .receive { header := { seqno := ⟨10⟩, fin := true }, payload := [3] }, .tick 1000]

theorem window_never_shrinks_answered_bytes :
    ((Run.exec Advertiser.step (Advertiser.start { isn := ⟨0⟩, recvCapacity := 4 })
      answeredBytes).adverts.map fun a => (a.1, Advertiser.edge a)) =
        [(1, 5), (3, 5), (3, 5), (5, 7), (5, 7)] ∧
    (Run.exec Advertiser.step (Advertiser.start { isn := ⟨0⟩, recvCapacity := 4 })
      answeredBytes).NeverShrinks ⟨7⟩ :=
  ⟨by decide +kernel, window_never_shrinks (by decide) (.exec .start (by decide +kernel))⟩

end Sponge

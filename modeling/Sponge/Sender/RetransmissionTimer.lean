import Sponge.Sender.Outstanding
import Sponge.Sender.Window

/-!
# The retransmission timer

The sender keeps two readings of a 64-bit clock and no flag that says whether the timer
runs.  `ReferenceTimer` is the timer the sender is meant to have: it runs exactly while
segments are outstanding, counts milliseconds without bound, and is driven by the
history of the run alone.  `TimerRun` runs the two side by side.
-/

namespace Sponge

/-- The specification of the retransmission timer. -/
structure ReferenceTimer where
  initial : Nat
  /-- the time since the last restart; `none` while the timer does not run -/
  elapsed : Option Nat := none
  rto : Nat
  count : Nat := 0
deriving DecidableEq, Repr

namespace ReferenceTimer

/-- A tick: at the timeout the timer restarts, and backs off if told to. -/
def tick (t : ReferenceTimer) (backOff : Bool) (ms : Nat) : ReferenceTimer :=
  match t.elapsed with
  | none => t
  | some e =>
      if t.rto ≤ e + ms then
        { t with
          elapsed := some 0
          rto := if backOff then 2 * t.rto else t.rto
          count := if backOff then t.count + 1 else t.count }
      else { t with elapsed := some (e + ms) }

/-- What a tick sends: the oldest of the outstanding segments, at the timeout. -/
def transmits (t : ReferenceTimer) (outstanding : List SegNode) (ms : Nat) : List TCPSegment :=
  match t.elapsed with
  | none => []
  | some e =>
      if t.rto ≤ e + ms then (outstanding.head?.map SegNode.seg).toList else []

/-- An acknowledgment completes an outstanding segment. -/
def reset (t : ReferenceTimer) : ReferenceTimer :=
  { t with elapsed := t.elapsed.map fun _ => 0, rto := t.initial, count := 0 }

/-- The timer runs exactly while segments are outstanding, from 0 when it is started. -/
def follow (t : ReferenceTimer) (outstanding : List SegNode) : ReferenceTimer :=
  { t with elapsed := if outstanding = [] then none else some (t.elapsed.getD 0) }

end ReferenceTimer

namespace SenderRun

/-- The largest right edge advertised by the accepted acknowledgments; `1` for the SYN. -/
def advertised (h : SenderRun) : Nat :=
  h.acks.foldl (fun edge a => max edge (a.1 + a.2.toNat)) 1

/-- An operation brings an accepted acknowledgment that completes an outstanding
segment. -/
def completes (h : SenderRun) (op : SenderOp) : Bool :=
  (h.newAcks op).any fun a => h.outstanding.any fun node => decide (node.ackIndex ≤ a.1)

end SenderRun

/-- A run of the sender and the reference timer driven by its history. -/
structure TimerRun where
  run : SenderRun
  timer : ReferenceTimer
deriving DecidableEq, Repr

namespace TimerRun

def start (capacity : Nat) (retxTimeout : UInt16) (isn : WrappingInt32) : TimerRun where
  run := SenderRun.start capacity retxTimeout isn
  timer := { initial := retxTimeout.toNat, rto := retxTimeout.toNat }

/-- The reference timer after an operation, before it looks at what is outstanding. -/
def driven (r : TimerRun) : SenderOp → ReferenceTimer
  | .tick ms => r.timer.tick (decide (r.run.unacked < r.run.advertised)) ms
  | op => if r.run.completes op then r.timer.reset else r.timer

def step (r : TimerRun) (op : SenderOp) : TimerRun where
  run := r.run.step op
  timer := (r.driven op).follow (r.run.step op).outstanding

/-- A tick of the sender does what the reference says: it sends the same segments, and
leaves the same timeout and the same count. -/
def TickAgrees (r : TimerRun) (ms : Nat) : Prop :=
  SenderRun.pushed r.run.sender (r.run.sender.tick ms) =
      r.timer.transmits r.run.outstanding ms ∧
    (r.run.sender.tick ms).rto = (r.step (.tick ms)).timer.rto ∧
    (r.run.sender.tick ms).retransNum = (r.step (.tick ms)).timer.count % 2 ^ 64

instance (r : TimerRun) (ms : Nat) : Decidable (r.TickAgrees ms) :=
  inferInstanceAs (Decidable (_ ∧ _ ∧ _))

/-- The largest edge advertised does not lie inside the oldest outstanding segment, at
the number the peer has acknowledged last. -/
def EdgeClear (h : SenderRun) : Prop :=
  h.unacked < h.advertised ∨
    ∀ node ∈ h.outstanding.head?, h.advertised ≤ node.ackIndex - node.seg.lengthInSequenceSpace

instance (h : SenderRun) : Decidable (EdgeClear h) :=
  inferInstanceAs (Decidable (_ ∨ _))

/-- What an operation must meet: the time since the last restart fits in 64 bits, the
edge is clear of the oldest segment when it times out, and an accepted edge fits in 64
bits.  The timeout itself is taken to be below `2 ^ 63`. -/
def InRange (r : TimerRun) : SenderOp → Prop
  | .tick ms => ∀ e ∈ r.timer.elapsed,
      r.timer.rto < 2 ^ 63 ∧ e + ms < 2 ^ 64 ∧ (r.timer.rto ≤ e + ms → EdgeClear r.run)
  | op => ∀ a ∈ r.run.newAcks op, a.1 + a.2.toNat < 2 ^ 64

instance (r : TimerRun) : ∀ op, Decidable (r.InRange op)
  | .tick _ => inferInstanceAs (Decidable (∀ e ∈ r.timer.elapsed, _))
  | .write _ => inferInstanceAs (Decidable (∀ a ∈ r.run.newAcks _, _))
  | .endInput => inferInstanceAs (Decidable (∀ a ∈ r.run.newAcks _, _))
  | .fillWindow => inferInstanceAs (Decidable (∀ a ∈ r.run.newAcks _, _))
  | .ackReceived _ _ => inferInstanceAs (Decidable (∀ a ∈ r.run.newAcks _, _))
  | .sendEmptyAck => inferInstanceAs (Decidable (∀ a ∈ r.run.newAcks _, _))

/-! ## The sender's side of one operation -/

end TimerRun

namespace TCPSender

/-- The time the sender's clock has counted since the last restart. -/
def elapsedTime (s : TCPSender) : Nat :=
  Word.sub 64 s.timer.nowTime s.timer.lastFlashTime

/-- `s'` has the timer, the timeout and the count of `s`, and may have sent more. -/
structure SameTimer (s s' : TCPSender) : Prop where
  initial : s'.initialRetransmissionTimeout = s.initialRetransmissionTimeout
  retransNum : s'.retransNum = s.retransNum
  rto : s'.rto = s.rto
  timer : s'.timer = s.timer
  segBuffer : s.segBuffer <+: s'.segBuffer

theorem SameTimer.refl (s : TCPSender) : SameTimer s s :=
  ⟨rfl, rfl, rfl, rfl, List.prefix_rfl⟩

theorem Sends.sameTimer {s s' : TCPSender} {new : List TCPSegment} (h : Sends s s' new) :
    SameTimer s s' := by
  obtain ⟨nodes, hbuf, -⟩ := h.segBuffer
  exact ⟨h.initial, h.retransNum, h.rto, h.timer, nodes, hbuf.symm⟩

/-- Only `tick` and an accepted acknowledgment touch the timer. -/
theorem apply_sameTimer {s : TCPSender} (hvalid : s.stream.Valid) {op : SenderOp}
    (htick : ∀ ms, op ≠ .tick ms)
    (hack : ∀ ackno windowSize, op = .ackReceived ackno windowSize →
      s.rejects (unwrap ackno s.isn s.nextSeqno) = true) : SameTimer s (s.apply op) := by
  cases op with
  | write data => exact ⟨rfl, rfl, rfl, rfl, List.prefix_rfl⟩
  | endInput => exact ⟨rfl, rfl, rfl, rfl, List.prefix_rfl⟩
  | fillWindow =>
      obtain ⟨new, hnew, -⟩ := exists_sends_fillWindow hvalid
      exact hnew.sameTimer
  | ackReceived ackno windowSize =>
      have hsame : s.apply (.ackReceived ackno windowSize) = s :=
        ackReceived_of_rejects windowSize (hack ackno windowSize rfl)
      rw [hsame]
      exact .refl s
  | tick ms => exact absurd rfl (htick ms)
  | sendEmptyAck =>
      show SameTimer s s.sendEmptyAck
      rcases s.sendEmptyAck_cases with ⟨-, heq⟩ | ⟨-, heq⟩
      · rw [heq]
        exact (Sends.sendNewSeg s s.synSeg rfl).sameTimer
      · rw [heq]
        exact ⟨rfl, rfl, rfl, rfl, List.prefix_rfl⟩

/-- An acknowledgment that covers no outstanding segment leaves the buffer and the timer
alone; one that does restarts the timer. -/
theorem acknowledge_timer (s : TCPSender) (ack : Nat) :
    (s.segBuffer.head?.any (fun node => decide (node.ackIndex ≤ ack)) = false ∧
      (s.acknowledge ack).segBuffer = s.segBuffer ∧ (s.acknowledge ack).rto = s.rto ∧
      (s.acknowledge ack).retransNum = s.retransNum ∧ (s.acknowledge ack).timer = s.timer) ∨
    (s.segBuffer.head?.any (fun node => decide (node.ackIndex ≤ ack)) = true ∧
      (s.acknowledge ack).rto = s.initialRetransmissionTimeout ∧
      (s.acknowledge ack).retransNum = 0 ∧ (s.acknowledge ack).timer = s.timer.flash) := by
  obtain ⟨hrest, hflag⟩ := popAcked_eq ack s.curAckIndex false s.segBuffer
  rw [Bool.false_or] at hflag
  rw [acknowledge_segBuffer, hrest, acknowledge, hflag]
  cases hany : s.segBuffer.head?.any fun node => decide (node.ackIndex ≤ ack) with
  | false =>
      refine Or.inl ⟨rfl, ?_, rfl, rfl, rfl⟩
      cases hbuf : s.segBuffer with
      | nil => rfl
      | cons front rest =>
          rw [hbuf] at hany
          exact List.dropWhile_cons_of_neg (by simpa using hany)
  | true => exact Or.inr ⟨rfl, rfl, rfl, rfl⟩

theorem timesOut_iff (s : TCPSender) (ms : Nat) :
    s.TimesOut ms ↔ s.segBuffer ≠ [] ∧ s.rto ≤ (s.elapsedTime + ms) % 2 ^ 64 := by
  rw [TimesOut, Timer.timeOut, Timer.tick, decide_eq_true_eq, Word.sub_add]
  rfl

@[simp] theorem acknowledge_initial (s : TCPSender) (ack : Nat) :
    (s.acknowledge ack).initialRetransmissionTimeout = s.initialRetransmissionTimeout := by
  simp only [acknowledge]
  split <;> rfl

/-- The oldest outstanding segment starts at the acknowledged number. -/
theorem Sent.front_start {s : TCPSender} {whole : List Byte} {firsts : List TCPSegment} {n : Nat}
    {fin : Bool} (h : Sent s whole firsts n fin) {front : SegNode} {rest : List SegNode}
    (hbuf : s.segBuffer = front :: rest) :
    front.ackIndex - front.seg.lengthInSequenceSpace = s.curAckIndex := by
  obtain ⟨done, pending, -, -, hnodes⟩ := h.outstanding
  rw [hbuf] at hnodes
  cases pending with
  | nil => simp [nodesFrom] at hnodes
  | cons seg pending =>
      rw [nodesFrom] at hnodes
      rw [(List.cons.inj hnodes).1]
      exact Nat.add_sub_cancel _ _

end TCPSender

namespace TimerRun

open TCPSender

/-! ## Agreement -/

/-- The sender's timer stands where the reference timer does. -/
structure Agrees (r : TimerRun) : Prop where
  tracked : r.run.Tracked
  initial : r.run.sender.initialRetransmissionTimeout = r.timer.initial
  edge : r.run.sender.wdRightEdge = r.run.advertised
  unacked_le : r.run.unacked ≤ r.run.advertised
  /-- the sender has no running flag: its clock stands still while nothing is outstanding -/
  stopped : r.run.sender.segBuffer = [] → r.run.sender.elapsedTime = 0
  elapsed : r.timer.elapsed =
    if r.run.sender.segBuffer = [] then none else some r.run.sender.elapsedTime
  rto : r.run.sender.rto = r.timer.rto
  count : r.run.sender.retransNum = r.timer.count % 2 ^ 64
  early : r.run.sender.elapsedTime = 0 ∨ r.run.sender.elapsedTime < r.timer.rto

theorem agrees_start (capacity : Nat) (retxTimeout : UInt16) (isn : WrappingInt32) :
    (start capacity retxTimeout isn).Agrees where
  tracked := SenderRun.tracked_start capacity retxTimeout isn
  initial := rfl
  edge := rfl
  unacked_le := Nat.zero_le 1
  stopped := fun _ => Word.sub_self 64 0
  elapsed := rfl
  rto := rfl
  count := rfl
  early := Or.inl (Word.sub_self 64 0)

theorem advertised_step (h : SenderRun) (op : SenderOp) :
    (h.step op).advertised =
      (h.newAcks op).foldl (fun edge a => max edge (a.1 + a.2.toNat)) h.advertised := by
  rw [SenderRun.advertised, SenderRun.step, List.foldl_append]
  rfl

section Step

variable {r : TimerRun} {op : SenderOp}

theorem driven_of_ne_tick (h : ∀ ms, op ≠ .tick ms) :
    r.driven op = if r.run.completes op then r.timer.reset else r.timer := by
  cases op with
  | tick ms => exact absurd rfl (h ms)
  | write data => rfl
  | endInput => rfl
  | fillWindow => rfl
  | ackReceived ackno windowSize => rfl
  | sendEmptyAck => rfl

/-- The reference reads the same clock. -/
theorem Agrees.getD_elapsed (ha : r.Agrees) :
    r.timer.elapsed.getD 0 = r.run.sender.elapsedTime := by
  rw [ha.elapsed]
  split_ifs with hnil
  · rw [ha.stopped hnil]
    rfl
  · rfl

/-- The edge the sender goes by stays the largest one advertised. -/
theorem Agrees.edge_step (ha : r.Agrees)
    (hrange : ∀ a ∈ r.run.newAcks op, a.1 + a.2.toNat < 2 ^ 64) :
    (r.run.step op).sender.wdRightEdge = (r.run.step op).advertised ∧
      (r.run.step op).unacked ≤ (r.run.step op).advertised := by
  have hedge := ha.edge
  have hun := ha.unacked_le
  rw [advertised_step, SenderRun.unacked_step]
  rcases ha.tracked.consistent.step_numbers op with
    ⟨hnone, -, hright, -⟩ | ⟨ackno, windowSize, ack, -, -, -, hacks, hright, -⟩
  · rw [hnone, hright]
    exact ⟨hedge, hun⟩
  · rw [hacks] at hrange ⊢
    have hfits := hrange (ack, windowSize) (by simp)
    rw [hright, Word.add_of_lt hfits, hedge]
    exact ⟨rfl, max_le_max hun (Nat.le_add_right _ _)⟩

/-- Agreement after an operation, from what it does to the sender's timer. -/
theorem Agrees.of_driven (ha : r.Agrees)
    (hrange : ∀ a ∈ r.run.newAcks op, a.1 + a.2.toNat < 2 ^ 64)
    (hinitial : (r.run.sender.apply op).initialRetransmissionTimeout = (r.driven op).initial)
    (hstopped : (r.run.sender.apply op).segBuffer = [] → (r.run.sender.apply op).elapsedTime = 0)
    (helapsed : (r.driven op).elapsed.getD 0 = (r.run.sender.apply op).elapsedTime)
    (hrto : (r.run.sender.apply op).rto = (r.driven op).rto)
    (hcount : (r.run.sender.apply op).retransNum = (r.driven op).count % 2 ^ 64)
    (hearly : (r.run.sender.apply op).elapsedTime = 0 ∨
      (r.run.sender.apply op).elapsedTime < (r.driven op).rto) : (r.step op).Agrees where
  tracked := ha.tracked.step op
  initial := hinitial
  edge := (ha.edge_step hrange).1
  unacked_le := (ha.edge_step hrange).2
  stopped := hstopped
  elapsed := by
    show (if (r.run.step op).outstanding = [] then none else
      some ((r.driven op).elapsed.getD 0)) = _
    rw [← (ha.tracked.step op).buffer, helapsed]
    rfl
  rto := hrto
  count := hcount
  early := hearly

/-- Operations that do not touch the timer. -/
theorem Agrees.step_of_same (ha : r.Agrees)
    (hrange : ∀ a ∈ r.run.newAcks op, a.1 + a.2.toNat < 2 ^ 64)
    (hdriven : r.driven op = r.timer) (hsame : SameTimer r.run.sender (r.run.sender.apply op)) :
    (r.step op).Agrees := by
  have helapsed : (r.run.sender.apply op).elapsedTime = r.run.sender.elapsedTime := by
    rw [elapsedTime, hsame.timer]
    rfl
  apply ha.of_driven hrange
  · rw [hsame.initial, hdriven, ha.initial]
  · intro hnil
    have hold : r.run.sender.segBuffer = [] := List.prefix_nil.mp (hnil ▸ hsame.segBuffer)
    rw [helapsed, ha.stopped hold]
  · rw [hdriven, helapsed, ha.getD_elapsed]
  · rw [hsame.rto, hdriven, ha.rto]
  · rw [hsame.retransNum, hdriven, ha.count]
  · rw [helapsed, hdriven]
    exact ha.early

/-- In a buffer in order, the oldest segment is covered if any is. -/
theorem any_covered_eq {nodes : List SegNode} {ack : Nat}
    (h : nodes.Pairwise fun a b => a.ackIndex < b.ackIndex) :
    nodes.any (fun node => decide (node.ackIndex ≤ ack)) =
      nodes.head?.any fun node => decide (node.ackIndex ≤ ack) := by
  cases nodes with
  | nil => rfl
  | cons front rest =>
      rw [List.pairwise_cons] at h
      by_cases hfront : front.ackIndex ≤ ack
      · simp [hfront]
      · have hrest : rest.any (fun node => decide (node.ackIndex ≤ ack)) = false := by
          rw [List.any_eq_false]
          intro node hnode
          have := h.1 node hnode
          rw [decide_eq_true_eq]
          omega
        simp [hfront, hrest]

/-- An accepted acknowledgment resets both timers if it covers the oldest segment. -/
theorem Agrees.step_of_accepts (ha : r.Agrees) {ackno : WrappingInt32} {windowSize : UInt16}
    (hrej : r.run.sender.rejects
      (unwrap ackno r.run.sender.isn r.run.sender.nextSeqno) = false)
    (hrange : ∀ a ∈ r.run.newAcks (.ackReceived ackno windowSize), a.1 + a.2.toNat < 2 ^ 64) :
    (r.step (.ackReceived ackno windowSize)).Agrees := by
  obtain ⟨hedge, n, fin, hsent⟩ := ha.tracked.consistent
  generalize hack : unwrap ackno r.run.sender.isn r.run.sender.nextSeqno = ack at hrej
  obtain ⟨hwlt, -⟩ := hedge.widened (accepts_iff.mp hrej).2 windowSize
  obtain ⟨t, new, hsends, heq, -⟩ :=
    exists_ackReceived_of_accepts windowSize hsent.stream hwlt hack.symm hrej
  have hsame := hsends.sameTimer
  have hcompletes : r.run.completes (.ackReceived ackno windowSize) =
      r.run.sender.segBuffer.head?.any fun node => decide (node.ackIndex ≤ ack) := by
    rw [← any_covered_eq hsent.buffer_increasing, ha.tracked.buffer]
    simp [SenderRun.completes, SenderRun.newAcks, hack, hrej]
  generalize max r.run.sender.wdRightEdge (Word.add 64 ack windowSize.toNat) = edge at heq
  have happly : r.run.sender.apply (.ackReceived ackno windowSize) =
      { t with wdRightEdge := edge } := heq
  have hinitial : t.initialRetransmissionTimeout = r.timer.initial := by
    rw [hsame.initial, ← ha.initial]
    exact acknowledge_initial _ _
  rcases r.run.sender.acknowledge_timer ack with
    ⟨hany, hbuf, hrto, hcount, htimer⟩ | ⟨hany, hrto, hcount, htimer⟩
  · -- nothing is covered: the timer is not touched
    have hdriven : r.driven (.ackReceived ackno windowSize) = r.timer := by
      rw [driven_of_ne_tick (by simp), hcompletes, hany]
      rfl
    refine ha.step_of_same hrange hdriven ?_
    rw [happly]
    exact {
      initial := by rw [ha.initial]; exact hinitial
      retransNum := hsame.retransNum.trans hcount
      rto := hsame.rto.trans hrto
      timer := hsame.timer.trans htimer
      segBuffer := by rw [← hbuf]; exact hsame.segBuffer }
  · have hdriven : r.driven (.ackReceived ackno windowSize) = r.timer.reset := by
      rw [driven_of_ne_tick (by simp), hcompletes, hany]
      rfl
    have hzero : t.elapsedTime = 0 := by
      have htime : t.timer = r.run.sender.timer.flash := hsame.timer.trans htimer
      rw [elapsedTime, htime]
      exact Word.sub_self 64 _
    have hrun : r.timer.reset.elapsed.getD 0 = 0 := by
      rw [ReferenceTimer.reset]
      cases r.timer.elapsed with
      | none => rfl
      | some e => rfl
    apply ha.of_driven hrange
    · rw [happly, hdriven]
      exact hinitial
    · intro _
      rw [happly]
      exact hzero
    · rw [happly, hdriven, hrun]
      exact hzero.symm
    · rw [happly, hdriven]
      exact (hsame.rto.trans hrto).trans ha.initial
    · rw [happly, hdriven]
      exact hsame.retransNum.trans hcount
    · rw [happly]
      exact Or.inl hzero

/-- A clear edge makes the sender back off exactly when the reference does. -/
theorem Agrees.backOff_iff (ha : r.Agrees) {front : SegNode} {rest : List SegNode}
    (hbuf : r.run.sender.segBuffer = front :: rest) :
    (Word.sub 64 r.run.sender.wdRightEdge r.run.sender.curAckIndex ≠ 0 ↔
      r.run.unacked < r.run.advertised) ↔ EdgeClear r.run := by
  obtain ⟨hedge, n, fin, hsent⟩ := ha.tracked.consistent
  have hstart := hsent.front_start hbuf
  have hcur := hsent.cur_le
  have hnext := hsent.next_lt
  have h1 := ha.tracked.cur_le
  have h2 := ha.unacked_le
  rw [EdgeClear, ← ha.tracked.buffer, hbuf, ne_eq,
    Word.sub_eq_zero_iff hedge.lt (by omega), ha.edge]
  simp only [List.head?_cons, Option.mem_def, Option.some.injEq, forall_eq', hstart]
  omega

/-- The reference at a tick with segments outstanding. -/
theorem Agrees.driven_tick (ha : r.Agrees) (hbuf : r.run.sender.segBuffer ≠ []) (ms : Nat) :
    r.driven (.tick ms) =
      if r.timer.rto ≤ r.run.sender.elapsedTime + ms then
        { r.timer with
          elapsed := some 0
          rto := if r.run.unacked < r.run.advertised then 2 * r.timer.rto else r.timer.rto
          count := if r.run.unacked < r.run.advertised then r.timer.count + 1
            else r.timer.count }
      else { r.timer with elapsed := some (r.run.sender.elapsedTime + ms) } := by
  have helapsed := ha.elapsed
  rw [if_neg hbuf] at helapsed
  rw [driven, ReferenceTimer.tick, helapsed]
  simp only [decide_eq_true_eq]

/-- Before the timeout both timers count the time that has passed. -/
theorem Agrees.tick_before (ha : r.Agrees) {ms : Nat} (hbuf : r.run.sender.segBuffer ≠ [])
    (hfits : r.run.sender.elapsedTime + ms < 2 ^ 64)
    (hearly : r.run.sender.elapsedTime + ms < r.timer.rto)
    (heq : r.run.sender.tick ms = { r.run.sender with timer := r.run.sender.timer.tick ms }) :
    (r.step (.tick ms)).Agrees := by
  have hdriven := ha.driven_tick hbuf ms
  rw [if_neg (by omega)] at hdriven
  have happly : r.run.sender.apply (.tick ms) =
      { r.run.sender with timer := r.run.sender.timer.tick ms } := heq
  have helapsed : (r.run.sender.apply (.tick ms)).elapsedTime =
      r.run.sender.elapsedTime + ms := by
    rw [happly, elapsedTime, Timer.tick, Word.sub_add]
    exact Nat.mod_eq_of_lt hfits
  apply ha.of_driven (by simp [SenderRun.newAcks])
  · rw [happly, hdriven]
    exact ha.initial
  · intro hnil
    rw [happly] at hnil
    exact absurd hnil hbuf
  · rw [hdriven, helapsed]
    rfl
  · rw [happly, hdriven]
    exact ha.rto
  · rw [happly, hdriven]
    exact ha.count
  · rw [helapsed, hdriven]
    exact Or.inr hearly

/-- What the sender does to the timeout and to the count at the timeout is what the
reference does, if the edge is clear. -/
theorem Agrees.backOff_eq (ha : r.Agrees) {front : SegNode} {rest : List SegNode}
    (hbuf : r.run.sender.segBuffer = front :: rest) (hrto : r.timer.rto < 2 ^ 63) :
    ((if Word.sub 64 r.run.sender.wdRightEdge r.run.sender.curAckIndex ≠ 0 then
        r.run.sender.rto * 2 % 2 ^ 64 else r.run.sender.rto) =
        (if r.run.unacked < r.run.advertised then 2 * r.timer.rto else r.timer.rto) ∧
      (if Word.sub 64 r.run.sender.wdRightEdge r.run.sender.curAckIndex ≠ 0 then
        Word.add 64 r.run.sender.retransNum 1 else r.run.sender.retransNum) =
        (if r.run.unacked < r.run.advertised then r.timer.count + 1 else r.timer.count) %
          2 ^ 64) ↔ EdgeClear r.run := by
  rw [← ha.backOff_iff hbuf, ha.rto, ha.count]
  have hdouble : r.timer.rto * 2 % 2 ^ 64 = 2 * r.timer.rto := by omega
  have hsucc : Word.add 64 (r.timer.count % 2 ^ 64) 1 = (r.timer.count + 1) % 2 ^ 64 := by
    rw [Word.add_eq, Nat.mod_add_mod]
  have hne : (r.timer.count + 1) % 2 ^ 64 ≠ r.timer.count % 2 ^ 64 := by omega
  rw [hdouble, hsucc]
  by_cases hwin : Word.sub 64 r.run.sender.wdRightEdge r.run.sender.curAckIndex = 0
  · by_cases hund : r.run.unacked < r.run.advertised
    · simp only [hwin, hund, ne_eq, not_true_eq_false, if_true, if_false, false_iff]
      exact iff_of_false (fun h => hne h.2.symm) (by simp)
    · simp [hwin, hund]
  · by_cases hund : r.run.unacked < r.run.advertised
    · simp [hwin, hund]
    · simp only [hwin, hund, ne_eq, not_false_eq_true, if_true, if_false]
      exact iff_of_false (fun h => hne h.2) (by simp)

/-- At the timeout both timers restart, and back off alike if the edge is clear. -/
theorem Agrees.tick_at (ha : r.Agrees) {ms : Nat} {front : SegNode} {rest : List SegNode}
    (hbuf : r.run.sender.segBuffer = front :: rest) (hrto : r.timer.rto < 2 ^ 63)
    (hdue : r.timer.rto ≤ r.run.sender.elapsedTime + ms) (hclear : EdgeClear r.run)
    (heq : r.run.sender.tick ms =
      { r.run.sender with
        segmentsOut := r.run.sender.segmentsOut ++ [front.seg]
        retransNum := if Word.sub 64 r.run.sender.wdRightEdge r.run.sender.curAckIndex ≠ 0 then
          Word.add 64 r.run.sender.retransNum 1 else r.run.sender.retransNum
        rto := if Word.sub 64 r.run.sender.wdRightEdge r.run.sender.curAckIndex ≠ 0 then
          r.run.sender.rto * 2 % 2 ^ 64 else r.run.sender.rto
        timer := (r.run.sender.timer.tick ms).flash }) : (r.step (.tick ms)).Agrees := by
  have hne : r.run.sender.segBuffer ≠ [] := by simp [hbuf]
  have hdriven := ha.driven_tick hne ms
  rw [if_pos hdue] at hdriven
  obtain ⟨hrto', hcount⟩ := (ha.backOff_eq hbuf hrto).mpr hclear
  rw [hrto', hcount] at heq
  have hzero : (r.run.sender.tick ms).elapsedTime = 0 := by
    rw [heq]
    exact Word.sub_self 64 _
  apply ha.of_driven (by simp [SenderRun.newAcks])
  · show (r.run.sender.tick ms).initialRetransmissionTimeout = _
    rw [heq, hdriven]
    exact ha.initial
  · exact fun _ => hzero
  · rw [hdriven]
    exact hzero.symm
  · show (r.run.sender.tick ms).rto = _
    rw [heq, hdriven]
  · show (r.run.sender.tick ms).retransNum = _
    rw [heq, hdriven]
  · exact Or.inl hzero

/-- **One operation.**  Whatever meets the condition keeps the two timers together. -/
theorem Agrees.step (ha : r.Agrees) (hin : r.InRange op) : (r.step op).Agrees := by
  obtain ⟨-, n, fin, hsent⟩ := ha.tracked.consistent
  have hquiet : (∀ ms, op ≠ .tick ms) → r.run.newAcks op = [] → (r.step op).Agrees := by
    intro htick hnone
    have hdriven : r.driven op = r.timer := by
      rw [driven_of_ne_tick htick, SenderRun.completes, hnone]
      rfl
    refine ha.step_of_same (by simp [hnone]) hdriven
      (apply_sameTimer hsent.stream htick ?_)
    intro ackno windowSize hop
    rw [hop, SenderRun.newAcks] at hnone
    by_contra haccept
    simp [haccept] at hnone
  cases op with
  | write data => exact hquiet (by simp) rfl
  | endInput => exact hquiet (by simp) rfl
  | fillWindow => exact hquiet (by simp) rfl
  | sendEmptyAck => exact hquiet (by simp) rfl
  | ackReceived ackno windowSize =>
      cases hrej : r.run.sender.rejects
          (unwrap ackno r.run.sender.isn r.run.sender.nextSeqno) with
      | true => exact hquiet (by simp) (by simp [SenderRun.newAcks, hrej])
      | false => exact ha.step_of_accepts hrej hin
  | tick ms =>
      have helapsed := ha.elapsed
      rcases r.run.sender.tick_cases ms with
        ⟨hbuf, heq⟩ | ⟨hbuf, hnot, heq⟩ | ⟨front, rest, hbuf, htime, heq⟩
      · -- nothing outstanding: both stand still
        rw [if_pos hbuf] at helapsed
        refine ha.step_of_same (by simp [SenderRun.newAcks]) ?_ ?_
        · rw [driven, ReferenceTimer.tick, helapsed]
        · show SameTimer r.run.sender (r.run.sender.tick ms)
          rw [heq]
          exact .refl _
      · rw [if_neg hbuf] at helapsed
        obtain ⟨-, hfits, -⟩ := hin _ helapsed
        rw [timesOut_iff, Nat.mod_eq_of_lt hfits, ha.rto] at hnot
        exact ha.tick_before hbuf hfits (by simpa [hbuf] using hnot) heq
      · rw [if_neg (by simp [hbuf])] at helapsed
        obtain ⟨hrto, hfits, hclear⟩ := hin _ helapsed
        rw [timesOut_iff, Nat.mod_eq_of_lt hfits, ha.rto] at htime
        exact ha.tick_at hbuf hrto htime.2 (hclear htime.2) heq

/-- What the reference shows after a tick; what is outstanding does not change it. -/
theorem step_tick_timer (r : TimerRun) (ms : Nat) :
    (r.step (.tick ms)).timer.rto = (r.driven (.tick ms)).rto ∧
      (r.step (.tick ms)).timer.count = (r.driven (.tick ms)).count :=
  ⟨rfl, rfl⟩

/-- With nothing outstanding both stand still, whatever the tick. -/
theorem Agrees.tickAgrees_of_idle (ha : r.Agrees) {ms : Nat}
    (hbuf : r.run.sender.segBuffer = []) (heq : r.run.sender.tick ms = r.run.sender) :
    r.TickAgrees ms ∧ r.InRange (.tick ms) := by
  have helapsed := ha.elapsed
  rw [if_pos hbuf] at helapsed
  have hdriven : r.driven (.tick ms) = r.timer := by
    rw [driven, ReferenceTimer.tick, helapsed]
  obtain ⟨h1, h2⟩ := r.step_tick_timer ms
  refine ⟨?_, by simp [InRange, helapsed]⟩
  rw [TickAgrees, heq, h1, h2, hdriven, ReferenceTimer.transmits, helapsed, SenderRun.pushed]
  exact ⟨List.drop_length, ha.rto, ha.count⟩

/-- A tick at which the sender's clock does not time out. -/
theorem Agrees.tickAgrees_of_not_timesOut (ha : r.Agrees) {ms : Nat}
    (hrto : r.timer.rto < 2 ^ 63) (hbuf : r.run.sender.segBuffer ≠ [])
    (hnot : ¬ r.run.sender.TimesOut ms)
    (heq : r.run.sender.tick ms = { r.run.sender with timer := r.run.sender.timer.tick ms }) :
    r.TickAgrees ms ↔ r.InRange (.tick ms) := by
  have helapsed := ha.elapsed
  rw [if_neg hbuf] at helapsed
  have hdriven := ha.driven_tick hbuf ms
  rw [timesOut_iff, ha.rto] at hnot
  have hlate : ¬ r.timer.rto ≤ (r.run.sender.elapsedTime + ms) % 2 ^ 64 := fun h => hnot ⟨hbuf, h⟩
  have hpushed : SenderRun.pushed r.run.sender (r.run.sender.tick ms) = [] := by
    rw [SenderRun.pushed, heq]
    exact List.drop_length
  have hin : r.InRange (.tick ms) ↔ r.run.sender.elapsedTime + ms < r.timer.rto := by
    simp only [InRange, helapsed, Option.mem_def, Option.some.injEq, forall_eq']
    constructor
    · rintro ⟨-, hfits, -⟩
      rw [Nat.mod_eq_of_lt hfits] at hlate
      omega
    · intro hlt
      exact ⟨hrto, by omega, fun hdue => by omega⟩
  rw [hin, TickAgrees, hpushed, ReferenceTimer.transmits, helapsed]
  by_cases hdue : r.timer.rto ≤ r.run.sender.elapsedTime + ms
  · -- the clock has wrapped around: the reference sends and the sender does not
    obtain ⟨front, rest, hfront⟩ := List.exists_cons_of_ne_nil hbuf
    simp only [if_pos hdue, ← ha.tracked.buffer, hfront]
    simp [hdue]
  · rw [if_neg hdue] at hdriven
    obtain ⟨h1, h2⟩ := r.step_tick_timer ms
    rw [hdriven] at h1 h2
    simp only [if_neg hdue, h1, h2, heq]
    exact ⟨fun _ => by omega, fun _ => ⟨trivial, ha.rto, ha.count⟩⟩

/-- A tick at which the sender's clock times out: both send the oldest segment, and it
remains to compare how they back off. -/
theorem Agrees.tickAgrees_of_timesOut (ha : r.Agrees) {ms : Nat} (hms : ms < 2 ^ 64)
    (hrto : r.timer.rto < 2 ^ 63) {front : SegNode} {rest : List SegNode}
    (hbuf : r.run.sender.segBuffer = front :: rest) (htime : r.run.sender.TimesOut ms)
    (heq : r.run.sender.tick ms =
      { r.run.sender with
        segmentsOut := r.run.sender.segmentsOut ++ [front.seg]
        retransNum := if Word.sub 64 r.run.sender.wdRightEdge r.run.sender.curAckIndex ≠ 0 then
          Word.add 64 r.run.sender.retransNum 1 else r.run.sender.retransNum
        rto := if Word.sub 64 r.run.sender.wdRightEdge r.run.sender.curAckIndex ≠ 0 then
          r.run.sender.rto * 2 % 2 ^ 64 else r.run.sender.rto
        timer := (r.run.sender.timer.tick ms).flash }) :
    r.TickAgrees ms ↔ r.InRange (.tick ms) := by
  have hne : r.run.sender.segBuffer ≠ [] := by simp [hbuf]
  have helapsed := ha.elapsed
  rw [if_neg hne] at helapsed
  rw [timesOut_iff, ha.rto] at htime
  have hdue := htime.2
  -- a clock that shows less than the timeout cannot wrap around to it
  have hfits : r.run.sender.elapsedTime + ms < 2 ^ 64 := by
    by_contra hwrap
    rcases ha.early with hzero | hlt <;> omega
  rw [Nat.mod_eq_of_lt hfits] at hdue
  have hdriven := ha.driven_tick hne ms
  rw [if_pos hdue] at hdriven
  obtain ⟨h1, h2⟩ := r.step_tick_timer ms
  rw [hdriven] at h1 h2
  have hpushed : SenderRun.pushed r.run.sender (r.run.sender.tick ms) = [front.seg] := by
    rw [SenderRun.pushed, heq]
    exact List.drop_left
  have hsends : r.timer.transmits r.run.outstanding ms = [front.seg] := by
    rw [ReferenceTimer.transmits, helapsed, ← ha.tracked.buffer, hbuf]
    simp [hdue]
  have hin : r.InRange (.tick ms) ↔ EdgeClear r.run := by
    simp only [InRange, helapsed, Option.mem_def, Option.some.injEq, forall_eq']
    exact ⟨fun h => h.2.2 hdue, fun h => ⟨hrto, hfits, fun _ => h⟩⟩
  rw [hin, ← ha.backOff_eq hbuf hrto, TickAgrees, hpushed, hsends, h1, h2, heq]
  simp only [true_and]

/-- A tick of a sender in agreement does what the reference says exactly if it meets the
condition. -/
theorem Agrees.tickAgrees_iff (ha : r.Agrees) {ms : Nat} (hms : ms < 2 ^ 64)
    (hrto : r.timer.rto < 2 ^ 63) : r.TickAgrees ms ↔ r.InRange (.tick ms) := by
  rcases r.run.sender.tick_cases ms with
    ⟨hbuf, heq⟩ | ⟨hbuf, hnot, heq⟩ | ⟨front, rest, hbuf, htime, heq⟩
  · obtain ⟨hagrees, hin⟩ := ha.tickAgrees_of_idle hbuf heq
    exact iff_of_true hagrees hin
  · exact ha.tickAgrees_of_not_timesOut hrto hbuf hnot heq
  · exact ha.tickAgrees_of_timesOut hms hrto hbuf htime heq

end Step

end TimerRun

/-- **The retransmission timer refines its specification.**  In every run whose
operations meet the condition, the sender's timeout and count are those of the reference
timer; and a tick does what the reference says, transmissions included, exactly if it
meets the condition too. -/
theorem retransmission_timer_refines {capacity : Nat} {retxTimeout : UInt16}
    {isn : WrappingInt32} {r : TimerRun}
    (hr : Run.Reach TimerRun.step TimerRun.InRange (TimerRun.start capacity retxTimeout isn) r) :
    r.run.sender.rto = r.timer.rto ∧ r.run.sender.retransNum = r.timer.count % 2 ^ 64 ∧
      ∀ ms < 2 ^ 64, r.timer.rto < 2 ^ 63 → (r.TickAgrees ms ↔ r.InRange (.tick ms)) := by
  have ha : r.Agrees := hr.invariant (TimerRun.agrees_start capacity retxTimeout isn)
    fun _ _ hin ha => ha.step hin
  exact ⟨ha.rto, ha.count, fun ms hms hrto => ha.tickAgrees_iff hms hrto⟩

/-- The SYN is retransmitted, then acknowledged, and three bytes are sent and
retransmitted: the next timeout is due after twice the initial one. -/
theorem retransmission_timer_refines_short_run :
    (Run.exec TimerRun.step (TimerRun.start 10 1000 ⟨0⟩)
      [.fillWindow, .tick 1000, .ackReceived ⟨1⟩ 3, .write [97, 98, 99], .fillWindow, .tick 1000,
        .tick 1999]).TickAgrees 1 :=
  ((retransmission_timer_refines (Run.Reach.exec .start (by decide +kernel))).2.2 1 (by decide)
    (by decide +kernel)).mpr (by decide +kernel)

/-- One millisecond after the SYN, a tick of `2 ^ 64 - 1` milliseconds takes the clock
back to where it was: the timeout has long passed and the SYN is not sent again. -/
theorem clock_wraps_around :
    (Run.exec TimerRun.step (TimerRun.start 10 1000 ⟨0⟩) [.fillWindow, .tick 1]).timer.rto <
        2 ^ 63 ∧
      ¬ (Run.exec TimerRun.step (TimerRun.start 10 1000 ⟨0⟩)
        [.fillWindow, .tick 1]).TickAgrees (2 ^ 64 - 1) := by
  decide +kernel

end Sponge

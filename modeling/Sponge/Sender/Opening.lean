import Sponge.Sender.Window

/-!
# Before the SYN is acknowledged

Nothing in `fill_window` asks whether the SYN has been acknowledged: data and the FIN are
held back by the initial right edge, which leaves room for the SYN only.  An
acknowledgment of the number zero passes the validity test as long as the SYN is
outstanding, and moves that edge if its window is larger than one, or lets a byte pass as
the probe of a closed window.  Apart from that, nothing but SYNs and empty segments is sent
until the SYN is acknowledged.
-/

namespace Sponge

open TCPSender

namespace TCPSender

/-- As long as one sequence number has been used, only the SYN has been sent. -/
theorem FirstSent.eq_syn {isn : WrappingInt32} {whole : List Byte} {firsts : List TCPSegment}
    {n : Nat} {fin : Bool} (h : FirstSent isn whole firsts n fin) (hle : span firsts ≤ 1) :
    ∀ seg ∈ firsts, seg = segment isn 0 [] true false := by
  rcases h with ⟨rfl, -, -⟩ | ⟨rest, rfl, hcarries⟩
  · simp
  · rw [span_cons, segment_length] at hle
    have hzero : span rest = 0 := by
      simp at hle
      omega
    have hrest := eq_nil_of_span_eq_zero hcarries.length_pos hzero
    simp [hrest]

/-- Beyond the first sequence number every segment carries a byte or the FIN. -/
theorem FirstSent.carries_of_append {isn : WrappingInt32} {whole : List Byte}
    {firsts new : List TCPSegment} {n : Nat} {fin : Bool}
    (h : FirstSent isn whole (firsts ++ new) n fin) (hne : firsts ≠ []) :
    ∀ seg ∈ new, seg.payload ≠ [] ∨ seg.header.fin = true := by
  rcases h with ⟨hnil, -, -⟩ | ⟨rest, hsyn, hcarries⟩
  · exact absurd (List.append_eq_nil_iff.mp hnil).1 hne
  · obtain ⟨first, others, rfl⟩ := List.exists_cons_of_ne_nil hne
    rw [List.cons_append] at hsyn
    obtain ⟨-, hrest⟩ := List.cons.inj hsyn
    intro seg hseg
    have hmem : seg ∈ rest := by
      rw [← hrest]
      exact List.mem_append_right _ hseg
    have hpos := hcarries.length_pos seg hmem
    obtain ⟨k, payload, flag, rfl, -⟩ := hcarries.mem hmem
    rw [segment_length] at hpos
    cases flag with
    | true => exact Or.inr rfl
    | false =>
        refine Or.inl ?_
        rintro rfl
        simp at hpos

/-- Before the SYN nothing else is waiting. -/
theorem backlog_le_one (s : TCPSender) (hnone : s.nextSeqno = 0) : s.backlog ≤ 1 := by
  unfold backlog
  split_ifs <;> omega

end TCPSender

namespace SenderRun

/-- An acknowledgment that covers the SYN has been accepted. -/
def SynAcked (h : SenderRun) : Prop :=
  ∃ a ∈ h.acks, 1 ≤ a.1

instance (h : SenderRun) : Decidable h.SynAcked :=
  inferInstanceAs (Decidable (∃ a ∈ h.acks, 1 ≤ a.1))

/-- No segment with payload or FIN has been pushed, unless the SYN has been acknowledged. -/
def SynFirst (h : SenderRun) : Prop :=
  h.SynAcked ∨ ∀ seg ∈ h.sender.segmentsOut, seg.payload = [] ∧ seg.header.fin = false

instance (h : SenderRun) : Decidable h.SynFirst :=
  inferInstanceAs (Decidable (_ ∨ _))

/-- An acknowledgment that does not cover the SYN leaves the window as it was. -/
def LeavesWindow (h : SenderRun) : SenderOp → Prop
  | .ackReceived ackno windowSize =>
      unwrap ackno h.sender.isn h.sender.nextSeqno = 0 →
        (h.sender.ackReceived ackno windowSize).wdRightEdge = h.sender.wdRightEdge
  | _ => True

/-- An acknowledgment of the number zero that is accepted has the window one, or the window
zero with the SYN still to be sent or nothing waiting. -/
def EmptyAckHarmless (h : SenderRun) : SenderOp → Prop
  | .ackReceived ackno windowSize =>
      unwrap ackno h.sender.isn h.sender.nextSeqno = 0 → h.sender.rejects 0 = false →
        windowSize = 1 ∨
          (windowSize = 0 ∧ (h.sender.nextSeqno = 0 ∨ h.sender.backlog = 0))
  | _ => True

instance (h : SenderRun) : ∀ op, Decidable (h.EmptyAckHarmless op)
  | .ackReceived _ _ => inferInstanceAs (Decidable (_ → _))
  | .write _ => isTrue trivial
  | .endInput => isTrue trivial
  | .fillWindow => isTrue trivial
  | .tick _ => isTrue trivial
  | .sendEmptyAck => isTrue trivial

/-- What a run keeps until the SYN is acknowledged. -/
structure Opening (h : SenderRun) : Prop where
  unacked : ¬h.SynAcked
  edge : h.sender.wdRightEdge = 1
  next_le : h.sender.nextSeqno ≤ 1
  cur : h.sender.curAckIndex = 0
  quiet : ∀ seg ∈ h.sender.segmentsOut, seg.payload = [] ∧ seg.header.fin = false

/-- What a run keeps from then on: the number zero is no longer accepted. -/
structure Opened (h : SenderRun) : Prop where
  acked : h.SynAcked
  cur : 1 ≤ h.sender.curAckIndex

theorem opening_start (capacity : Nat) (retxTimeout : UInt16) (isn : WrappingInt32) :
    Opening (start capacity retxTimeout isn) where
  unacked := by simp [SynAcked, start]
  edge := rfl
  next_le := Nat.zero_le 1
  cur := rfl
  quiet := by simp [start, new]

variable {h : SenderRun} {op : SenderOp}

theorem synAcked_step_iff :
    (h.step op).SynAcked ↔ h.SynAcked ∨ ∃ a ∈ h.newAcks op, 1 ≤ a.1 := by
  simp only [SynAcked, step, List.mem_append, or_and_right, exists_or]

/-- As long as only the first sequence number is in use, the calls push the SYN and
empty segments. -/
theorem Consistent.quiet_step (hc : h.Consistent) (hle : (h.step op).sender.nextSeqno ≤ 1)
    (hquiet : ∀ seg ∈ h.sender.segmentsOut, seg.payload = [] ∧ seg.header.fin = false) :
    ∀ seg ∈ (h.step op).sender.segmentsOut, seg.payload = [] ∧ seg.header.fin = false := by
  obtain ⟨s, n, fin, pushed, n', fin', -, -, -, hout, hstep⟩ := hc.exists_stepped op
  have hsyn := hstep.sent.shape.eq_syn (by rw [← hstep.sent.next]; exact hle)
  rw [hstep.segmentsOut, hout]
  intro seg hseg
  rcases List.mem_append.mp hseg with hold | hnew
  · exact hquiet seg hold
  · rcases hstep.pushes with hfirsts | ⟨hfirsts, -, hcopies⟩
    · have hmem : seg ∈ (h.step op).firsts := by
        rw [hfirsts]
        exact List.mem_append_right _ hnew
      rw [hsyn seg hmem]
      exact ⟨rfl, rfl⟩
    · rcases hcopies seg hnew with hcopy | ⟨-, hempty⟩
      · rw [hsyn seg (by rw [hfirsts]; exact hcopy)]
        exact ⟨rfl, rfl⟩
      · rw [hempty]
        exact ⟨rfl, rfl⟩

/-- A second sequence number is used by a byte or by the FIN. -/
theorem Consistent.not_quiet_step (hc : h.Consistent) (hone : h.sender.nextSeqno = 1)
    (hgt : 1 < (h.step op).sender.nextSeqno) :
    ∃ seg ∈ (h.step op).sender.segmentsOut, seg.payload ≠ [] ∨ seg.header.fin = true := by
  obtain ⟨s, n, fin, pushed, n', fin', hsent, -, hnum, -, hstep⟩ := hc.exists_stepped op
  have hnext := hsent.next
  have hnext' := hstep.sent.next
  rcases hstep.pushes with hfirsts | ⟨-, hsame, -⟩
  · have hne : h.firsts ≠ [] := by
      intro hnil
      rw [hnil, span_nil] at hnext
      omega
    have hpushed : pushed ≠ [] := by
      intro hnil
      rw [hfirsts, hnil, List.append_nil] at hnext'
      omega
    obtain ⟨seg, rest, rfl⟩ := List.exists_cons_of_ne_nil hpushed
    have hshape := hstep.sent.shape
    rw [hfirsts] at hshape
    refine ⟨seg, ?_, hshape.carries_of_append hne seg (by simp)⟩
    rw [hstep.segmentsOut]
    simp
  · omega

/-- The oldest number the sender waits for moves only with an accepted acknowledgment,
to the right and not beyond it. -/
theorem Consistent.step_cur (hc : h.Consistent) (op : SenderOp) :
    (h.step op).sender.curAckIndex = h.sender.curAckIndex ∨
      ∃ ack windowSize, h.newAcks op = [(ack, windowSize)] ∧
        (h.step op).sender.curAckIndex = (h.sender.acknowledge ack).curAckIndex ∧
        h.sender.curAckIndex ≤ (h.sender.acknowledge ack).curAckIndex ∧
        (h.sender.acknowledge ack).curAckIndex ≤ ack := by
  obtain ⟨hedge, n, fin, hsent⟩ := hc
  cases op with
  | write data => exact Or.inl rfl
  | endInput => exact Or.inl rfl
  | fillWindow =>
      obtain ⟨-, -, -, -, -, hcur, -⟩ := hsent.fillWindow_stepped hedge
      exact Or.inl hcur
  | tick ms =>
      obtain ⟨-, -, hcur, -⟩ := hsent.tick_stepped hedge ms
      exact Or.inl hcur
  | sendEmptyAck =>
      obtain ⟨-, -, -, -, -, hcur, -⟩ := hsent.sendEmptyAck_stepped hedge
      exact Or.inl hcur
  | ackReceived ackno windowSize =>
      cases hrej : h.sender.rejects (unwrap ackno h.sender.isn h.sender.nextSeqno) with
      | true =>
          have hsame : (h.step (.ackReceived ackno windowSize)).sender = h.sender :=
            ackReceived_of_rejects windowSize hrej
          exact Or.inl (by rw [hsame])
      | false =>
          obtain ⟨-, -, -, -, -, hcur, hle, -⟩ :=
            hsent.ackReceived_stepped hedge rfl windowSize hrej
          have hmono := (hsent.acknowledge (accepts_iff.mp hrej).1).2.1
          exact Or.inr ⟨_, windowSize, by simp [newAcks, hrej], hcur, hmono, hle⟩

/-- With only the SYN outstanding, an acknowledgment that covers it removes it. -/
theorem Opening.cur_acknowledge (ho : h.Opening) (hc : h.Consistent) {ack : Nat} (hack : 1 ≤ ack)
    (hone : h.sender.nextSeqno = 1) : (h.sender.acknowledge ack).curAckIndex = 1 := by
  obtain ⟨-, n, fin, hsent⟩ := hc
  obtain ⟨done, pending, hsplit, hcur, hbuf⟩ := hsent.outstanding
  have hnext := hsent.next
  have hpos := hsent.shape.length_pos
  rw [ho.cur] at hcur hbuf
  have hdone : done = [] := by
    refine eq_nil_of_span_eq_zero (fun seg hseg => hpos seg ?_) hcur.symm
    rw [hsplit]
    exact List.mem_append_left _ hseg
  rw [hsplit, hdone, List.nil_append] at hnext hpos
  cases pending with
  | nil =>
      rw [span_nil] at hnext
      omega
  | cons seg rest =>
      have hfirst := hpos seg (by simp)
      rw [span_cons] at hnext
      have hrest : rest = [] :=
        eq_nil_of_span_eq_zero (fun seg hseg => hpos seg (by simp [hseg])) (by omega)
      rw [acknowledge_curAckIndex, hbuf, hrest, ho.cur]
      have hlen : seg.lengthInSequenceSpace = 1 := by omega
      simp [nodesFrom, popAcked, hlen, hack]

/-- What an accepted acknowledgment of the number zero does to the edge and to the next
sequence number. -/
theorem Opening.step_zero (ho : h.Opening) (hc : h.Consistent) {ackno : WrappingInt32}
    (hzero : unwrap ackno h.sender.isn h.sender.nextSeqno = 0)
    (hrej : h.sender.rejects 0 = false) (windowSize : UInt16) :
    (h.step (.ackReceived ackno windowSize)).sender.wdRightEdge = max 1 windowSize.toNat ∧
      (h.step (.ackReceived ackno windowSize)).sender.nextSeqno =
        min (h.sender.nextSeqno + h.sender.backlog)
          (max h.sender.nextSeqno (max 1 windowSize.toNat + if windowSize = 0 then 1 else 0)) := by
  obtain ⟨hedge, n, fin, hsent⟩ := hc
  obtain ⟨-, -, -, -, -, -, -, hright, hnum⟩ :=
    hsent.ackReceived_stepped hedge hzero.symm windowSize hrej
  have hwin := windowSize.toNat_lt
  have hsum : Word.add 64 0 windowSize.toNat = windowSize.toNat := by
    rw [Word.add_of_lt (by omega), Nat.zero_add]
  rw [ho.edge, hsum] at hright hnum
  refine ⟨hright, hnum.trans ?_⟩
  have hprobe : probeEdge (max 1 windowSize.toNat) windowSize =
      max 1 windowSize.toNat + if windowSize = 0 then 1 else 0 := by
    rw [probeEdge]
    split_ifs
    · exact Word.add_of_lt (by omega)
    · rfl
  rw [hprobe]

/-- An accepted acknowledgment of the number zero leaves the edge and pushes neither data
nor FIN exactly if it is harmless. -/
theorem Opening.step_zero_iff (ho : h.Opening) (hc : h.Consistent) {ackno : WrappingInt32}
    (hzero : unwrap ackno h.sender.isn h.sender.nextSeqno = 0)
    (hrej : h.sender.rejects 0 = false) (windowSize : UInt16) :
    (h.step (.ackReceived ackno windowSize)).sender.wdRightEdge = 1 ∧
        (h.step (.ackReceived ackno windowSize)).sender.nextSeqno ≤ 1 ↔
      windowSize = 1 ∨ (windowSize = 0 ∧ (h.sender.nextSeqno = 0 ∨ h.sender.backlog = 0)) := by
  obtain ⟨hright, hnum⟩ := ho.step_zero hc hzero hrej windowSize
  have hle := ho.next_le
  have hwaiting := h.sender.backlog_le_one
  have hone : windowSize = 1 ↔ windowSize.toNat = 1 := UInt16.toNat_inj.symm
  have hclosed : windowSize = 0 ↔ windowSize.toNat = 0 := UInt16.toNat_inj.symm
  rw [hright, hnum, hone]
  by_cases hwin : windowSize = 0
  · have hwin' := hclosed.mp hwin
    rw [if_pos hwin, hwin']
    simp only [hwin, true_and]
    constructor
    · rintro ⟨-, hsent⟩
      right
      omega
    · intro hor
      omega
  · rw [if_neg hwin]
    have hwin' : windowSize.toNat ≠ 0 := fun hcon => hwin (hclosed.mpr hcon)
    simp only [hwin, false_and, or_false]
    omega

/-- One operation before the SYN is acknowledged. -/
theorem Opening.step (ho : h.Opening) (hc : h.Consistent) (hop : h.EmptyAckHarmless op) :
    (h.step op).Opening ∨ (h.step op).Opened := by
  have hle := ho.next_le
  have hedge := ho.edge
  rcases hc.step_numbers op with
    ⟨hnone, -, hsame, hbound⟩ | ⟨ackno, windowSize, ack, rfl, hack, hrej, hnew, -, -⟩
  · -- nothing is acknowledged, and the edge has room for the SYN only
    have hnext : (h.step op).sender.nextSeqno ≤ 1 := by omega
    refine Or.inl ⟨?_, by rw [hsame]; exact hedge, hnext, ?_, hc.quiet_step hnext ho.quiet⟩
    · rw [synAcked_step_iff, hnone]
      simpa using ho.unacked
    · rcases hc.step_cur op with hcur | ⟨ack, windowSize, hnew, -⟩
      · rw [hcur, ho.cur]
      · rw [hnone] at hnew
        contradiction
  · obtain ⟨hinv, n, fin, hsent⟩ := hc
    obtain ⟨-, -, -, -, -, hcur, hcurle, -⟩ :=
      hsent.ackReceived_stepped hinv hack windowSize hrej
    have hc : h.Consistent := ⟨hinv, n, fin, hsent⟩
    change (h.step (.ackReceived ackno windowSize)).sender.curAckIndex = _ at hcur
    by_cases hzero : ack = 0
    · subst hzero
      obtain ⟨hright, hnext⟩ :=
        (ho.step_zero_iff hc hack.symm hrej windowSize).mpr (hop hack.symm hrej)
      refine Or.inl ⟨?_, hright, hnext, by omega, hc.quiet_step hnext ho.quiet⟩
      rw [synAcked_step_iff, hnew]
      simpa using ho.unacked
    · obtain ⟨-, hsent⟩ := accepts_iff.mp hrej
      have hone : (h.sender.acknowledge ack).curAckIndex = 1 :=
        ho.cur_acknowledge hc (by omega) (by omega)
      refine Or.inr ⟨?_, by omega⟩
      rw [synAcked_step_iff, hnew]
      exact Or.inr ⟨_, List.mem_singleton_self _, by omega⟩

theorem Opened.step (ho : h.Opened) (hc : h.Consistent) (op : SenderOp) : (h.step op).Opened := by
  refine ⟨synAcked_step_iff.mpr (Or.inl ho.acked), ?_⟩
  have hpos := ho.cur
  rcases hc.step_cur op with hcur | ⟨ack, windowSize, -, hcur, hmono, -⟩
  · omega
  · omega

/-- Before and after the SYN is acknowledged. -/
def InOrder (h : SenderRun) : Prop :=
  h.Consistent ∧ (h.Opening ∨ h.Opened)

theorem InOrder.step (hin : h.InOrder) (hop : h.EmptyAckHarmless op) : (h.step op).InOrder := by
  obtain ⟨hc, ho | ho⟩ := hin
  · exact ⟨hc.step op, ho.step hc hop⟩
  · exact ⟨hc.step op, Or.inr (ho.step hc op)⟩

theorem InOrder.synFirst (hin : h.InOrder) : h.SynFirst := by
  obtain ⟨-, ho | ho⟩ := hin
  · exact Or.inr ho.quiet
  · exact Or.inl ho.acked

/-- What a rejected acknowledgment and the other operations do to the window: nothing. -/
theorem leavesWindow_of_rejects
    (hrej : ∀ ackno windowSize, op = .ackReceived ackno windowSize →
      unwrap ackno h.sender.isn h.sender.nextSeqno = 0 → h.sender.rejects 0 = true) :
    h.LeavesWindow op := by
  cases op with
  | ackReceived ackno windowSize =>
      intro hzero
      rw [ackReceived_of_rejects windowSize (by rw [hzero]; exact hrej _ _ rfl hzero)]
  | write data => trivial
  | endInput => trivial
  | fillWindow => trivial
  | tick ms => trivial
  | sendEmptyAck => trivial

/-- An operation keeps the order exactly if it brings no harmful acknowledgment. -/
theorem InOrder.step_iff (hin : h.InOrder) (op : SenderOp) :
    (h.step op).SynFirst ∧ h.LeavesWindow op ↔ h.EmptyAckHarmless op := by
  obtain ⟨hc, hcase⟩ := hin
  by_cases hack : ∃ ackno windowSize, op = .ackReceived ackno windowSize ∧
      unwrap ackno h.sender.isn h.sender.nextSeqno = 0 ∧ h.sender.rejects 0 = false
  · obtain ⟨ackno, windowSize, rfl, hzero, hrej⟩ := hack
    -- the number zero is only accepted before the SYN is acknowledged
    have ho : h.Opening := by
      rcases hcase with ho | ho
      · exact ho
      · have hcur := (accepts_iff.mp hrej).1
        have hpos := ho.cur
        omega
    have hiff := ho.step_zero_iff hc hzero hrej windowSize
    have hharmless : h.EmptyAckHarmless (.ackReceived ackno windowSize) ↔
        windowSize = 1 ∨ (windowSize = 0 ∧ (h.sender.nextSeqno = 0 ∨ h.sender.backlog = 0)) :=
      ⟨fun hop => hop hzero hrej, fun hop _ _ => hop⟩
    rw [hharmless, ← hiff]
    constructor
    · rintro ⟨hfirst, hleaves⟩
      have hright := (hleaves hzero).trans ho.edge
      refine ⟨hright, ?_⟩
      by_contra hmore
      -- a second sequence number has been used, so data or the FIN has been pushed
      have hnum := (ho.step_zero hc hzero hrej windowSize).2
      have hwaiting := h.sender.backlog_le_one
      have hle := ho.next_le
      obtain ⟨seg, hseg, hcarries⟩ := hc.not_quiet_step (by omega) (not_le.mp hmore)
      rcases hfirst with hacked | hquiet
      · rcases synAcked_step_iff.mp hacked with hold | ⟨a, ha, hpos⟩
        · exact ho.unacked hold
        · simp [newAcks, hzero, hrej] at ha
          simp [ha] at hpos
      · obtain ⟨hpayload, hfin⟩ := hquiet seg hseg
        simp [hpayload, hfin] at hcarries
    · rintro ⟨hright, hnext⟩
      exact ⟨Or.inr (hc.quiet_step hnext ho.quiet), fun _ => hright.trans ho.edge.symm⟩
  · have hharmless : h.EmptyAckHarmless op := by
      cases op with
      | ackReceived ackno windowSize =>
          intro hzero hrej
          exact absurd ⟨ackno, windowSize, rfl, hzero, hrej⟩ hack
      | write data => trivial
      | endInput => trivial
      | fillWindow => trivial
      | tick ms => trivial
      | sendEmptyAck => trivial
    have hnext : (h.step op).InOrder := InOrder.step ⟨hc, hcase⟩ hharmless
    refine iff_of_true ⟨hnext.synFirst, leavesWindow_of_rejects ?_⟩ hharmless
    intro ackno windowSize hop hzero
    by_contra hrej
    exact hack ⟨ackno, windowSize, hop, hzero, by simpa using hrej⟩

end SenderRun

/-- **No data before the SYN is acknowledged.**  In every run whose acknowledgments of the
number zero are harmless, no segment with payload or FIN is pushed before the SYN is
acknowledged; and each next operation keeps to that, with an acknowledgment that does not
cover the SYN leaving the window as it was, exactly if it is harmless. -/
theorem no_data_before_syn_acked {capacity : Nat} {retxTimeout : UInt16} {isn : WrappingInt32}
    {h : SenderRun}
    (hr : Run.Reach SenderRun.step SenderRun.EmptyAckHarmless
      (SenderRun.start capacity retxTimeout isn) h) :
    h.SynFirst ∧ ∀ op, (h.step op).SynFirst ∧ h.LeavesWindow op ↔ h.EmptyAckHarmless op := by
  have hin : h.InOrder := Run.Reach.invariant (P := SenderRun.InOrder) hr
    ⟨SenderRun.consistent_start capacity retxTimeout isn,
      Or.inl (SenderRun.opening_start capacity retxTimeout isn)⟩
    fun _ _ hop hin => hin.step hop
  exact ⟨hin.synFirst, hin.step_iff⟩

/-- A byte waits for the SYN to be acknowledged, through a repeated acknowledgment of the
number zero and a retransmission. -/
theorem no_data_before_syn_acked_one_byte :
    (Run.exec SenderRun.step (SenderRun.start 10 1000 ⟨7⟩)
      [.write [97], .fillWindow, .ackReceived ⟨7⟩ 1, .tick 1000, .fillWindow]).SynFirst :=
  (no_data_before_syn_acked (Run.Reach.exec .start (by decide +kernel))).1

/-- An acknowledgment of the number zero opens the window, and the byte is sent with the
SYN unacknowledged. -/
theorem data_after_ack_of_nothing :
    SenderRun.Reached 10 1000 ⟨7⟩ (Run.exec SenderRun.step (SenderRun.start 10 1000 ⟨7⟩)
      [.fillWindow, .write [97], .ackReceived ⟨7⟩ 5]) ∧
    ¬(Run.exec SenderRun.step (SenderRun.start 10 1000 ⟨7⟩)
      [.fillWindow, .write [97], .ackReceived ⟨7⟩ 5]).SynFirst ∧
    ¬(Run.exec SenderRun.step (SenderRun.start 10 1000 ⟨7⟩)
      [.fillWindow, .write [97]]).LeavesWindow (.ackReceived ⟨7⟩ 5) := by
  refine ⟨Run.Reach.exec .start (by decide +kernel), by decide +kernel, ?_⟩
  intro hleaves
  exact absurd (hleaves (by decide +kernel)) (by decide +kernel)

end Sponge

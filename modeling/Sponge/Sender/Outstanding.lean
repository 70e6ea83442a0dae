import Sponge.Sender.Effects
import Sponge.Sender.Fidelity

/-!
# Outstanding segments

A segment is outstanding from the moment it is first sent until an acknowledgment
that covers it is accepted.  `outstanding` says so in terms of the history of a run;
the retransmission buffer of the sender holds exactly these segments, oldest first.
-/

namespace Sponge

namespace TCPSender

/-- The acknowledgment loop drops what is covered, and notes whether the oldest
segment was. -/
theorem popAcked_eq (ack cur : Nat) (newAck : Bool) (nodes : List SegNode) :
    (popAcked ack cur newAck nodes).2.2 =
        (nodes.dropWhile fun node => decide (node.ackIndex ≤ ack)) ∧
      (popAcked ack cur newAck nodes).2.1 =
        (newAck || nodes.head?.any fun node => decide (node.ackIndex ≤ ack)) := by
  induction nodes generalizing cur newAck with
  | nil => simp [popAcked]
  | cons node rest ih =>
      by_cases hack : node.ackIndex ≤ ack
      · rw [popAcked, if_pos hack, List.dropWhile_cons_of_pos (by simpa using hack)]
        obtain ⟨hrest, hflag⟩ := ih node.ackIndex true
        exact ⟨hrest, by rw [hflag]; simp [hack]⟩
      · rw [popAcked, if_neg hack, List.dropWhile_cons_of_neg (by simpa using hack)]
        simp [hack]

/-- Segments that occupy sequence numbers are acknowledged by increasing numbers, all
beyond the first of them. -/
theorem nodesFrom_increasing (first : Nat) {segs : List TCPSegment}
    (hpos : ∀ seg ∈ segs, 1 ≤ seg.lengthInSequenceSpace) :
    (nodesFrom first segs).Pairwise (fun a b => a.ackIndex < b.ackIndex) ∧
      ∀ node ∈ nodesFrom first segs, first < node.ackIndex := by
  induction segs generalizing first with
  | nil => simp [nodesFrom]
  | cons seg rest ih =>
      rw [List.forall_mem_cons] at hpos
      obtain ⟨hsorted, hbeyond⟩ := ih (first + seg.lengthInSequenceSpace) hpos.2
      rw [nodesFrom, List.pairwise_cons, List.forall_mem_cons]
      refine ⟨⟨hbeyond, hsorted⟩, by have := hpos.1; simp only; omega, ?_⟩
      intro node hnode
      have := hbeyond node hnode
      omega

/-- What the loop leaves lies beyond the acknowledged number. -/
theorem lt_of_mem_dropWhile {nodes : List SegNode} {ack : Nat}
    (h : nodes.Pairwise fun a b => a.ackIndex < b.ackIndex) :
    ∀ node ∈ nodes.dropWhile fun node => decide (node.ackIndex ≤ ack), ack < node.ackIndex := by
  induction nodes with
  | nil => simp
  | cons first rest ih =>
      rw [List.pairwise_cons] at h
      by_cases hack : first.ackIndex ≤ ack
      · rw [List.dropWhile_cons_of_pos (by simpa using hack)]
        exact ih h.2
      · rw [List.dropWhile_cons_of_neg (by simpa using hack), List.forall_mem_cons]
        refine ⟨by omega, ?_⟩
        intro node hnode
        have := h.1 node hnode
        omega

variable {s : TCPSender} {whole : List Byte} {firsts : List TCPSegment} {n : Nat} {fin : Bool}

theorem Sent.buffer_increasing (h : Sent s whole firsts n fin) :
    s.segBuffer.Pairwise fun a b => a.ackIndex < b.ackIndex := by
  obtain ⟨done, pending, hsplit, -, hbuf⟩ := h.outstanding
  rw [hbuf]
  refine (nodesFrom_increasing s.curAckIndex fun seg hseg => h.shape.length_pos seg ?_).1
  rw [hsplit]
  exact List.mem_append_right _ hseg

/-- A segment sent by an `Advanced` step is acknowledged beyond what was sent before. -/
theorem Advanced.mem_segBuffer {s' : TCPSender} {new : List TCPSegment} {n' : Nat} {fin' : Bool}
    (hadv : Advanced s s' new) (h : Sent s' whole (firsts ++ new) n' fin') {node : SegNode}
    (hnode : node ∈ s'.segBuffer) : node ∈ s.segBuffer ∨ s.nextSeqno < node.ackIndex := by
  rw [hadv.segBuffer] at hnode
  cases List.mem_append.mp hnode with
  | inl hold => exact Or.inl hold
  | inr hnew =>
      refine Or.inr ((nodesFrom_increasing s.nextSeqno fun seg hseg => ?_).2 node hnew)
      exact h.shape.length_pos seg (List.mem_append_right _ hseg)

/-! ## The buffer under each method -/

/-- Short of an accepted acknowledgment the buffer only grows: the acknowledged number
stays, and what is added lies beyond everything sent before. -/
structure Grows (s s' : TCPSender) : Prop where
  curAckIndex : s'.curAckIndex = s.curAckIndex
  next_le : s.nextSeqno ≤ s'.nextSeqno
  buffer : ∀ node ∈ s'.segBuffer, node ∈ s.segBuffer ∨ s.nextSeqno < node.ackIndex

/-- A step that touches neither the buffer nor the numbers. -/
theorem grows_of_same {s' : TCPSender} (hcur : s'.curAckIndex = s.curAckIndex)
    (hnext : s'.nextSeqno = s.nextSeqno) (hbuf : s'.segBuffer = s.segBuffer) : Grows s s' where
  curAckIndex := hcur
  next_le := hnext.ge
  buffer := by
    intro node hnode
    rw [hbuf] at hnode
    exact Or.inl hnode

theorem Advanced.grows {s' : TCPSender} {new : List TCPSegment} {n' : Nat} {fin' : Bool}
    (hadv : Advanced s s' new) (h : Sent s' whole (firsts ++ new) n' fin') : Grows s s' where
  curAckIndex := hadv.curAckIndex
  next_le := hadv.next_le
  buffer := fun _ hnode => hadv.mem_segBuffer h hnode

theorem Sent.grows_fillWindow (h : Sent s whole firsts n fin) (hedge : EdgeInRange s) :
    Grows s s.fillWindow := by
  have hle := hedge.le
  obtain ⟨new, n', fin', hadv, hsent', -⟩ :=
    h.fillWindow hedge.lt (by omega) (Or.inl hedge.pos)
  exact hadv.grows hsent'

/-- A retransmission takes nothing from the buffer and adds nothing to it. -/
theorem grows_tick (s : TCPSender) (ms : Nat) : Grows s (s.tick ms) := by
  rcases s.tick_cases ms with ⟨-, heq⟩ | ⟨-, -, heq⟩ | ⟨front, rest, -, -, heq⟩
  all_goals
    rw [heq]
    exact grows_of_same rfl rfl rfl

theorem Sent.grows_sendEmptyAck (h : Sent s whole firsts n fin) : Grows s s.sendEmptyAck := by
  rcases s.sendEmptyAck_cases with ⟨hzero, heq⟩ | ⟨-, heq⟩
  · have hsend : s.sendNewSeg s.synSeg = s.afterSending [segment s.isn 0 [] true false] := by
      rw [synSeg_eq, hzero]
      apply sendNewSeg_eq
      rw [hzero]
      simp
    rw [heq, hsend]
    exact (advanced_afterSending s [segment s.isn 0 [] true false]).grows (h.syn hzero)
  · rw [heq]
    exact grows_of_same rfl rfl rfl

/-- An accepted acknowledgment leaves what it does not cover, and adds segments. -/
theorem Sent.ackReceived_buffer (h : Sent s whole firsts n fin) (hedge : EdgeInRange s)
    {ackno : WrappingInt32} {ack : Nat} (windowSize : UInt16)
    (hack : ack = unwrap ackno s.isn s.nextSeqno) (hrej : s.rejects ack = false) :
    (s.ackReceived ackno windowSize).curAckIndex ≤ ack ∧
      s.nextSeqno ≤ (s.ackReceived ackno windowSize).nextSeqno ∧
      ∀ node ∈ (s.ackReceived ackno windowSize).segBuffer,
        (node ∈ s.segBuffer ∧ ack < node.ackIndex) ∨ s.nextSeqno < node.ackIndex := by
  obtain ⟨hcur, hnext⟩ := accepts_iff.mp hrej
  obtain ⟨hwlt, -⟩ := hedge.widened hnext windowSize
  obtain ⟨new, n', fin', hadv, hsent', -⟩ := h.readyToFill_fillWindow hedge windowSize hrej
  have heq := ackReceived_of_accepts windowSize hack hrej hwlt hadv.wdRightEdge
  have hmono := hadv.next_le
  rw [readyToFill_nextSeqno] at hmono
  rw [heq]
  refine ⟨?_, hmono, ?_⟩
  · show (s.readyToFill ack windowSize).fillWindow.curAckIndex ≤ ack
    rw [hadv.curAckIndex]
    exact (h.acknowledge hcur).2.2
  · intro node hnode
    have hmem := hadv.mem_segBuffer hsent' hnode
    rw [readyToFill_nextSeqno] at hmem
    refine hmem.imp_left fun hold => ?_
    -- an old segment is still there because the loop did not reach it
    have hkept : node ∈ s.segBuffer.dropWhile fun node => decide (node.ackIndex ≤ ack) := by
      rw [← (popAcked_eq ack s.curAckIndex false s.segBuffer).1, ← acknowledge_segBuffer]
      exact hold
    exact ⟨(List.dropWhile_sublist _).mem hkept,
      lt_of_mem_dropWhile h.buffer_increasing node hkept⟩

end TCPSender

namespace SenderRun

open TCPSender

/-- The oldest sequence number not acknowledged: the largest number an accepted
acknowledgment has brought. -/
def unacked (h : SenderRun) : Nat :=
  h.acks.foldl (fun number a => max number a.1) 0

/-- The segments sent and not covered by an accepted acknowledgment, oldest first,
each with the number that acknowledges it. -/
def outstanding (h : SenderRun) : List SegNode :=
  (nodesFrom 0 h.firsts).filter fun node => decide (h.unacked < node.ackIndex)

/-- The buffer of the sender and the history of the run say the same. -/
structure Tracked (h : SenderRun) : Prop where
  consistent : h.Consistent
  cur_le : h.sender.curAckIndex ≤ h.unacked
  unacked_le : h.unacked ≤ h.sender.nextSeqno
  beyond : ∀ node ∈ h.sender.segBuffer, h.unacked < node.ackIndex

theorem Tracked.buffer {h : SenderRun} (ht : h.Tracked) : h.sender.segBuffer = h.outstanding := by
  obtain ⟨-, n, fin, hsent⟩ := ht.consistent
  obtain ⟨done, pending, hsplit, hcur, hbuf⟩ := hsent.outstanding
  -- what has left the buffer is covered by the history, and what is in it is not
  have hcovered : (nodesFrom 0 done).filter (fun node => decide (h.unacked < node.ackIndex)) =
      [] := by
    rw [List.filter_eq_nil_iff]
    intro node hnode
    have h1 := nodesFrom_le hnode
    have h2 := ht.cur_le
    rw [decide_eq_true_eq]
    omega
  have hkept : (nodesFrom (span done) pending).filter
      (fun node => decide (h.unacked < node.ackIndex)) = nodesFrom (span done) pending := by
    rw [List.filter_eq_self]
    intro node hnode
    rw [decide_eq_true_eq]
    exact ht.beyond node (by rw [hbuf, hcur]; exact hnode)
  rw [outstanding, hsplit, nodesFrom_append, Nat.zero_add, List.filter_append, hcovered, hkept,
    hbuf, hcur]
  rfl

theorem tracked_start (capacity : Nat) (retxTimeout : UInt16) (isn : WrappingInt32) :
    (start capacity retxTimeout isn).Tracked where
  consistent := consistent_start capacity retxTimeout isn
  cur_le := le_refl 0
  unacked_le := le_refl 0
  beyond := by simp [start, new]

theorem unacked_step (h : SenderRun) (op : SenderOp) :
    (h.step op).unacked = (h.newAcks op).foldl (fun number a => max number a.1) h.unacked := by
  rw [unacked, step, List.foldl_append]
  rfl

/-- An operation that brings no acknowledgment. -/
theorem Consistent.step_grows {h : SenderRun} (hc : h.Consistent) (op : SenderOp)
    (hnone : h.newAcks op = []) : h.sender.Grows (h.step op).sender := by
  obtain ⟨hedge, n, fin, hsent⟩ := hc
  cases op with
  | write data => exact grows_of_same rfl rfl rfl
  | endInput => exact grows_of_same rfl rfl rfl
  | fillWindow => exact hsent.grows_fillWindow hedge
  | ackReceived ackno windowSize =>
      have hrej : h.sender.rejects (unwrap ackno h.sender.isn h.sender.nextSeqno) = true := by
        by_contra haccept
        simp [newAcks, haccept] at hnone
      have hsame : (h.step (.ackReceived ackno windowSize)).sender = h.sender :=
        ackReceived_of_rejects windowSize hrej
      rw [hsame]
      exact grows_of_same rfl rfl rfl
  | tick ms => exact grows_tick h.sender ms
  | sendEmptyAck => exact hsent.grows_sendEmptyAck

theorem Tracked.step {h : SenderRun} (ht : h.Tracked) (op : SenderOp) : (h.step op).Tracked := by
  have hle := ht.unacked_le
  have hcur := ht.cur_le
  cases hacks : h.newAcks op with
  | nil =>
      -- no acknowledgment is accepted; what is added lies beyond everything sent so far
      obtain ⟨hsame, hnext, hnodes⟩ := ht.consistent.step_grows op hacks
      have hun : (h.step op).unacked = h.unacked := by rw [unacked_step, hacks]; rfl
      refine ⟨ht.consistent.step op, by omega, by omega, ?_⟩
      intro node hnode
      cases hnodes node hnode with
      | inl hold => rw [hun]; exact ht.beyond node hold
      | inr hnew => omega
  | cons a rest =>
      cases op with
      | ackReceived ackno windowSize =>
          cases hrej : h.sender.rejects (unwrap ackno h.sender.isn h.sender.nextSeqno) with
          | true => simp [newAcks, hrej] at hacks
          | false =>
              obtain ⟨hedge, n, fin, hsent⟩ := ht.consistent
              obtain ⟨hcur', hnext, hnodes⟩ :=
                hsent.ackReceived_buffer hedge windowSize rfl hrej
              have hbound := (accepts_iff.mp hrej).2
              have hun : (h.step (.ackReceived ackno windowSize)).unacked =
                  max h.unacked (unwrap ackno h.sender.isn h.sender.nextSeqno) := by
                rw [unacked_step]
                simp [newAcks, hrej]
              refine ⟨ht.consistent.step _, ?_, ?_, ?_⟩
              · rw [hun]
                exact le_trans hcur' (le_max_right _ _)
              · rw [hun]
                exact le_trans (max_le hle hbound) hnext
              intro node hnode
              rw [hun, max_lt_iff]
              rcases hnodes node hnode with ⟨hold, hlt⟩ | hnew
              · exact ⟨ht.beyond node hold, hlt⟩
              · omega
      | write data => simp [newAcks] at hacks
      | endInput => simp [newAcks] at hacks
      | fillWindow => simp [newAcks] at hacks
      | tick ms => simp [newAcks] at hacks
      | sendEmptyAck => simp [newAcks] at hacks

end SenderRun
end Sponge

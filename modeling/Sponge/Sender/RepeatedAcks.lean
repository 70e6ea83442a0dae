import Sponge.Sender.FillWindow
import Sponge.Sender.Tiling

/-!
# Repeated and impossible acknowledgments

The same acknowledgment a second time: it is unwrapped near a `next_seqno` that the
first one has moved, its loop finds the covered segments gone, the edge is where it
was, and `fill_window` has left nothing to do.  The first of these needs a bound on
what is in flight.  No right edge is further than a window from the largest number
acknowledged, that number is less than a segment ahead of `cur_ack_index`, and a probe
goes one number beyond the edge; so `next_seqno` never comes near half the sequence
space ahead of an acceptable acknowledgment.
-/

namespace Sponge
namespace TCPSender

variable {s : TCPSender} {whole : List Byte} {firsts : List TCPSegment} {n : Nat} {fin : Bool}

/-! ## What is in flight -/

/-- A number that no outstanding segment has been acknowledged by is less than a
segment ahead of `cur_ack_index`. -/
theorem Sent.le_cur_add (h : Sent s whole firsts n fin) {number : Nat}
    (hle : number ≤ s.nextSeqno) (hbeyond : ∀ node ∈ s.segBuffer, number < node.ackIndex) :
    number ≤ s.curAckIndex + TCPConfig.maxPayloadSize := by
  obtain ⟨done, pending, hsplit, hcur, hbuf⟩ := h.outstanding
  cases pending with
  | nil =>
      -- nothing is outstanding, so everything sent is acknowledged
      have hnext := h.next
      rw [hsplit, List.append_nil, ← hcur] at hnext
      omega
  | cons seg rest =>
      have hfirst := hbeyond ⟨seg, s.curAckIndex + seg.lengthInSequenceSpace⟩
        (by rw [hbuf, nodesFrom]; exact List.mem_cons_self)
      have hlen := (h.shape.length_bounds seg (by rw [hsplit]; simp)).2
      simp only at hfirst
      omega

/-! ## An acknowledgment that has been dealt with -/

/-- The loop stops at once when the number covers no outstanding segment. -/
theorem acknowledge_of_beyond {ack : Nat} (h : ∀ node ∈ s.segBuffer, ack < node.ackIndex) :
    s.acknowledge ack = s := by
  have hpop : popAcked ack s.curAckIndex false s.segBuffer =
      (s.curAckIndex, false, s.segBuffer) := by
    cases hbuf : s.segBuffer with
    | nil => rfl
    | cons node rest =>
        have hnode := h node (by rw [hbuf]; exact List.mem_cons_self)
        rw [popAcked, if_neg (by omega)]
  rw [acknowledge, hpop]
  rfl

/-- A sender that has already answered an acknowledgment: it covers nothing that is
outstanding, its edge is known, and under the edge of the probe the window is full. -/
theorem ackReceived_of_answered {u : TCPSender} {ackno : WrappingInt32} {ack edge : Nat}
    {windowSize : UInt16} (hs : s = { u with wdRightEdge := edge })
    (hack : ack = unwrap ackno s.isn s.nextSeqno) (hrej : s.rejects ack = false)
    (hbeyond : ∀ node ∈ s.segBuffer, ack < node.ackIndex) (hlt : edge < 2 ^ 64)
    (hknown : Word.add 64 ack windowSize.toNat ≤ edge)
    (hprobe : u.wdRightEdge = probeEdge edge windowSize) (hfull : u.fillWindow = u) :
    s.ackReceived ackno windowSize = s := by
  have hedge : s.wdRightEdge = edge := by rw [hs]
  have hmax : max s.wdRightEdge (Word.add 64 ack windowSize.toNat) = edge := by
    rw [hedge]
    exact max_eq_left hknown
  have hready : s.readyToFill ack windowSize = u := by
    rw [readyToFill, acknowledge_of_beyond hbeyond, hmax, ← hprobe, hs]
  have heq := ackReceived_of_accepts windowSize hack hrej (by rw [hmax]; exact hlt)
    (by rw [hready, hfull])
  rw [heq, hready, hfull, hmax, hs]

/-- **The second of two equal acknowledgments changes nothing.** -/
theorem Sent.ackReceived_ackReceived (h : Sent s whole firsts n fin) (hedge : EdgeInRange s)
    (hread : s.stream.totoalRead < 2 ^ 64) (hsyn : s.nextSeqno ≠ 0)
    (hflight : s.nextSeqno ≤ s.curAckIndex + 2 ^ 20) (ackno : WrappingInt32)
    (windowSize : UInt16) :
    (s.ackReceived ackno windowSize).ackReceived ackno windowSize =
      s.ackReceived ackno windowSize := by
  generalize hack : unwrap ackno s.isn s.nextSeqno = ack
  cases hrej : s.rejects ack with
  | true =>
      have hsame : s.ackReceived ackno windowSize = s :=
        ackReceived_of_rejects windowSize (by rw [hack]; exact hrej)
      rw [hsame, hsame]
  | false =>
      obtain ⟨hcur, hnext⟩ := accepts_iff.mp hrej
      obtain ⟨hwlt, hwle⟩ := hedge.widened hnext windowSize
      obtain ⟨hplt, hple, -⟩ := probeEdge_bounds windowSize hwlt hwle
      obtain ⟨new, n', fin', hadv, hsent', -, -, -, hformula⟩ :=
        h.readyToFill_fillWindow hedge windowSize hrej
      obtain ⟨hcur', -, hnodes⟩ := h.ackReceived_buffer hedge windowSize hack.symm hrej
      have hready := h.readyToFill hcur windowSize
      have hfull := hready.fillWindow_fillWindow (by rw [readyToFill_stream]; exact hread)
        (by rw [readyToFill_wdRightEdge]; exact hplt)
        (by rw [readyToFill_wdRightEdge, readyToFill_nextSeqno]; exact hple)
        (by rw [readyToFill_nextSeqno]; exact hsyn)
      have heq := ackReceived_of_accepts windowSize hack.symm hrej hwlt hadv.wdRightEdge
      have hisn := hadv.isn
      have hright := hadv.wdRightEdge
      have hmono := hadv.next_le
      have hlast := hsent'.next_lt
      rw [readyToFill_isn] at hisn
      rw [readyToFill_wdRightEdge] at hright
      rw [readyToFill_nextSeqno] at hmono
      rw [readyToFill_nextSeqno, readyToFill_wdRightEdge] at hformula
      generalize (s.readyToFill ack windowSize).fillWindow = u
        at hfull heq hisn hright hmono hlast hformula
      generalize s.ackReceived ackno windowSize = v at heq hcur' hnodes ⊢
      have hvisn : v.isn = s.isn := by rw [heq]; exact hisn
      have hvnext : v.nextSeqno = u.nextSeqno := by rw [heq]
      -- it is unwrapped to the same number, although `next_seqno` may have moved
      have hwrap : wrap ack s.isn = ackno := by
        rw [← hack]
        exact wrap_unwrap ackno s.isn h.next_lt
      have hagain : ack = unwrap ackno v.isn v.nextSeqno := by
        have hlt := h.next_lt
        rw [hvisn, hvnext, ← hwrap]
        exact (unwrap_wrap_of_near s.isn (by omega) hlast (by omega) (by omega)).symm
      refine ackReceived_of_answered heq hagain ?_ ?_ hwlt (le_max_right _ _) hright hfull
      · rw [accepts_iff, hvnext]
        exact ⟨hcur', le_trans hnext hmono⟩
      · intro node hnode
        rcases hnodes node hnode with ⟨-, hlt⟩ | hlt
        · exact hlt
        · omega

end TCPSender

namespace SenderRun

open TCPSender

/-! ## Every run -/

/-- The edge and the numbers used stay within a window of the largest number
acknowledged, up to the one number of a probe. -/
structure Near (h : SenderRun) : Prop where
  tracked : h.Tracked
  edge_le : h.sender.wdRightEdge ≤ h.unacked + 65535
  next_le : h.sender.nextSeqno ≤ h.unacked + 65536

theorem near_start (capacity : Nat) (retxTimeout : UInt16) (isn : WrappingInt32) :
    (start capacity retxTimeout isn).Near where
  tracked := tracked_start capacity retxTimeout isn
  edge_le := show 1 ≤ 0 + 65535 by decide
  next_le := Nat.zero_le _

theorem Near.step {h : SenderRun} (hn : h.Near) (op : SenderOp) : (h.step op).Near := by
  have hedge := hn.edge_le
  have hnext := hn.next_le
  rcases hn.tracked.consistent.step_numbers op with
    ⟨hnone, -, hright, hused⟩ | ⟨ackno, windowSize, ack, -, -, -, hnew, hright, hused⟩
  · have hun : (h.step op).unacked = h.unacked := by
      rw [unacked_step, hnone]
      rfl
    exact ⟨hn.tracked.step op, by omega, by omega⟩
  · have hun : (h.step op).unacked = max h.unacked ack := by
      rw [unacked_step, hnew]
      rfl
    have hsum := Word.add_le 64 ack windowSize.toNat
    have hwin := windowSize.toNat_lt
    have hprobe : probeEdge (max h.sender.wdRightEdge (Word.add 64 ack windowSize.toNat))
        windowSize ≤ max h.sender.wdRightEdge (Word.add 64 ack windowSize.toNat) + 1 := by
      rw [probeEdge]
      have hone := Word.add_le 64
        (max h.sender.wdRightEdge (Word.add 64 ack windowSize.toNat)) 1
      split_ifs <;> omega
    exact ⟨hn.tracked.step op, by omega, by omega⟩

/-- What is in flight is at most a window, a probe and a segment. -/
theorem Near.next_le_cur_add {h : SenderRun} (hn : h.Near) :
    h.sender.nextSeqno ≤ h.sender.curAckIndex + 65536 + TCPConfig.maxPayloadSize := by
  obtain ⟨-, n, fin, hsent⟩ := hn.tracked.consistent
  have hcur := hsent.le_cur_add hn.tracked.unacked_le hn.tracked.beyond
  have hnext := hn.next_le
  omega

/-- No operation moves `cur_ack_index` or the right edge back. -/
theorem Consistent.step_monotone {h : SenderRun} (hc : h.Consistent) (op : SenderOp) :
    h.sender.curAckIndex ≤ (h.step op).sender.curAckIndex ∧
      h.sender.wdRightEdge ≤ (h.step op).sender.wdRightEdge := by
  rcases hc.step_numbers op with
    ⟨hnone, -, hright, -⟩ | ⟨ackno, windowSize, ack, rfl, hack, hrej, -, hright, -⟩
  · exact ⟨(hc.step_grows op hnone).curAckIndex.ge, hright.ge⟩
  · obtain ⟨hedge, n, fin, hsent⟩ := hc
    obtain ⟨pushed, firsts', n', fin', hstep, -⟩ :=
      hsent.ackReceived_stepped hedge hack windowSize hrej
    refine ⟨hstep.cur_le, ?_⟩
    rw [hright]
    exact le_max_left _ _

theorem Consistent.exec_monotone {h : SenderRun} (hc : h.Consistent) (ops : List SenderOp) :
    h.sender.curAckIndex ≤ (Run.exec SenderRun.step h ops).sender.curAckIndex ∧
      h.sender.wdRightEdge ≤ (Run.exec SenderRun.step h ops).sender.wdRightEdge := by
  induction ops generalizing h with
  | nil => exact ⟨le_rfl, le_rfl⟩
  | cons op rest ih =>
      obtain ⟨hcur, hright⟩ := hc.step_monotone op
      obtain ⟨hcur', hright'⟩ := ih (hc.step op)
      exact ⟨hcur.trans hcur', hright.trans hright'⟩

end SenderRun

/-- **Repeated and impossible acknowledgments are harmless.**  In every reachable state
with the SYN sent: the same acknowledgment a second time changes nothing; one that
unwraps beyond `next_seqno` or below `cur_ack_index` changes nothing; and along every
further run `cur_ack_index` and the right edge never decrease. -/
theorem repeated_acks_harmless {capacity : Nat} {retxTimeout : UInt16} {isn : WrappingInt32}
    {h : SenderRun} (hr : SenderRun.Reached capacity retxTimeout isn h)
    (hsyn : h.sender.nextSeqno ≠ 0) :
    (∀ (ackno : WrappingInt32) (windowSize : UInt16),
      (h.sender.ackReceived ackno windowSize).ackReceived ackno windowSize =
        h.sender.ackReceived ackno windowSize) ∧
    (∀ (ackno : WrappingInt32) (windowSize : UInt16),
      (h.sender.nextSeqno < unwrap ackno h.sender.isn h.sender.nextSeqno ∨
        unwrap ackno h.sender.isn h.sender.nextSeqno < h.sender.curAckIndex) →
      h.sender.ackReceived ackno windowSize = h.sender) ∧
    ∀ ops : List SenderOp,
      h.sender.curAckIndex ≤ (Run.exec SenderRun.step h ops).sender.curAckIndex ∧
        h.sender.wdRightEdge ≤ (Run.exec SenderRun.step h ops).sender.wdRightEdge := by
  have hnear : h.Near := Run.Reach.invariant (P := SenderRun.Near) hr
    (SenderRun.near_start capacity retxTimeout isn) fun _ op _ hn => hn.step op
  have hread := SenderRun.totoalRead_lt hr
  have hflight : h.sender.nextSeqno ≤ h.sender.curAckIndex + 2 ^ 20 := by
    have hbound := hnear.next_le_cur_add
    have hmax : TCPConfig.maxPayloadSize = 1000 := rfl
    omega
  have hmonotone := hr.consistent.exec_monotone
  obtain ⟨hedge, n, fin, hsent⟩ := hr.consistent
  refine ⟨hsent.ackReceived_ackReceived hedge hread hsyn hflight, ?_, hmonotone⟩
  intro ackno windowSize himpossible
  apply TCPSender.ackReceived_of_rejects
  rw [TCPSender.rejects, decide_eq_true_eq]
  exact himpossible

/-- A zero window announced twice is probed once. -/
theorem repeated_acks_harmless_probe :
    ((Run.exec SenderRun.step (SenderRun.start 10 1000 ⟨0⟩)
        [.fillWindow, .write [97, 98, 99]]).sender.ackReceived ⟨1⟩ 0).ackReceived ⟨1⟩ 0 =
      (Run.exec SenderRun.step (SenderRun.start 10 1000 ⟨0⟩)
        [.fillWindow, .write [97, 98, 99]]).sender.ackReceived ⟨1⟩ 0 :=
  (repeated_acks_harmless (Run.Reach.exec .start (by decide +kernel))
    (by decide +kernel)).1 ⟨1⟩ 0

end Sponge

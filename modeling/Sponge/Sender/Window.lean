import Sponge.Sender.Fidelity

/-!
# The sender and the peer's window

A closed window is probed with one byte, by a right edge that `ack_received`
moves for one call of `fill_window`.  Two questions about this mechanism are
settled here for every run.  Does pending data ever wait with nothing in flight?
Only when `fill_window` is called with the edge at the next sequence number, as
`write` and `end_input_stream` call it under a closed window.  Is anything sent
beyond the furthest edge advertised?  Only when a closed window is announced by an
acknowledgment left of the edge already known, with data waiting.
-/

namespace Sponge

open TCPSender

namespace SenderRun

/-! ## Pending data never waits with an idle timer, unless the window is closed -/

/-- The FIN has been sent. -/
def FinSent (h : SenderRun) : Prop :=
  ∃ seg ∈ h.firsts, seg.header.fin = true

instance (h : SenderRun) : Decidable h.FinSent :=
  inferInstanceAs (Decidable (∃ seg ∈ h.firsts, seg.header.fin = true))

/-- The outgoing stream is empty, and its end, if there is one, has been sent. -/
def NothingLeft (h : SenderRun) : Prop :=
  h.sender.stream.bufferEmpty = true ∧ (h.sender.stream.inputEnded = true → h.FinSent)

instance (h : SenderRun) : Decidable h.NothingLeft :=
  inferInstanceAs (Decidable (_ ∧ _))

/-- Something is in flight, so that the timer will act, or nothing is left to send. -/
def NoStall (h : SenderRun) : Prop :=
  0 < h.sender.bytesInFlight ∨ h.NothingLeft

instance (h : SenderRun) : Decidable h.NoStall :=
  inferInstanceAs (Decidable (_ ∨ _))

/-- The sender on which an operation calls `fill_window`, if it does: the sender
itself, or what `ack_received` has made of it by then. -/
def fillCall (h : SenderRun) : SenderOp → Option TCPSender
  | .fillWindow => some h.sender
  | .ackReceived ackno windowSize =>
      let ack := unwrap ackno h.sender.isn h.sender.nextSeqno
      if h.sender.rejects ack then none else some (h.sender.readyToFill ack windowSize)
  | _ => none

/-- What the call of `fill_window` made by an operation does to the numbers. -/
theorem Consistent.fillCall_stepped {h : SenderRun} (hc : h.Consistent) {op : SenderOp}
    {s : TCPSender} (hs : h.fillCall op = some s) :
    ∃ n fin pushed n' fin',
      h.sender.Sent h.accepted h.firsts n fin ∧ s.Sent h.accepted h.firsts n fin ∧
      Stepped h.sender (h.step op).sender (h.step op).accepted h.firsts n fin pushed
        (h.step op).firsts n' fin' ∧
      (h.step op).accepted = h.accepted ∧
      s.stream = h.sender.stream ∧ s.nextSeqno = h.sender.nextSeqno ∧ s.backlog = h.sender.backlog ∧
      (h.step op).sender.curAckIndex = s.curAckIndex ∧
      (h.step op).sender.nextSeqno =
        min (s.nextSeqno + s.backlog) (max s.nextSeqno s.wdRightEdge) := by
  obtain ⟨hedge, n, fin, hsent⟩ := hc
  cases op with
  | fillWindow =>
      have hself : h.sender = s := by simpa [fillCall] using hs
      subst hself
      obtain ⟨pushed, firsts', n', fin', hstep, hcur, -, hnext⟩ := hsent.fillWindow_stepped hedge
      exact ⟨n, fin, pushed, n', fin', hsent, hsent, stepped_of_apply hsent rfl hstep,
        List.append_nil _, rfl, rfl, rfl, hcur, hnext⟩
  | ackReceived ackno windowSize =>
      cases hrej : h.sender.rejects (unwrap ackno h.sender.isn h.sender.nextSeqno) with
      | true => simp [fillCall, hrej] at hs
      | false =>
          have hready : h.sender.readyToFill (unwrap ackno h.sender.isn h.sender.nextSeqno)
              windowSize = s := by
            simpa [fillCall, hrej] using hs
          subst hready
          obtain ⟨pushed, firsts', n', fin', hstep, hcur, -, -, hnext⟩ :=
            hsent.ackReceived_stepped hedge rfl windowSize hrej
          refine ⟨n, fin, pushed, n', fin', hsent, ?_, stepped_of_apply hsent rfl hstep,
            List.append_nil _, ?_, ?_, ?_, hcur, ?_⟩
          · exact hsent.readyToFill (accepts_iff.mp hrej).1 windowSize
          · exact readyToFill_stream _ _ _
          · exact readyToFill_nextSeqno _ _ _
          · exact readyToFill_backlog _ _ _
          · rw [readyToFill_nextSeqno, readyToFill_backlog, readyToFill_wdRightEdge]
            exact hnext
  | write data => simp [fillCall] at hs
  | endInput => simp [fillCall] at hs
  | tick ms => simp [fillCall] at hs
  | sendEmptyAck => simp [fillCall] at hs

/-- Nothing is left exactly if everything accepted has been carried, and the FIN
sent if the input has ended. -/
theorem nothingLeft_iff {h : SenderRun} {n : Nat} {fin : Bool}
    (hsent : h.sender.Sent h.accepted h.firsts n fin) :
    h.NothingLeft ↔ n = h.accepted.length ∧ (h.sender.stream.inputEnd = true → fin = true) := by
  have hsize := hsent.stream.size_eq
  have hle := hsent.shape.le_length
  rw [hsent.buffer, List.length_drop] at hsize
  rw [NothingLeft, FinSent, ← hsent.shape.fin_iff, ByteStream.bufferEmpty, beq_iff_eq, hsize,
    ByteStream.inputEnded]
  constructor
  · rintro ⟨hempty, hended⟩
    exact ⟨by omega, hended⟩
  · rintro ⟨hall, hended⟩
    exact ⟨by omega, hended⟩

end SenderRun

/-- **When the sender can stall.**  In every run, once the SYN is acknowledged, a
call of `fill_window` leaves something in flight or nothing to send exactly if
something was in flight before, or nothing was left, or the window was open and
the sender not yet at its last sequence number. -/
theorem no_stall_iff_window_open {capacity : Nat} {retxTimeout : UInt16} {isn : WrappingInt32}
    {h : SenderRun} (hr : SenderRun.Reached capacity retxTimeout isn h) {op : SenderOp}
    {s : TCPSender} (hs : h.fillCall op = some s) (hsyn : 1 ≤ s.curAckIndex) :
    (h.step op).NoStall ↔
      0 < s.bytesInFlight ∨ h.NothingLeft ∨
        (s.nextSeqno < s.wdRightEdge ∧ s.nextSeqno ≠ s.finAckIndex) := by
  obtain ⟨n, fin, pushed, n', fin', hbefore, hsent, hstep, haccepted, hstream, hnum, hback, hcur,
    hnext⟩ := hr.consistent.fillCall_stepped hs
  have hcurle := hsent.cur_le
  have hn := hsent.next_eq (by omega)
  have hn' := hstep.sent.next_eq (by rw [hnext]; omega)
  have hlen' := hstep.sent.shape.le_length
  have hmono := hstep.carried_le
  have hafter : fin = true → fin' = true := fun hf => (hstep.after_fin hf).1
  rw [SenderRun.NoStall, SenderRun.nothingLeft_iff hstep.sent, SenderRun.nothingLeft_iff hbefore,
    hstep.sent.inFlight, hsent.inFlight, hstep.inputEnd, haccepted, hcur]
  rw [haccepted] at hlen'
  -- what was left before is left after, and what was carried stays carried
  have hkeep : n = h.accepted.length ∧ (h.sender.stream.inputEnd = true → fin = true) →
      n' = h.accepted.length ∧ (h.sender.stream.inputEnd = true → fin' = true) := by
    rintro ⟨hall, hended⟩
    exact ⟨by omega, fun he => hafter (hended he)⟩
  constructor
  · intro hgood
    by_cases hflight : 0 < s.nextSeqno - s.curAckIndex
    · exact Or.inl hflight
    by_cases hsent' : s.nextSeqno < (h.step op).sender.nextSeqno
    · -- something was sent, so there was a backlog and room for it
      refine Or.inr (Or.inr ⟨by omega, ?_⟩)
      intro hdone
      rw [hnext, backlog, if_pos hdone] at hsent'
      omega
    · have hsame : n' = n ∧ fin' = fin := by
        cases fin with
        | true =>
            rw [hafter rfl] at hn' ⊢
            simp only [if_true] at hn hn'
            exact ⟨by omega, rfl⟩
        | false =>
            cases fin' with
            | true =>
                simp only [Bool.false_eq_true, if_true, if_false] at hn hn'
                omega
            | false =>
                simp only [Bool.false_eq_true, if_false] at hn hn'
                exact ⟨by omega, rfl⟩
      rcases hgood with hpos | hnone
      · omega
      · rw [hsame.1, hsame.2] at hnone
        exact Or.inr (Or.inl hnone)
  · rintro (hflight | hnone | ⟨hopen, hmore⟩)
    · exact Or.inl (by omega)
    · exact Or.inr (hkeep hnone)
    · by_cases hwaiting : s.backlog = 0
      · -- the window is open and nothing waits
        rw [backlog, if_neg hmore, if_neg (by omega), hstream] at hwaiting
        have hbuf := congrArg List.length hbefore.buffer
        have hle := hbefore.shape.le_length
        rw [List.length_drop] at hbuf
        refine Or.inr (hkeep ⟨by omega, ?_⟩)
        intro hended
        rw [if_pos hended] at hwaiting
        omega
      · exact Or.inl (by omega)

/-- A byte written under an open window goes out. -/
theorem no_stall_iff_window_open_one_byte :
    ((Run.exec SenderRun.step (SenderRun.start 10 1000 ⟨0⟩)
      [.fillWindow, .ackReceived ⟨1⟩ 1, .write [97]]).step .fillWindow).NoStall :=
  (no_stall_iff_window_open (Run.Reach.exec .start (by decide +kernel)) rfl
    (by decide +kernel)).mpr (by decide +kernel)

/-- A byte written after the peer has closed its window stays in the stream, with
nothing in flight. -/
theorem closed_window_stalls :
    SenderRun.Reached 10 1000 ⟨0⟩ (Run.exec SenderRun.step (SenderRun.start 10 1000 ⟨0⟩)
      [.fillWindow, .ackReceived ⟨1⟩ 0, .write [97]]) ∧
    1 ≤ (Run.exec SenderRun.step (SenderRun.start 10 1000 ⟨0⟩)
      [.fillWindow, .ackReceived ⟨1⟩ 0, .write [97]]).sender.curAckIndex ∧
    ¬ ((Run.exec SenderRun.step (SenderRun.start 10 1000 ⟨0⟩)
      [.fillWindow, .ackReceived ⟨1⟩ 0, .write [97]]).step .fillWindow).NoStall :=
  ⟨Run.Reach.exec .start (by decide +kernel), by decide +kernel, by decide +kernel⟩

namespace SenderRun

/-! ## Nothing is sent beyond the furthest edge advertised, apart from probes -/

/-- The furthest right edge advertised by the accepted acknowledgments, a closed
window counting as one byte; `1` for the SYN. -/
def furthest (acks : List (Nat × UInt16)) : Nat :=
  acks.foldl (fun edge a => max edge (a.1 + max a.2.toNat 1)) 1

@[simp] theorem furthest_append_singleton (acks : List (Nat × UInt16)) (a : Nat × UInt16) :
    furthest (acks ++ [a]) = max (furthest acks) (a.1 + max a.2.toNat 1) := by
  simp [furthest]

def RespectsWindow (h : SenderRun) : Prop :=
  h.sender.nextSeqnoAbsolute ≤ furthest h.acks

instance (h : SenderRun) : Decidable h.RespectsWindow :=
  inferInstanceAs (Decidable (_ ≤ _))

/-- An accepted acknowledgment with a closed window does not lie left of the edge
the sender goes by; or that edge is not the furthest advertised, or at the end of
the sequence space; or all that waits fits below the furthest edge. -/
def ProbeInWindow (h : SenderRun) : SenderOp → Prop
  | .ackReceived ackno windowSize =>
      let ack := unwrap ackno h.sender.isn h.sender.nextSeqno
      windowSize = 0 → h.sender.rejects ack = false →
        h.sender.wdRightEdge ≤ ack ∨ h.sender.wdRightEdge < furthest h.acks ∨
          h.sender.wdRightEdge + 1 = 2 ^ 64 ∨
          h.sender.nextSeqno + h.sender.backlog ≤ furthest h.acks
  | _ => True

instance (h : SenderRun) : ∀ op, Decidable (h.ProbeInWindow op)
  | .ackReceived _ _ => inferInstanceAs (Decidable (_ → _))
  | .write _ => isTrue trivial
  | .endInput => isTrue trivial
  | .fillWindow => isTrue trivial
  | .tick _ => isTrue trivial
  | .sendEmptyAck => isTrue trivial

/-- The edge the sender goes by and the numbers it has used stay within the
furthest edge advertised. -/
structure WithinWindow (h : SenderRun) : Prop where
  consistent : h.Consistent
  one_le : 1 ≤ furthest h.acks
  edge_le : h.sender.wdRightEdge ≤ furthest h.acks
  next_le : h.RespectsWindow

theorem withinWindow_start (capacity : Nat) (retxTimeout : UInt16) (isn : WrappingInt32) :
    WithinWindow (start capacity retxTimeout isn) where
  consistent := consistent_start capacity retxTimeout isn
  one_le := le_refl 1
  edge_le := le_refl 1
  next_le := Nat.zero_le 1

/-- What an operation does to the edge and to the next sequence number: nothing
that the known edge does not allow, unless it is an accepted acknowledgment. -/
theorem Consistent.step_numbers {h : SenderRun} (hc : h.Consistent) (op : SenderOp) :
    (h.newAcks op = [] ∧ h.ProbeInWindow op ∧
      (h.step op).sender.wdRightEdge = h.sender.wdRightEdge ∧
      (h.step op).sender.nextSeqno ≤ max 1 (max h.sender.nextSeqno h.sender.wdRightEdge)) ∨
    ∃ ackno windowSize ack, op = .ackReceived ackno windowSize ∧
      ack = unwrap ackno h.sender.isn h.sender.nextSeqno ∧ h.sender.rejects ack = false ∧
      h.newAcks op = [(ack, windowSize)] ∧
      (h.step op).sender.wdRightEdge =
        max h.sender.wdRightEdge (Word.add 64 ack windowSize.toNat) ∧
      (h.step op).sender.nextSeqno =
        min (h.sender.nextSeqno + h.sender.backlog)
          (max h.sender.nextSeqno
            (probeEdge (max h.sender.wdRightEdge (Word.add 64 ack windowSize.toNat))
              windowSize)) := by
  obtain ⟨hedge, n, fin, hsent⟩ := hc
  cases op with
  | write data =>
      exact Or.inl ⟨rfl, trivial, rfl, le_trans (le_max_left _ _) (le_max_right _ _)⟩
  | endInput =>
      exact Or.inl ⟨rfl, trivial, rfl, le_trans (le_max_left _ _) (le_max_right _ _)⟩
  | fillWindow =>
      obtain ⟨-, -, -, -, -, -, hright, hnext⟩ := hsent.fillWindow_stepped hedge
      refine Or.inl ⟨rfl, trivial, hright, ?_⟩
      exact le_trans hnext.le (le_trans (min_le_right _ _) (le_max_right _ _))
  | tick ms =>
      obtain ⟨-, -, -, hright, hnext⟩ := hsent.tick_stepped hedge ms
      refine Or.inl ⟨rfl, trivial, hright, ?_⟩
      exact le_trans hnext.le (le_trans (le_max_left _ _) (le_max_right _ _))
  | sendEmptyAck =>
      obtain ⟨-, -, -, -, -, -, hright, hnext⟩ := hsent.sendEmptyAck_stepped hedge
      refine Or.inl ⟨rfl, trivial, hright, ?_⟩
      refine le_trans hnext.le ?_
      omega
  | ackReceived ackno windowSize =>
      cases hrej : h.sender.rejects (unwrap ackno h.sender.isn h.sender.nextSeqno) with
      | true =>
          have hsame : (h.step (.ackReceived ackno windowSize)).sender = h.sender :=
            ackReceived_of_rejects windowSize hrej
          refine Or.inl ⟨by simp [newAcks, hrej], ?_, by rw [hsame], by rw [hsame]; omega⟩
          intro _ hacc
          rw [hrej] at hacc
          exact absurd hacc (by simp)
      | false =>
          obtain ⟨-, -, -, -, -, -, -, hright, hnext⟩ :=
            hsent.ackReceived_stepped hedge rfl windowSize hrej
          exact Or.inr ⟨ackno, windowSize, _, rfl, rfl, hrej, by simp [newAcks, hrej],
            hright, hnext⟩

/-- An accepted acknowledgment is answered within the furthest edge advertised,
itself included, exactly under the condition on probes. -/
private theorem probe_iff {edge next waiting known ack : Nat} {windowSize : UInt16}
    (hack : ack < 2 ^ 64) (hedge : edge < 2 ^ 64) (hknown : edge ≤ known) (hnext : next ≤ known) :
    min (next + waiting)
        (max next (probeEdge (max edge (Word.add 64 ack windowSize.toNat)) windowSize)) ≤
      max known (ack + max windowSize.toNat 1) ↔
    (windowSize = 0 → edge ≤ ack ∨ edge < known ∨ edge + 1 = 2 ^ 64 ∨
      next + waiting ≤ known) := by
  by_cases hzero : windowSize = 0
  · subst hzero
    have hsame : Word.add 64 ack (0 : UInt16).toNat = ack := Word.add_zero hack
    have hone : max (0 : UInt16).toNat 1 = 1 := rfl
    have hprobe : probeEdge (max edge ack) 0 = Word.add 64 (max edge ack) 1 := if_pos rfl
    have hle := Word.add_le 64 (max edge ack) 1
    rw [hsame, hone, hprobe]
    constructor
    · intro hwithin _
      by_contra hbad
      have hfits : Word.add 64 (max edge ack) 1 = max edge ack + 1 :=
        Word.add_of_lt (by omega)
      omega
    · intro hcond
      rcases hcond rfl with hleft | hless | hlast | hfits
      · omega
      · omega
      · by_cases hright : edge ≤ ack
        · omega
        -- the probe past the last sequence number wraps, and sends nothing
        · have hwrap : Word.add 64 (max edge ack) 1 = 0 := Word.add_of_eq (by omega)
          omega
      · omega
  · have hprobe : probeEdge (max edge (Word.add 64 ack windowSize.toNat)) windowSize =
        max edge (Word.add 64 ack windowSize.toNat) := if_neg hzero
    have hle := Word.add_le 64 ack windowSize.toNat
    rw [hprobe]
    constructor
    · intro _ h0
      exact absurd h0 hzero
    · intro _
      omega

theorem WithinWindow.respects_iff {h : SenderRun} (hw : h.WithinWindow) (op : SenderOp) :
    (h.step op).RespectsWindow ↔ h.ProbeInWindow op := by
  have hone := hw.one_le
  have hedge := hw.edge_le
  have hnext := hw.next_le
  rw [RespectsWindow, nextSeqnoAbsolute] at hnext ⊢
  have hacks : (h.step op).acks = h.acks ++ h.newAcks op := rfl
  rcases hw.consistent.step_numbers op with
    ⟨hnone, hprobe, -, hle⟩ | ⟨ackno, windowSize, ack, rfl, hack, hrej, hnew, -, hnum⟩
  · rw [hacks, hnone, List.append_nil]
    exact iff_of_true (by omega) hprobe
  · have hlt : ack < 2 ^ 64 := by
      rw [hack]
      exact unwrap_lt _ _ _
    rw [hacks, hnew, furthest_append_singleton, hnum,
      probe_iff hlt hw.consistent.1.lt hedge hnext, ProbeInWindow]
    simp only [← hack, hrej, forall_const]

theorem WithinWindow.step {h : SenderRun} (hw : h.WithinWindow) {op : SenderOp}
    (hop : h.ProbeInWindow op) : (h.step op).WithinWindow := by
  have hone := hw.one_le
  have hedge := hw.edge_le
  have hacks : (h.step op).acks = h.acks ++ h.newAcks op := rfl
  have hbounds : 1 ≤ furthest (h.step op).acks ∧
      (h.step op).sender.wdRightEdge ≤ furthest (h.step op).acks := by
    rcases hw.consistent.step_numbers op with
      ⟨hnone, -, hsame, -⟩ | ⟨ackno, windowSize, ack, -, -, -, hnew, hright, -⟩
    · rw [hacks, hnone, List.append_nil, hsame]
      exact ⟨hone, hedge⟩
    · have hle := Word.add_le 64 ack windowSize.toNat
      rw [hacks, hnew, furthest_append_singleton, hright]
      dsimp only
      omega
  exact ⟨hw.consistent.step op, hbounds.1, hbounds.2, (hw.respects_iff op).mpr hop⟩

end SenderRun

/-- **When the peer's window is respected.**  In every run whose closed-window
acknowledgments meet the condition on probes, nothing is sent beyond the furthest
edge advertised; and each next operation keeps to it exactly if it meets the
condition. -/
theorem window_respected_iff_probe_in_window {capacity : Nat} {retxTimeout : UInt16}
    {isn : WrappingInt32} {h : SenderRun}
    (hr : Run.Reach SenderRun.step SenderRun.ProbeInWindow
      (SenderRun.start capacity retxTimeout isn) h) :
    h.RespectsWindow ∧ ∀ op, (h.step op).RespectsWindow ↔ h.ProbeInWindow op := by
  have hw : h.WithinWindow := Run.Reach.invariant (P := SenderRun.WithinWindow) hr
    (SenderRun.withinWindow_start capacity retxTimeout isn) fun _ _ hop hin => hin.step hop
  exact ⟨hw.next_le, hw.respects_iff⟩

/-- A closed window at the edge is probed with one byte, as it should be. -/
theorem window_respected_at_closed_edge :
    (Run.exec SenderRun.step (SenderRun.start 10 1000 ⟨0⟩)
      [.fillWindow, .ackReceived ⟨1⟩ 3, .write [97, 98, 99, 100], .fillWindow,
        .ackReceived ⟨4⟩ 0]).RespectsWindow :=
  (window_respected_iff_probe_in_window (Run.Reach.exec .start (by decide +kernel))).1

/-- A window that closes left of its advertised edge is overrun by one byte. -/
theorem closed_window_overrun :
    SenderRun.Reached 10 1000 ⟨0⟩ (Run.exec SenderRun.step (SenderRun.start 10 1000 ⟨0⟩)
      [.fillWindow, .ackReceived ⟨1⟩ 3, .write [97, 98, 99, 100, 101], .fillWindow,
        .ackReceived ⟨1⟩ 0]) ∧
    ¬ (Run.exec SenderRun.step (SenderRun.start 10 1000 ⟨0⟩)
      [.fillWindow, .ackReceived ⟨1⟩ 3, .write [97, 98, 99, 100, 101], .fillWindow,
        .ackReceived ⟨1⟩ 0]).RespectsWindow :=
  ⟨Run.Reach.exec .start (by decide +kernel), by decide +kernel⟩

end Sponge

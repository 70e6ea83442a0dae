import Sponge.Sender.Invariant

/-!
# What the methods of the sender touch

Facts about every state of a sender, reachable or not.  Sending appends to the
outbound queue and to the retransmission buffer and leaves the timer, the back-off
and the window's edge alone.  `Idle` says when `fill_window` sends nothing.
-/

namespace Sponge
namespace TCPSender

/-- `s'` is `s` after `new` has been sent for the first time. -/
structure Sends (s s' : TCPSender) (new : List TCPSegment) : Prop where
  segmentsOut : s'.segmentsOut = s.segmentsOut ++ new
  isn : s'.isn = s.isn
  initial : s'.initialRetransmissionTimeout = s.initialRetransmissionTimeout
  curAckIndex : s'.curAckIndex = s.curAckIndex
  wdRightEdge : s'.wdRightEdge = s.wdRightEdge
  retransNum : s'.retransNum = s.retransNum
  rto : s'.rto = s.rto
  timer : s'.timer = s.timer
  segBuffer : ∃ nodes, s'.segBuffer = s.segBuffer ++ nodes ∧ nodes.map SegNode.seg = new
  valid : s.stream.Valid → s'.stream.Valid
  /-- a sender never resets its peer -/
  rst : ∀ seg ∈ new, seg.header.rst = false

namespace Sends

variable {s s' s'' : TCPSender} {new new' : List TCPSegment}

theorem refl (s : TCPSender) : Sends s s [] where
  segmentsOut := by simp
  isn := rfl
  initial := rfl
  curAckIndex := rfl
  wdRightEdge := rfl
  retransNum := rfl
  rto := rfl
  timer := rfl
  segBuffer := ⟨[], by simp, rfl⟩
  valid := id
  rst := by simp

theorem trans (h : Sends s s' new) (h' : Sends s' s'' new') : Sends s s'' (new ++ new') where
  segmentsOut := by rw [h'.segmentsOut, h.segmentsOut, List.append_assoc]
  isn := h'.isn.trans h.isn
  initial := h'.initial.trans h.initial
  curAckIndex := h'.curAckIndex.trans h.curAckIndex
  wdRightEdge := h'.wdRightEdge.trans h.wdRightEdge
  retransNum := h'.retransNum.trans h.retransNum
  rto := h'.rto.trans h.rto
  timer := h'.timer.trans h.timer
  segBuffer := by
    obtain ⟨nodes, heq, hnodes⟩ := h.segBuffer
    obtain ⟨nodes', heq', hnodes'⟩ := h'.segBuffer
    exact ⟨nodes ++ nodes', by rw [heq', heq, List.append_assoc], by simp [hnodes, hnodes']⟩
  valid := fun hv => h'.valid (h.valid hv)
  rst := by
    intro seg hseg
    cases List.mem_append.mp hseg with
    | inl hfirst => exact h.rst seg hfirst
    | inr hsecond => exact h'.rst seg hsecond

theorem sendNewSeg (s : TCPSender) (seg : TCPSegment) (hrst : seg.header.rst = false) :
    Sends s (s.sendNewSeg seg) [seg] where
  segmentsOut := rfl
  isn := rfl
  initial := rfl
  curAckIndex := rfl
  wdRightEdge := rfl
  retransNum := rfl
  rto := rfl
  timer := rfl
  segBuffer := ⟨_, rfl, rfl⟩
  valid := id
  rst := by simpa using hrst

end Sends

/-- The loop over full segments sends something or leaves the data as it is. -/
theorem exists_sends_sendFull (fuel : Nat) (s : TCPSender) (data : List Byte) :
    ∃ new, Sends s (sendFull fuel s data).1 new ∧
      (new = [] → (sendFull fuel s data).2 = data) := by
  induction fuel generalizing s data with
  | zero => exact ⟨[], .refl s, fun _ => rfl⟩
  | succ fuel ih =>
      rw [sendFull]
      split_ifs with hfull
      · obtain ⟨new, hnew, -⟩ := ih
          (s.sendNewSeg { s.getInitSeg with payload := data.take TCPConfig.maxPayloadSize })
          (data.drop TCPConfig.maxPayloadSize)
        exact ⟨_, (Sends.sendNewSeg s _ rfl).trans hnew, by simp⟩
      · exact ⟨[], .refl s, fun _ => rfl⟩

theorem exists_sends_sendData (s : TCPSender) (data : List Byte) (fin : Bool) :
    ∃ new, Sends s (s.sendData data fin) new ∧ (new = [] ↔ data = [] ∧ fin = false) := by
  obtain ⟨new, hnew, hnil⟩ := exists_sends_sendFull data.length s data
  -- without data the loop is not entered
  have hempty : data = [] → sendFull data.length s data = (s, []) := by
    rintro rfl
    rfl
  unfold sendData
  dsimp only
  generalize sendFull data.length s data = result at hnew hnil hempty ⊢
  split_ifs with hlast hfin
  · have hsent := hnew.trans (Sends.sendNewSeg result.1
      { header := { result.1.getInitSeg.header with fin := fin }, payload := result.2 } rfl)
    -- only the recorded end of the stream is new
    refine ⟨_, { hsent with }, ?_⟩
    simp [hfin]
  · refine ⟨_, hnew.trans (Sends.sendNewSeg result.1 _ rfl), ?_⟩
    have hne : result.2 ≠ [] := hlast.resolve_right hfin
    have hdata : data ≠ [] := by
      intro hdata
      rw [hempty hdata] at hne
      contradiction
    simp [hdata]
  · push Not at hlast
    have hfin : fin = false := by simpa using hlast.2
    refine ⟨new, hnew, ?_⟩
    constructor
    · intro hnew
      rw [hnil hnew] at hlast
      exact ⟨hlast.1, hfin⟩
    · rintro ⟨hdata, -⟩
      have hout := hnew.segmentsOut
      rw [hempty hdata] at hout
      exact List.self_eq_append_right.mp hout

/-- `fill_window` has nothing to send: the FIN has been sent, or the SYN has and
there is no room, or neither a byte nor the end of the stream is waiting. -/
def Idle (s : TCPSender) : Prop :=
  s.nextSeqno = s.finAckIndex ∨
    (s.nextSeqno ≠ 0 ∧ (s.fillSize = 0 ∨ (s.stream.buffer = [] ∧ s.stream.inputEnd = false)))

instance (s : TCPSender) : Decidable s.Idle :=
  inferInstanceAs (Decidable (_ ∨ _))

theorem exists_sends_fillWindow {s : TCPSender} (hvalid : s.stream.Valid) :
    ∃ new, Sends s s.fillWindow new ∧ (new = [] ↔ s.Idle) := by
  rw [fillWindow]
  by_cases hdone : s.nextSeqno = s.finAckIndex
  · rw [if_pos hdone]
    exact ⟨[], .refl s, by simp [Idle, hdone]⟩
  by_cases hsyn : s.nextSeqno = 0
  · rw [if_neg hdone, if_pos hsyn]
    refine ⟨_, .sendNewSeg s s.synSeg rfl, ?_⟩
    have hbusy : ¬s.Idle := fun hidle => hidle.elim hdone fun h => h.1 hsyn
    simp [hbusy]
  rw [if_neg hdone, if_neg hsyn]
  dsimp only
  have hread : Sends s { s with stream := (s.stream.read s.fillSize).1 } [] :=
    { Sends.refl s with valid := fun hv => hv.read s.fillSize }
  obtain ⟨new, hnew, hnil⟩ := exists_sends_sendData
    { s with stream := (s.stream.read s.fillSize).1 } (s.stream.read s.fillSize).2
    ((s.stream.read s.fillSize).1.eof && decide ((s.stream.read s.fillSize).2.length < s.fillSize))
  refine ⟨new, hread.trans hnew, hnil.trans ?_⟩
  rw [ByteStream.read_bytes _ _ hvalid, ByteStream.eof, ByteStream.read_inputEnd,
    ByteStream.read_size, hvalid.size_eq]
  simp only [Idle, hdone, hsyn, false_or, ne_eq, not_false_eq_true, true_and]
  by_cases hroom : s.fillSize = 0
  · simp [hroom]
  · have hpos : 0 < s.fillSize := Nat.pos_of_ne_zero hroom
    simp only [hroom, List.take_eq_nil_iff, false_or]
    constructor
    · rintro ⟨hbuf, hfin⟩
      simp [hbuf, hpos] at hfin
      exact ⟨hbuf, hfin⟩
    · rintro ⟨hbuf, hend⟩
      exact ⟨hbuf, by simp [hend]⟩

/-- With nothing to send, `fill_window` changes nothing at all. -/
theorem fillWindow_of_idle {s : TCPSender} (hvalid : s.stream.Valid)
    (hread : s.stream.totoalRead < 2 ^ 64) (hidle : s.Idle) : s.fillWindow = s := by
  by_cases hdone : s.nextSeqno = s.finAckIndex
  · exact fillWindow_done hdone
  obtain ⟨hsyn, hquiet⟩ := hidle.resolve_left hdone
  have hnone : min s.stream.size s.fillSize = 0 := by
    rcases hquiet with hroom | ⟨hbuf, -⟩
    · omega
    · rw [hvalid.size_eq, hbuf, List.length_nil, Nat.zero_min]
  have hempty : s.stream.read s.fillSize = (s.stream, []) := by
    rw [ByteStream.read]
    simp only [hnone, Word.add_zero hread]
    rfl
  have hflag : (s.stream.eof && decide (([] : List Byte).length < s.fillSize)) = false := by
    rcases hquiet with hroom | ⟨-, hend⟩
    · rw [hroom]
      exact Bool.and_false _
    · rw [ByteStream.eof, hend]
      rfl
  rw [fillWindow, if_neg hdone, if_neg hsyn]
  simp only [hempty, hflag]
  rfl

@[simp] theorem sendFull_stream (fuel : Nat) (s : TCPSender) (data : List Byte) :
    (sendFull fuel s data).1.stream = s.stream := by
  induction fuel generalizing s data with
  | zero => rfl
  | succ fuel ih =>
      rw [sendFull]
      split_ifs
      · rw [ih]
        rfl
      · rfl

@[simp] theorem sendData_stream (s : TCPSender) (data : List Byte) (fin : Bool) :
    (s.sendData data fin).stream = s.stream := by
  have hloop := sendFull_stream data.length s data
  unfold sendData
  dsimp only
  split_ifs
  · exact hloop
  · exact hloop
  · exact hloop

@[simp] theorem fillWindow_capcity (s : TCPSender) :
    s.fillWindow.stream.capcity = s.stream.capcity := by
  rw [fillWindow]
  split_ifs
  · rfl
  · rfl
  · rw [sendData_stream, ByteStream.read_capcity]

@[simp] theorem fillWindow_totoalWrite (s : TCPSender) :
    s.fillWindow.stream.totoalWrite = s.stream.totoalWrite := by
  rw [fillWindow]
  split_ifs
  · rfl
  · rfl
  · rw [sendData_stream, ByteStream.read_totoalWrite]

/-- The count of the bytes read stays a 64-bit number. -/
theorem fillWindow_totoalRead_lt {s : TCPSender} (h : s.stream.totoalRead < 2 ^ 64) :
    s.fillWindow.stream.totoalRead < 2 ^ 64 := by
  rw [fillWindow]
  split_ifs
  · exact h
  · exact h
  · rw [sendData_stream]
    exact Word.add_lt _ _ _

section KeepsStream

variable {P : ByteStream → Prop} (hfill : ∀ t : TCPSender, P t.stream → P t.fillWindow.stream)

include hfill

/-- The edge is moved and put back around `fill_window`, the stream is not. -/
private theorem probed_stream {s : TCPSender} (h : P s.stream) (windowSize : UInt16) :
    P (if windowSize = 0 then
      let t := fillWindow { s with wdRightEdge := Word.add 64 s.wdRightEdge 1 }
      { t with wdRightEdge := Word.sub 64 t.wdRightEdge 1 }
    else s.fillWindow).stream := by
  by_cases hzero : windowSize = 0
  · have hprobe := hfill { s with wdRightEdge := Word.add 64 s.wdRightEdge 1 } h
    rw [if_pos hzero]
    generalize fillWindow { s with wdRightEdge := Word.add 64 s.wdRightEdge 1 } = t at hprobe ⊢
    exact hprobe
  · rw [if_neg hzero]
    exact hfill s h

/-- What `fill_window` keeps of the stream, an acknowledgment keeps. -/
theorem ackReceived_stream {s : TCPSender} (h : P s.stream) (ackno : WrappingInt32)
    (windowSize : UInt16) : P (s.ackReceived ackno windowSize).stream := by
  by_cases hrej : s.rejects (unwrap ackno s.isn s.nextSeqno) = true
  · rw [ackReceived_of_rejects windowSize hrej]
    exact h
  · rw [ackReceived, if_neg hrej]
    generalize unwrap ackno s.isn s.nextSeqno = ack
    have hstream : P ((s.acknowledge ack).widen ack windowSize).stream := by
      rw [widen_eq]
      exact (acknowledge_stream s ack).symm ▸ h
    generalize (s.acknowledge ack).widen ack windowSize = t at hstream ⊢
    exact probed_stream hfill hstream windowSize

end KeepsStream

/-- `send_empty_ack` always sends one segment; only a SYN is kept for retransmission. -/
theorem sendEmptyAck_cases (s : TCPSender) :
    (s.nextSeqno = 0 ∧ s.sendEmptyAck = s.sendNewSeg s.synSeg) ∨
      (s.nextSeqno ≠ 0 ∧
        s.sendEmptyAck = { s with segmentsOut := s.segmentsOut ++ [s.getInitSeg] }) := by
  by_cases hsyn : s.nextSeqno = 0
  · exact Or.inl ⟨hsyn, by rw [sendEmptyAck, if_pos hsyn]⟩
  · exact Or.inr ⟨hsyn, by rw [sendEmptyAck, if_neg hsyn]⟩

/-- An accepted acknowledgment is `fill_window` on the sender made ready for it, and
the edge put back. -/
theorem exists_ackReceived_of_accepts {s : TCPSender} {ackno : WrappingInt32} {ack : Nat}
    (windowSize : UInt16) (hvalid : s.stream.Valid)
    (hlt : max s.wdRightEdge (Word.add 64 ack windowSize.toNat) < 2 ^ 64)
    (hack : ack = unwrap ackno s.isn s.nextSeqno) (hrej : s.rejects ack = false) :
    ∃ t new, Sends (s.readyToFill ack windowSize) t new ∧
      s.ackReceived ackno windowSize =
        { t with wdRightEdge := max s.wdRightEdge (Word.add 64 ack windowSize.toNat) } ∧
      (new = [] ↔ (s.readyToFill ack windowSize).Idle) := by
  obtain ⟨new, hnew, hidle⟩ := exists_sends_fillWindow (s := s.readyToFill ack windowSize)
    (by rw [readyToFill_stream]; exact hvalid)
  exact ⟨_, new, hnew, ackReceived_of_accepts windowSize hack hrej hlt hnew.wdRightEdge, hidle⟩

/-- The timer of a sender with outstanding segments runs out within `ms`. -/
def TimesOut (s : TCPSender) (ms : Nat) : Prop :=
  s.segBuffer ≠ [] ∧ (s.timer.tick ms).timeOut s.rto = true

instance (s : TCPSender) (ms : Nat) : Decidable (s.TimesOut ms) :=
  inferInstanceAs (Decidable (_ ∧ _))

/-- What a tick does: nothing without outstanding segments, advance the clock before
the timeout, and retransmit the oldest segment at it. -/
theorem tick_cases (s : TCPSender) (ms : Nat) :
    (s.segBuffer = [] ∧ s.tick ms = s) ∨
      (s.segBuffer ≠ [] ∧ ¬s.TimesOut ms ∧ s.tick ms = { s with timer := s.timer.tick ms }) ∨
      ∃ front rest, s.segBuffer = front :: rest ∧ s.TimesOut ms ∧
        s.tick ms =
          { s with
            segmentsOut := s.segmentsOut ++ [front.seg]
            retransNum := if Word.sub 64 s.wdRightEdge s.curAckIndex ≠ 0 then
              Word.add 64 s.retransNum 1 else s.retransNum
            rto := if Word.sub 64 s.wdRightEdge s.curAckIndex ≠ 0 then s.rto * 2 % 2 ^ 64
              else s.rto
            timer := (s.timer.tick ms).flash } := by
  cases hbuf : s.segBuffer with
  | nil =>
      refine Or.inl ⟨rfl, ?_⟩
      rw [tick]
      simp only [hbuf]
  | cons front rest =>
      have hne : s.segBuffer ≠ [] := by simp [hbuf]
      cases htime : (s.timer.tick ms).timeOut s.rto with
      | false =>
          refine Or.inr (Or.inl ⟨by simp, by simp [TimesOut, htime], ?_⟩)
          rw [tick]
          simp only [hbuf, htime, if_true]
      | true =>
          refine Or.inr (Or.inr ⟨front, rest, rfl, ⟨hne, htime⟩, ?_⟩)
          rw [tick]
          simp only [hbuf, htime, Bool.true_eq_false, if_false]
          by_cases hwin : Word.sub 64 s.wdRightEdge s.curAckIndex = 0
          · simp [hwin]
          · simp [hwin]

theorem tick_of_nil {s : TCPSender} (h : s.segBuffer = []) (ms : Nat) : s.tick ms = s := by
  rcases s.tick_cases ms with ⟨-, heq⟩ | ⟨hne, -, -⟩ | ⟨front, rest, hbuf, -, -⟩
  · exact heq
  · exact absurd h hne
  · rw [h] at hbuf
    contradiction

end TCPSender
end Sponge

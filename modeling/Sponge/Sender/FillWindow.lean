import Sponge.Sender.Effects
import Sponge.Sender.Window
import Sponge.Stream.Fifo

/-!
# One call of `fill_window`

Between the SYN and the FIN, `fill_window` does one window's worth of work.  With
room for some sequence numbers it takes as many bytes from the stream as there are,
up to the room, cuts them into full segments and a shorter last one, and adds the
FIN if the stream is at its end and a number is left for it.  `WindowCut` says what
the cut is without following the loop of the source, which stops one segment early
at an exact multiple of `MAX_PAYLOAD_SIZE`.  After the call there is no room, or
nothing waits, so that a second call finds nothing to do.
-/

namespace Sponge

namespace ByteStream

/-- Only what is there can be removed. -/
theorem popOutput_min (s : ByteStream) (len : Nat) :
    s.popOutput (min s.size len) = s.popOutput len := by
  have hmin : min s.size (min s.size len) = min s.size len := by omega
  rw [popOutput, popOutput, hmin]

theorem popOutput_zero {s : ByteStream} (h : s.totoalRead < 2 ^ 64) : s.popOutput 0 = s := by
  rw [popOutput]
  simp only [Nat.min_zero, Word.add_zero h]
  rfl

end ByteStream

namespace TCPSender

/-! ## The cut -/

/-- `segs` carry `data` from the number `first` on, in consecutive segments that are
all full except the last one; that one carries the FIN if there is one, and is empty
only if there is nothing but the FIN. -/
structure WindowCut (isn : WrappingInt32) (first : Nat) (data : List Byte) (fin : Bool)
    (segs : List TCPSegment) : Prop where
  payloads : (segs.map TCPSegment.payload).flatten = data
  /-- each segment starts where the one before it ends, and has no other flag than FIN -/
  placed : ∀ before seg after, segs = before ++ seg :: after →
    seg = segment isn (first + span before) seg.payload false seg.header.fin
  full : ∀ seg ∈ segs.dropLast,
    seg.payload.length = TCPConfig.maxPayloadSize ∧ seg.header.fin = false
  last : ∀ seg, segs.getLast? = some seg →
    seg.header.fin = fin ∧ seg.payload.length ≤ TCPConfig.maxPayloadSize ∧
      (1 ≤ seg.payload.length ∨ (data = [] ∧ fin = true))
  nil_iff : segs = [] ↔ data = [] ∧ fin = false

section Cut

variable {isn : WrappingInt32} {first : Nat} {data : List Byte} {fin : Bool}

/-- What fits one segment, or nothing. -/
theorem windowCut_last (hmax : data.length ≤ TCPConfig.maxPayloadSize) :
    WindowCut isn first data fin
      (if data ≠ [] ∨ fin = true then [segment isn first data false fin] else []) := by
  by_cases hsome : data ≠ [] ∨ fin = true
  · rw [if_pos hsome]
    refine ⟨List.append_nil data, ?_, by simp, ?_, ?_⟩
    · intro before seg after hsplit
      obtain ⟨rfl, rfl, -⟩ : before = [] ∧ segment isn first data false fin = seg ∧
          after = [] := by
        cases before with
        | nil =>
            obtain ⟨hseg, hafter⟩ := List.cons.inj hsplit
            exact ⟨rfl, hseg, hafter.symm⟩
        | cons b before => simp at hsplit
      rfl
    · intro seg hseg
      rw [List.getLast?_singleton, Option.some.injEq] at hseg
      rw [← hseg]
      refine ⟨rfl, hmax, ?_⟩
      by_cases hnil : data = []
      · exact Or.inr ⟨hnil, hsome.resolve_left (fun hne => hne hnil)⟩
      · exact Or.inl (List.length_pos_of_ne_nil hnil)
    · constructor
      · intro hnil
        exact absurd hnil (List.cons_ne_nil _ _)
      · rintro ⟨hnil, hfin⟩
        rcases hsome with hne | htrue
        · exact absurd hnil hne
        · rw [hfin] at htrue
          exact absurd htrue (by simp)
  · push Not at hsome
    obtain ⟨hnil, hfin⟩ := hsome
    rw [if_neg (by simp [hnil, hfin])]
    refine ⟨hnil.symm, by simp, by simp, by simp, ?_⟩
    simpa [hnil] using hfin

/-- A full segment before a cut of the rest. -/
theorem WindowCut.cons {rest : List TCPSegment} (hlong : TCPConfig.maxPayloadSize < data.length)
    (h : WindowCut isn (first + TCPConfig.maxPayloadSize)
      (data.drop TCPConfig.maxPayloadSize) fin rest) :
    WindowCut isn first data fin
      (segment isn first (data.take TCPConfig.maxPayloadSize) false false :: rest) := by
  have htake : (data.take TCPConfig.maxPayloadSize).length = TCPConfig.maxPayloadSize := by
    rw [List.length_take]
    omega
  have hmore : data.drop TCPConfig.maxPayloadSize ≠ [] := by
    rw [← List.length_pos_iff, List.length_drop]
    omega
  have hdata : data ≠ [] := by
    rintro rfl
    exact hmore (List.drop_nil)
  have hrest : rest ≠ [] := fun hnil => hmore (h.nil_iff.mp hnil).1
  refine ⟨?_, ?_, ?_, ?_, ?_⟩
  · rw [List.map_cons, List.flatten_cons, h.payloads]
    exact List.take_append_drop _ data
  · intro before seg after hsplit
    cases before with
    | nil =>
        obtain ⟨hseg, -⟩ := List.cons.inj hsplit
        rw [← hseg]
        rfl
    | cons b before =>
        obtain ⟨hb, htail⟩ := List.cons.inj hsplit
        have hplaced := h.placed before seg after htail
        have hspan : first + span (b :: before) =
            first + TCPConfig.maxPayloadSize + span before := by
          rw [span_cons, ← hb, segment_length, htake]
          simp [Nat.add_assoc]
        rw [hspan]
        exact hplaced
  · intro seg hseg
    rw [List.dropLast_cons_of_ne_nil hrest, List.mem_cons] at hseg
    rcases hseg with rfl | hseg
    · exact ⟨htake, rfl⟩
    · exact h.full seg hseg
  · intro seg hseg
    rw [List.getLast?_cons_of_ne_nil hrest] at hseg
    obtain ⟨hflag, hmax, hpos⟩ := h.last seg hseg
    exact ⟨hflag, hmax, Or.inl (hpos.resolve_right fun hnone => hmore hnone.1)⟩
  · simp [hdata]

/-- The loop of `fill_window` and the segment after it make such a cut. -/
theorem windowCut_cutSegments {fuel : Nat} (hfuel : data.length ≤ fuel) :
    WindowCut isn first data fin (cutSegments isn fuel first data fin) := by
  induction fuel generalizing first data with
  | zero => exact windowCut_last (by omega)
  | succ fuel ih =>
      rw [cutSegments]
      by_cases hlong : TCPConfig.maxPayloadSize < data.length
      · have hpos : 1 ≤ TCPConfig.maxPayloadSize := by decide
        rw [if_pos hlong]
        refine WindowCut.cons hlong (ih ?_)
        rw [List.length_drop]
        omega
      · rw [if_neg hlong]
        exact windowCut_last (by omega)

end Cut

/-! ## Nothing is left to do after the call -/

section Maximal

variable {s : TCPSender} {whole : List Byte} {firsts : List TCPSegment} {n : Nat} {fin : Bool}

theorem fillSize_eq_zero (h : s.wdRightEdge ≤ s.nextSeqno) : s.fillSize = 0 := by
  rw [fillSize, if_neg (by omega), Nat.zero_mod]

/-- The window is full after the call, or nothing waits. -/
theorem Sent.idle_fillWindow (h : Sent s whole firsts n fin) (hlt : s.wdRightEdge < 2 ^ 64)
    (hroom : s.wdRightEdge ≤ s.nextSeqno + 65536) (hsyn : s.nextSeqno ≠ 0) :
    s.fillWindow.Idle := by
  obtain ⟨new, n', fin', hadv, hsent, -, hafter, -, hnext⟩ :=
    h.fillWindow hlt hroom (Or.inr hsyn)
  have hle := hadv.next_le
  have hright := hadv.wdRightEdge
  have hended := hadv.inputEnd
  by_cases hdone : s.nextSeqno = s.finAckIndex
  · rw [fillWindow_done hdone]
    exact Or.inl hdone
  generalize s.fillWindow = u at hsent hnext hle hright hended ⊢
  cases fin' with
  | true => exact Or.inl (hsent.done_of_fin rfl)
  | false =>
      have hopen : fin = false := by
        by_contra hsome
        exact absurd (hafter (by simpa using hsome)).1 (by simp)
      subst hopen
      refine Or.inr ⟨by omega, ?_⟩
      by_cases hfull : s.wdRightEdge ≤ u.nextSeqno
      · exact Or.inl (fillSize_eq_zero (by rw [hright]; exact hfull))
      · -- everything that was waiting has been sent, and the input has not ended
        have hbefore := h.next_eq hsyn
        have hnow := hsent.next_eq (by omega)
        have hcarried := hsent.shape.le_length
        have hbuf := congrArg List.length h.buffer
        rw [List.length_drop] at hbuf
        rw [backlog, if_neg hdone, if_neg hsyn] at hnext
        simp only [Bool.false_eq_true, if_false, Nat.add_zero] at hbefore hnow
        have hopen : s.stream.inputEnd = false := by
          by_contra hend
          rw [if_pos (by simpa using hend)] at hnext
          omega
        rw [hopen] at hnext hended
        simp only [Bool.false_eq_true, if_false, Nat.add_zero] at hnext
        refine Or.inr ⟨?_, hended⟩
        rw [hsent.buffer]
        exact List.drop_eq_nil_of_le (by omega)

/-- A second call does nothing. -/
theorem Sent.fillWindow_fillWindow (h : Sent s whole firsts n fin)
    (hread : s.stream.totoalRead < 2 ^ 64) (hlt : s.wdRightEdge < 2 ^ 64)
    (hroom : s.wdRightEdge ≤ s.nextSeqno + 65536) (hsyn : s.nextSeqno ≠ 0) :
    s.fillWindow.fillWindow = s.fillWindow := by
  have hidle := h.idle_fillWindow hlt hroom hsyn
  have hread' := fillWindow_totoalRead_lt hread
  obtain ⟨new, n', fin', -, hsent, -⟩ := h.fillWindow hlt hroom (Or.inr hsyn)
  exact fillWindow_of_idle hsent.stream hread' hidle

end Maximal

end TCPSender

namespace SenderRun

open TCPSender

/-- In every run the count of the bytes read from the stream is a 64-bit number. -/
theorem totoalRead_lt {capacity : Nat} {retxTimeout : UInt16} {isn : WrappingInt32}
    {h : SenderRun} (hr : Reached capacity retxTimeout isn h) :
    h.sender.stream.totoalRead < 2 ^ 64 := by
  refine Run.Reach.invariant (P := fun h => h.sender.stream.totoalRead < 2 ^ 64) hr
    (Nat.two_pow_pos 64) ?_
  intro h op _ hread
  cases op with
  | write data => exact hread
  | endInput => exact hread
  | fillWindow => exact fillWindow_totoalRead_lt hread
  | ackReceived ackno windowSize =>
      exact ackReceived_stream (P := fun stream => stream.totoalRead < 2 ^ 64)
        (fun _ => fillWindow_totoalRead_lt) hread ackno windowSize
  | tick ms =>
      show (h.sender.tick ms).stream.totoalRead < 2 ^ 64
      rcases h.sender.tick_cases ms with ⟨-, heq⟩ | ⟨-, -, heq⟩ | ⟨front, rest, -, -, heq⟩
      all_goals
        rw [heq]
        exact hread
  | sendEmptyAck =>
      show h.sender.sendEmptyAck.stream.totoalRead < 2 ^ 64
      rcases h.sender.sendEmptyAck_cases with ⟨-, heq⟩ | ⟨-, heq⟩
      all_goals
        rw [heq]
        exact hread

end SenderRun

open TCPSender

/-- **One call of `fill_window` does one window's worth of work.**  In every reachable
state between the SYN and the FIN: the bytes `data` that fit the room `room` leave the
stream and go out in the cut `new`, the FIN with them if `fin` says that the stream is at
its end and a number is left; nothing else changes, and a second call does nothing. -/
theorem fill_window_one_window {capacity : Nat} {retxTimeout : UInt16} {isn : WrappingInt32}
    {h : SenderRun} (hr : SenderRun.Reached capacity retxTimeout isn h) {s : TCPSender}
    (hs : s = h.sender) (hsyn : s.nextSeqno ≠ 0) (hopen : ¬ h.FinSent)
    {room : Nat} (hroom : room = s.wdRightEdge - s.nextSeqno)
    {data : List Byte} (hdata : data = s.stream.buffer.take (min room s.stream.bufferSize))
    {fin : Bool} (hfin : fin = true ↔
      s.stream.inputEnded = true ∧ data = s.stream.buffer ∧ data.length < room) :
    ∃ new,
      WindowCut s.isn s.nextSeqno data fin new ∧
      s.fillWindow =
        { s with
          stream := s.stream.popOutput data.length
          segmentsOut := s.segmentsOut ++ new
          nextSeqno := s.nextSeqno + (data.length + (if fin then 1 else 0))
          segBuffer := s.segBuffer ++ nodesFrom s.nextSeqno new
          finAckIndex := if fin then s.nextSeqno + data.length + 1 else s.finAckIndex } ∧
      data.length + (if fin then 1 else 0) ≤ room ∧
      s.fillWindow.fillWindow = s.fillWindow := by
  obtain ⟨hedge, n, flag, hsent⟩ := hr.consistent
  have hread := SenderRun.totoalRead_lt hr
  rw [← hs] at hedge hsent hread
  have hflag : flag = false := by
    by_contra hsome
    exact hopen (hsent.shape.fin_iff.mp (by simpa using hsome))
  subst hflag
  have hlt := hedge.lt
  have hle := hedge.le
  have hsize := hsent.stream.size_eq
  have htake : data = s.stream.buffer.take room := by
    rw [hdata, ByteStream.bufferSize, hsize, ← List.take_eq_take_min]
  have hlen : data.length = min s.stream.size room := by
    rw [htake, List.length_take, hsize, Nat.min_comm]
  have hflag : fin = (s.stream.inputEnd && decide (s.stream.buffer.length < room)) := by
    rw [Bool.eq_iff_iff, hfin, Bool.and_eq_true, decide_eq_true_eq]
    constructor
    · rintro ⟨hend, hall, hshort⟩
      exact ⟨hend, by rw [← hall]; exact hshort⟩
    · rintro ⟨hend, hshort⟩
      have hall : data = s.stream.buffer := by
        rw [htake]
        exact List.take_of_length_le hshort.le
      exact ⟨hend, hall, by rw [hall]; exact hshort⟩
  have hfits : data.length + (if fin then 1 else 0) ≤ room := by
    split_ifs with hset
    · exact (hfin.mp hset).2.2
    · omega
  have hpop : s.stream.popOutput data.length = (s.stream.read room).1 := by
    rw [hlen, ByteStream.popOutput_min, ByteStream.read_eq]
  have hcut : WindowCut s.isn s.nextSeqno data fin
      (cutSegments s.isn data.length s.nextSeqno data fin) := windowCut_cutSegments le_rfl
  have hspan := span_cutSegments s.isn data.length s.nextSeqno data fin
  have htwice := hsent.fillWindow_fillWindow hread hlt (by omega) hsyn
  refine ⟨_, hcut, ?_, hfits, htwice⟩
  by_cases hdone : s.nextSeqno = s.finAckIndex
  · -- the last sequence number there is: the window has no room either
    have hindex := hsent.finIndex
    simp only [Bool.false_eq_true, if_false] at hindex
    have hzero : data.length = 0 ∧ fin = false := by
      have hnone : room = 0 := by omega
      refine ⟨by omega, ?_⟩
      by_contra hset
      have := (hfin.mp (by simpa using hset)).2.2
      omega
    obtain ⟨hnil, rfl⟩ := hzero
    have hempty : data = [] := List.length_eq_zero_iff.mp hnil
    subst hempty
    rw [fillWindow_done hdone, hnil, ByteStream.popOutput_zero hread]
    simp [cutSegments, nodesFrom]
  · rw [fillWindow_eq hsent.stream hdone hsyn hsent.next_lt (by omega) hlt hroom htake hflag]
    simp only [afterSending, hspan, hpop]

/-- Four bytes and the end of the input under a window of five: one segment with all of
it. -/
theorem fill_window_one_window_all :
    ∃ new, WindowCut ⟨0⟩ 1 [97, 98, 99, 100] true new ∧
      ((Run.exec SenderRun.step (SenderRun.start 10 1000 ⟨0⟩)
        [.fillWindow, .ackReceived ⟨1⟩ 5, .write [97, 98, 99, 100],
          .endInput]).sender.fillWindow).segmentsOut =
        segment ⟨0⟩ 0 [] true false :: new := by
  generalize hrun : Run.exec SenderRun.step (SenderRun.start 10 1000 ⟨0⟩)
    [.fillWindow, .ackReceived ⟨1⟩ 5, .write [97, 98, 99, 100], .endInput] = h
  have hreached : SenderRun.Reached 10 1000 ⟨0⟩ h := by
    rw [← hrun]
    exact Run.Reach.exec .start (by decide +kernel)
  have hisn : h.sender.isn = ⟨0⟩ := by rw [← hrun]; decide +kernel
  have hnext : h.sender.nextSeqno = 1 := by rw [← hrun]; decide +kernel
  have hout : h.sender.segmentsOut = [segment ⟨0⟩ 0 [] true false] := by
    rw [← hrun]
    decide +kernel
  have hopen : ¬ h.FinSent := by rw [← hrun]; decide +kernel
  have hroom : 5 = h.sender.wdRightEdge - h.sender.nextSeqno := by rw [← hrun]; decide +kernel
  have hdata : [97, 98, 99, 100] =
      h.sender.stream.buffer.take (min 5 h.sender.stream.bufferSize) := by
    rw [← hrun]
    decide +kernel
  have hfin : true = true ↔ h.sender.stream.inputEnded = true ∧
      [97, 98, 99, 100] = h.sender.stream.buffer ∧
      ([97, 98, 99, 100] : List Byte).length < 5 := by
    rw [← hrun]
    decide +kernel
  obtain ⟨new, hcut, hfill, -⟩ := fill_window_one_window hreached rfl
    (by rw [hnext]; decide) hopen hroom hdata hfin
  rw [hisn, hnext] at hcut
  refine ⟨new, hcut, ?_⟩
  rw [hfill, hout]
  rfl

end Sponge

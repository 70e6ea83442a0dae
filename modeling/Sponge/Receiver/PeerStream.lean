import Sponge.Reassembler.Coverage
import Sponge.Receiver.PeerIsn

/-!
# A receiver and the stream of one peer

All segments that arrive belong to one stream of the peer, in any order, some of them lost
and some repeated.  `PeerRun` records each arrival from the first SYN on, with the window it
met.  The receiver then is what these arrivals say: it has written the bytes before the
first index that none of them covered inside its window, acknowledges that index, and has
ended its stream if all bytes are there and a FIN has arrived in the window.
-/

namespace Sponge

namespace TCPReceiver

/-- Once a SYN is known, a segment that starts beyond the window, or ends before what has
been written, is dropped, and the payload of every other one goes to the reassembler. -/
theorem segmentReceived_of_open {r : TCPReceiver} {seg : TCPSegment}
    (hopen : (r.noteSyn seg).recieveIsn = true) :
    (((r.noteSyn seg).segStart seg > (r.noteSyn seg).winRight ∨
        Word.add 64 ((r.noteSyn seg).segStart seg) seg.lengthInSequenceSpace ≤
          r.streamOut.bytesWritten) ∧
      r.segmentReceived seg = r.noteSyn seg) ∨
    (¬((r.noteSyn seg).segStart seg > (r.noteSyn seg).winRight ∨
        Word.add 64 ((r.noteSyn seg).segStart seg) seg.lengthInSequenceSpace ≤
          r.streamOut.bytesWritten) ∧
      ∃ pushed, r.reassembler.pushSubstring seg.payload ((r.noteSyn seg).segStart seg)
          seg.header.fin = pushed ∧
        r.segmentReceived seg = { r.noteSyn seg with reassembler := pushed }) := by
  have hwritten : (r.noteSyn seg).streamOut.bytesWritten = r.streamOut.bytesWritten := by
    rw [streamOut, noteSyn_reassembler, ← streamOut]
  rw [segmentReceived]
  dsimp only
  rw [noteSyn_reassembler, hwritten, if_neg (by rw [hopen]; simp)]
  generalize r.reassembler.pushSubstring seg.payload ((r.noteSyn seg).segStart seg)
    seg.header.fin = pushed
  split_ifs with hout
  · exact Or.inl ⟨hout, rfl⟩
  · exact Or.inr ⟨hout, pushed, rfl, rfl⟩

end TCPReceiver

/-- A segment as it arrived: the part of the stream it holds, whether it carries the FIN,
and the bytes written and the window at that moment. -/
structure Arrival where
  start : Nat
  length : Nat
  fin : Bool
  written : Nat
  window : Nat
deriving DecidableEq, Repr

namespace Arrival

/-- The segment holds index `i`, inside the window it met. -/
def Covers (a : Arrival) (i : Nat) : Prop :=
  a.start ≤ i ∧ i < a.start + a.length ∧ a.written ≤ i ∧ i < a.written + a.window

/-- The segment carries the FIN and starts below the right edge of the window it met. -/
def EndsInWindow (a : Arrival) : Prop :=
  a.fin = true ∧ a.start < a.written + a.window

instance (a : Arrival) (i : Nat) : Decidable (a.Covers i) :=
  inferInstanceAs (Decidable (_ ∧ _ ∧ _ ∧ _))

instance (a : Arrival) : Decidable a.EndsInWindow :=
  inferInstanceAs (Decidable (_ ∧ _))

end Arrival

/-- What happens to the receiver of one stream: a segment arrives that holds the stream
from `index` on, or the application reads. -/
inductive PeerOp where
  | arrive (index : Nat) (seg : TCPSegment)
  | read (len : Nat)
deriving DecidableEq, Repr

/-- A receiver and what has arrived since the first SYN. -/
structure PeerRun where
  run : ReceiverRun
  arrivals : List Arrival := []
deriving DecidableEq, Repr

namespace PeerRun

def start (capacity : Nat) : PeerRun where
  run := ReceiverRun.start capacity

/-- The record of a segment that arrives now. -/
def arrival (p : PeerRun) (index : Nat) (seg : TCPSegment) : Arrival where
  start := index
  length := seg.payload.length
  fin := seg.header.fin
  written := p.run.receiver.streamOut.bytesWritten
  window := p.run.receiver.windowSize

def step (p : PeerRun) : PeerOp → PeerRun
  | .arrive index seg =>
      { run := p.run.step (.receive seg)
        arrivals :=
          if p.run.firstSyn.isSome || seg.header.syn then p.arrivals ++ [p.arrival index seg]
          else p.arrivals }
  | .read len => { p with run := p.run.step (.read len) }

/-- The segment is one of the stream `whole` of a peer with initial sequence number `isn`:
a SYN with the bytes from the start, or the bytes from `index` on; a FIN only at the end. -/
def Admits (isn : WrappingInt32) (whole : List Byte) (_ : PeerRun) : PeerOp → Prop
  | .arrive index seg =>
      (seg.header.syn = true → index = 0 ∧ seg.header.seqno = isn) ∧
        (seg.header.syn = false → seg.header.seqno = wrap (1 + index) isn) ∧
        seg.payload = (whole.drop index).take seg.payload.length ∧
        index + seg.payload.length ≤ whole.length ∧
        (seg.header.fin = true → index + seg.payload.length = whole.length)
  | .read _ => True

instance (isn : WrappingInt32) (whole : List Byte) (p : PeerRun) (op : PeerOp) :
    Decidable (p.Admits isn whole op) :=
  match op with
  | .arrive _ _ => inferInstanceAs (Decidable (_ ∧ _))
  | .read _ => inferInstanceAs (Decidable True)

/-- An index that some arrival has covered. -/
def Covered (p : PeerRun) (i : Nat) : Prop :=
  ∃ a ∈ p.arrivals, a.Covers i

/-- A FIN has arrived in the window. -/
def FinSeen (p : PeerRun) : Prop :=
  ∃ a ∈ p.arrivals, a.EndsInWindow

/-- What the receiver is, from the first SYN on. -/
structure Follows (p : PeerRun) (isn : WrappingInt32) (whole : List Byte) (capacity : Nat) :
    Prop where
  bytes : p.run.placed = whole.take p.run.receiver.streamOut.bytesWritten
  covered : ∀ i, i < p.run.receiver.streamOut.bytesWritten → p.Covered i
  not_covered : ¬p.Covered p.run.receiver.streamOut.bytesWritten
  ackno : p.run.receiver.ackno = some (wrap (1 + p.run.receiver.streamOut.bytesWritten +
    (if p.run.receiver.streamOut.inputEnded then 1 else 0)) isn)
  ended_iff : p.run.receiver.streamOut.inputEnded = true ↔
    p.run.receiver.streamOut.bytesWritten = whole.length ∧ p.FinSeen
  unread_le : p.run.placed.length - p.run.taken.length ≤ capacity
  windowSize : p.run.receiver.windowSize =
    capacity - (p.run.placed.length - p.run.taken.length)

variable {p : PeerRun} {isn : WrappingInt32} {whole : List Byte} {capacity : Nat}

/-- What a run keeps. -/
structure Assembling (p : PeerRun) (isn : WrappingInt32) (whole : List Byte) (capacity : Nat) :
    Prop where
  counted : p.run.Counted
  capacity_eq : p.run.receiver.capacity = capacity
  window_eq : p.run.receiver.reassembler.capacity = capacity
  tracks : p.run.receiver.reassembler.Tracks p.run.taken whole
  covers : p.run.receiver.reassembler.Covers p.Covered
  isn_eq : p.run.receiver.recieveIsn = true → p.run.receiver.isn = wrap 1 isn
  listening : p.run.firstSyn = none → p.run.receiver = TCPReceiver.new capacity
  endIdx : (p.FinSeen ∧ p.run.receiver.reassembler.inputEndIdx = whole.length) ∨
    (¬p.FinSeen ∧ p.run.receiver.reassembler.inputEndIdx = 4294967295)
  ended : p.run.receiver.reassembler.outputStream.inputEnd = true ↔
    p.run.receiver.reassembler.inputEndIdx ≤ p.run.receiver.reassembler.curIdx

theorem assembling_start (isn : WrappingInt32) (whole : List Byte) (capacity : Nat) :
    (start capacity).Assembling isn whole capacity where
  counted := ReceiverRun.counted_start capacity
  capacity_eq := rfl
  window_eq := rfl
  tracks := StreamReassembler.tracks_new capacity whole
  covers := (StreamReassembler.covers_new capacity).congr (by simp [Covered, start])
  isn_eq := by simp [start, ReceiverRun.start, TCPReceiver.new]
  listening := fun _ => rfl
  endIdx := Or.inr ⟨by simp [FinSeen, start], rfl⟩
  ended := by simp [start, ReceiverRun.start, TCPReceiver.new, StreamReassembler.new]

namespace Assembling

theorem written_eq (h : p.Assembling isn whole capacity) :
    p.run.receiver.streamOut.bytesWritten = p.run.receiver.reassembler.curIdx :=
  h.tracks.rep.written

/-- The window is what the capacity leaves. -/
theorem windowSize_eq (h : p.Assembling isn whole capacity) (hcap : capacity ≤ 2 ^ 31) :
    p.run.receiver.windowSize =
      capacity - p.run.receiver.reassembler.outputStream.size := by
  have hle := h.tracks.rep.size_le
  rw [h.window_eq] at hle
  unfold TCPReceiver.windowSize
  rw [h.capacity_eq]
  exact Word.sub_of_le (by omega) hle

/-- The window of the receiver ends where the reassembler's does. -/
theorem limit_eq (h : p.Assembling isn whole capacity) (hcap : capacity ≤ 2 ^ 31) :
    p.run.receiver.reassembler.limit =
      p.run.receiver.streamOut.bytesWritten + p.run.receiver.windowSize := by
  rw [h.written_eq, h.windowSize_eq hcap, StreamReassembler.limit, h.window_eq]

theorem winRight_add_one (h : p.Assembling isn whole capacity) (hpos : 1 ≤ capacity)
    (hcap : capacity ≤ 2 ^ 31) (hlen : whole.length < 2 ^ 31) (seg : TCPSegment) :
    (p.run.receiver.noteSyn seg).winRight + 1 =
      p.run.receiver.streamOut.bytesWritten + p.run.receiver.windowSize := by
  have hsame : (p.run.receiver.noteSyn seg).winRight = p.run.receiver.winRight := by
    unfold TCPReceiver.winRight TCPReceiver.windowSize TCPReceiver.streamOut
    rw [TCPReceiver.noteSyn_reassembler, TCPReceiver.noteSyn_capacity]
  have hwindow := h.windowSize_eq hcap
  have hwritten := h.written_eq
  have hcur := h.tracks.cur_le
  have hread := h.tracks.rep.read_add_size
  have hsize := h.tracks.rep.size_le
  rw [h.window_eq] at hsize
  rw [hsame, TCPReceiver.winRight, Word.add_of_lt (by omega), Word.sub_of_le (by omega) (by omega)]
  omega

/-- The stream is short enough for every segment to be taken at its own index. -/
theorem segStart_eq (h : p.Assembling isn whole capacity) (hlen : whole.length < 2 ^ 31)
    {index : Nat} {seg : TCPSegment} (hop : p.Admits isn whole (.arrive index seg))
    (hopen : (p.run.receiver.noteSyn seg).recieveIsn = true) :
    (p.run.receiver.noteSyn seg).segStart seg = index := by
  obtain ⟨hsyn, hdata, -, hle, -⟩ := hop
  have hcur := h.tracks.cur_le
  have hwritten := h.written_eq
  unfold TCPReceiver.segStart TCPReceiver.noteSyn at *
  cases hflag : seg.header.syn with
  | true => simp [(hsyn hflag).1]
  | false =>
      simp only [hflag, Bool.false_eq_true, if_false] at hopen ⊢
      rw [hdata hflag, h.isn_eq hopen, ← wrap_wrap, hwritten]
      exact unwrap_wrap_of_near _ (by omega) (by omega) (by omega) (by omega)

theorem read (h : p.Assembling isn whole capacity) (len : Nat) :
    (p.step (.read len)).Assembling isn whole capacity where
  counted := h.counted.step (.read len)
  capacity_eq := h.capacity_eq
  window_eq := h.window_eq
  tracks := h.tracks.read len
  covers := h.covers.read len
  isn_eq := h.isn_eq
  listening := by
    intro hnone
    show p.run.receiver.read len = _
    rw [h.listening hnone]
    simp [TCPReceiver.read, TCPReceiver.new, StreamReassembler.new, ByteStream.read, Word.add]
  endIdx := h.endIdx
  ended := h.ended

/-- Before the first SYN a segment without one is ignored. -/
theorem ignored (h : p.Assembling isn whole capacity) {seg : TCPSegment}
    (hnone : p.run.firstSyn = none) (hsyn : seg.header.syn = false) (index : Nat) :
    p.step (.arrive index seg) = p := by
  have hisn : p.run.receiver.recieveIsn = false := by
    rw [h.counted.isn, hnone]
    rfl
  have hsame : p.run.step (.receive seg) = p.run := by
    have hreceiver := TCPReceiver.segmentReceived_of_listen hisn hsyn
    simp only [ReceiverRun.step, hreceiver, hsyn, hnone, Bool.false_eq_true, if_false,
      Option.none_or]
    rw [← hnone]
  simp only [step, hsame, hnone, hsyn]
  simp

section Arrive

variable {index : Nat} {seg : TCPSegment}

/-- A segment that is not ignored is recorded. -/
theorem arrivals_step (hopen : (p.run.firstSyn.isSome || seg.header.syn) = true) :
    (p.step (.arrive index seg)).arrivals = p.arrivals ++ [p.arrival index seg] :=
  if_pos hopen

theorem covered_step_iff (hopen : (p.run.firstSyn.isSome || seg.header.syn) = true) (i : Nat) :
    (p.step (.arrive index seg)).Covered i ↔
      p.Covered i ∨ (p.arrival index seg).Covers i := by
  unfold Covered
  rw [arrivals_step hopen]
  simp [or_and_right, exists_or]

theorem finSeen_step_iff (hopen : (p.run.firstSyn.isSome || seg.header.syn) = true) :
    (p.step (.arrive index seg)).FinSeen ↔
      p.FinSeen ∨ (p.arrival index seg).EndsInWindow := by
  unfold FinSeen
  rw [arrivals_step hopen]
  simp [or_and_right, exists_or]

/-- What is left to show of a segment that is recorded: what it does to the reassembler. -/
theorem of_reassembler (h : p.Assembling isn whole capacity)
    (hop : p.Admits isn whole (.arrive index seg))
    (hopen : (p.run.firstSyn.isSome || seg.header.syn) = true) {r : StreamReassembler}
    (hr : (p.run.receiver.segmentReceived seg).reassembler = r)
    (hwindow : r.capacity = capacity) (htracks : r.Tracks p.run.taken whole)
    (hcovers : r.Covers fun i => p.Covered i ∨ (p.arrival index seg).Covers i)
    (hend : r.inputEndIdx = if (p.arrival index seg).EndsInWindow then whole.length
      else p.run.receiver.reassembler.inputEndIdx)
    (hended : r.outputStream.inputEnd = true ↔ r.inputEndIdx ≤ r.curIdx) :
    (p.step (.arrive index seg)).Assembling isn whole capacity := by
  have hrun : (p.step (.arrive index seg)).run = p.run.step (.receive seg) := rfl
  have hreceiver : (p.step (.arrive index seg)).run.receiver =
      p.run.receiver.segmentReceived seg := rfl
  exact {
    counted := h.counted.step (.receive seg)
    capacity_eq := by
      rw [hreceiver, TCPReceiver.segmentReceived_capacity, h.capacity_eq]
    window_eq := by
      rw [hreceiver, hr]
      exact hwindow
    tracks := by
      rw [hreceiver, hr]
      exact htracks
    covers := by
      rw [hreceiver, hr]
      exact hcovers.congr fun i => (covered_step_iff hopen i).symm
    isn_eq := by
      rw [hreceiver, TCPReceiver.segmentReceived_recieveIsn, TCPReceiver.segmentReceived_isn]
      intro hknown
      split_ifs with hsyn
      · rw [(hop.1 hsyn).2]
      · exact h.isn_eq (by simpa [hsyn] using hknown)
    listening := by
      intro hnone
      rw [hrun] at hnone
      cases hfirst : p.run.firstSyn with
      | some s => simp [ReceiverRun.step, hfirst] at hnone
      | none =>
          rw [hfirst] at hopen
          have hsyn : seg.header.syn = true := by simpa using hopen
          simp [ReceiverRun.step, hfirst, hsyn] at hnone
    endIdx := by
      rw [finSeen_step_iff hopen, hreceiver, hr, hend]
      by_cases hfin : (p.arrival index seg).EndsInWindow
      · rw [if_pos hfin]
        exact Or.inl ⟨Or.inr hfin, rfl⟩
      · rw [if_neg hfin]
        simpa [hfin] using h.endIdx
    ended := by
      rw [hreceiver, hr]
      exact hended }

/-- A segment that is dropped covers nothing, and brings no FIN that counts. -/
theorem dropped (h : p.Assembling isn whole capacity)
    (hop : p.Admits isn whole (.arrive index seg))
    (hopen : (p.run.firstSyn.isSome || seg.header.syn) = true)
    (hout : p.run.receiver.streamOut.bytesWritten + p.run.receiver.windowSize ≤ index ∨
      index + seg.lengthInSequenceSpace ≤ p.run.receiver.streamOut.bytesWritten)
    (heq : p.run.receiver.segmentReceived seg = p.run.receiver.noteSyn seg) :
    (p.step (.arrive index seg)).Assembling isn whole capacity := by
  have hr : (p.run.receiver.segmentReceived seg).reassembler = p.run.receiver.reassembler := by
    rw [heq, TCPReceiver.noteSyn_reassembler]
  have hlength : seg.payload.length + (if seg.header.fin then 1 else 0) ≤
      seg.lengthInSequenceSpace := by
    unfold TCPSegment.lengthInSequenceSpace
    omega
  have hnone : ∀ i, ¬(p.arrival index seg).Covers i := by
    rintro i ⟨hge, hlt, hwritten, hwindow⟩
    have hge' : index ≤ i := hge
    have hlt' : i < index + seg.payload.length := hlt
    have hwritten' : p.run.receiver.streamOut.bytesWritten ≤ i := hwritten
    have hwindow' : i < p.run.receiver.streamOut.bytesWritten +
        p.run.receiver.windowSize := hwindow
    omega
  have hfin : ¬(p.arrival index seg).EndsInWindow := by
    rintro ⟨hflag, hbelow⟩
    have hflag' : seg.header.fin = true := hflag
    have hbelow' : index < p.run.receiver.streamOut.bytesWritten +
        p.run.receiver.windowSize := hbelow
    -- the FIN stands after the last byte, which is not before what has been written
    have hend := hop.2.2.2.2 hflag'
    have hcur := h.tracks.cur_le
    have hwritten := h.written_eq
    rw [hflag', if_pos rfl] at hlength
    omega
  refine h.of_reassembler hop hopen hr h.window_eq h.tracks ?_ ?_ h.ended
  · exact h.covers.congr fun i => by simp [hnone i]
  · rw [if_neg hfin]

/-- A segment whose payload goes to the reassembler. -/
theorem pushed (h : p.Assembling isn whole capacity) (hpos : 1 ≤ capacity)
    (hcap : capacity ≤ 2 ^ 31) (hlen : whole.length < 2 ^ 31)
    (hop : p.Admits isn whole (.arrive index seg))
    (hopen : (p.run.firstSyn.isSome || seg.header.syn) = true)
    (hin : index < p.run.receiver.streamOut.bytesWritten + p.run.receiver.windowSize)
    {r : StreamReassembler}
    (hpush : p.run.receiver.reassembler.pushSubstring seg.payload index seg.header.fin = r)
    (heq : p.run.receiver.segmentReceived seg =
      { p.run.receiver.noteSyn seg with reassembler := r }) :
    (p.step (.arrive index seg)).Assembling isn whole capacity := by
  have hslice := hop.2.2.1
  have hle := hop.2.2.2.1
  have hlast := hop.2.2.2.2
  have hcur := h.tracks.cur_le
  have hwindow := h.window_eq
  have hspec : StreamReassembler.Pushed p.run.receiver.reassembler seg.payload index
      seg.header.fin r := by
    rw [← hpush]
    exact StreamReassembler.pushSubstring_spec h.tracks.rep (by omega) (by omega) (by omega) _
  have htracks := h.tracks.pushed hslice hspec
  have hcur' := htracks.cur_le
  have hmono : p.run.receiver.reassembler.curIdx ≤ r.curIdx := by
    rw [hspec.cur]
    exact Nat.le_add_right _ _
  have hend : r.inputEndIdx = if (p.arrival index seg).EndsInWindow then whole.length
      else p.run.receiver.reassembler.inputEndIdx := by
    rw [hspec.inputEndIdx]
    by_cases hfin : seg.header.fin = true
    · have hends : (p.arrival index seg).EndsInWindow := ⟨hfin, hin⟩
      rw [if_pos hfin, if_pos hends, hlast hfin]
    · have hends : ¬(p.arrival index seg).EndsInWindow := fun hends => hfin hends.1
      rw [if_neg hfin, if_neg hends]
  refine h.of_reassembler hop hopen (by rw [heq]) (hspec.capacity.trans hwindow) htracks ?_ hend ?_
  · refine (h.covers.moved hspec.toMoved).congr fun i => ?_
    -- the window of the reassembler is the one that the segment met
    have hlimit := h.limit_eq hcap
    have hwritten := h.written_eq
    have hsame : p.run.receiver.reassembler.InWindow seg.payload index i ↔
        (p.arrival index seg).Covers i := by
      unfold StreamReassembler.InWindow Arrival.Covers arrival
      rw [hlimit, hwritten]
      constructor
      · rintro ⟨h1, h2, h3, h4⟩
        exact ⟨h3, h4, h1, h2⟩
      · rintro ⟨h3, h4, h1, h2⟩
        exact ⟨h1, h2, h3, h4⟩
    rw [hsame]
  · rw [hspec.inputEnd, Bool.or_eq_true, decide_eq_true_eq, h.ended]
    constructor
    · rintro (hbefore | hreached)
      · -- the recorded end was the end of the stream already
        have hidx := h.endIdx
        split_ifs at hend <;> omega
      · exact hreached
    · exact Or.inr

end Arrive

theorem step (h : p.Assembling isn whole capacity) (hpos : 1 ≤ capacity)
    (hcap : capacity ≤ 2 ^ 31) (hlen : whole.length < 2 ^ 31) {op : PeerOp}
    (hop : p.Admits isn whole op) : (p.step op).Assembling isn whole capacity := by
  cases op with
  | read len => exact h.read len
  | arrive index seg =>
      cases hopen : p.run.firstSyn.isSome || seg.header.syn with
      | false =>
          rw [Bool.or_eq_false_iff, Option.isSome_eq_false_iff, Option.isNone_iff_eq_none] at hopen
          rw [h.ignored hopen.1 hopen.2]
          exact h
      | true =>
          have hknown : (p.run.receiver.noteSyn seg).recieveIsn = true := by
            rw [TCPReceiver.noteSyn_recieveIsn, h.counted.isn]
            exact hopen
          have hstart := h.segStart_eq hlen hop hknown
          have hright := h.winRight_add_one hpos hcap hlen seg
          have hsum : Word.add 64 index seg.lengthInSequenceSpace =
              index + seg.lengthInSequenceSpace := by
            have hle := hop.2.2.2.1
            apply Word.add_of_lt
            unfold TCPSegment.lengthInSequenceSpace
            split_ifs <;> omega
          rcases TCPReceiver.segmentReceived_of_open hknown with
            ⟨hout, heq⟩ | ⟨hin, r, hpush, heq⟩
          · rw [hstart, hsum] at hout
            exact h.dropped hop hopen (by omega) heq
          · rw [hstart, hsum] at hin
            rw [hstart] at hpush
            exact h.pushed hpos hcap hlen hop hopen (by omega) hpush heq

/-- What the invariant says of the receiver once a SYN has arrived. -/
theorem follows (h : p.Assembling isn whole capacity) (hcap : capacity ≤ 2 ^ 31)
    (hlen : whole.length < 2 ^ 31) {s : WrappingInt32} (hsyn : p.run.firstSyn = some s) :
    p.Follows isn whole capacity := by
  have hwritten := h.written_eq
  have hcur := h.tracks.cur_le
  have hknown : p.run.receiver.recieveIsn = true := by
    rw [h.counted.isn, hsyn]
    rfl
  have hunread : p.run.placed.length - p.run.taken.length =
      p.run.receiver.reassembler.outputStream.size := by
    rw [h.tracks.rep.stream.size_eq, ReceiverRun.placed, List.length_append,
      Nat.add_sub_cancel_left]
    rfl
  exact {
    bytes := by
      rw [hwritten]
      exact h.tracks.output
    covered := by
      intro i hi
      rw [hwritten] at hi
      exact h.covers.below i hi
    not_covered := by
      rw [hwritten]
      exact h.covers.not_covered_cur h.tracks.rep.toLayout
    ackno := by
      rw [h.counted.ackno_eq hsyn, h.isn_eq hknown, wrap_wrap, Nat.add_assoc]
    ended_iff := by
      have hidx := h.endIdx
      refine h.ended.trans ?_
      rw [hwritten]
      rcases hidx with ⟨hseen, hidx⟩ | ⟨hnot, hidx⟩
      · rw [hidx]
        simp only [hseen, and_true]
        omega
      · -- the sentinel is out of reach
        rw [hidx]
        simp only [hnot, and_false, iff_false]
        omega
    unread_le := by
      rw [hunread, ← h.window_eq]
      exact h.tracks.rep.size_le
    windowSize := by rw [hunread, h.windowSize_eq hcap] }

end Assembling
end PeerRun

/-- **The receiver of one stream.**  Whatever segments of the stream arrive, in whatever
order, lost or repeated, and whatever is read in between: before the first SYN nothing
changes, and from then on the receiver follows the stream. -/
theorem receives_peer_stream {isn : WrappingInt32} {whole : List Byte} {capacity : Nat}
    (hlen : whole.length < 2 ^ 31) (hpos : 1 ≤ capacity) (hcap : capacity ≤ 2 ^ 31)
    {p : PeerRun}
    (hr : Run.Reach PeerRun.step (PeerRun.Admits isn whole) (PeerRun.start capacity) p) :
    (p.run.firstSyn = none → p.run.receiver = TCPReceiver.new capacity) ∧
      ∀ s, p.run.firstSyn = some s → p.Follows isn whole capacity := by
  have hinv : p.Assembling isn whole capacity :=
    Run.Reach.invariant (P := fun p => p.Assembling isn whole capacity) hr
      (PeerRun.assembling_start isn whole capacity)
      fun _ _ hop h => h.step hpos hcap hlen hop
  exact ⟨hinv.listening, fun s hsyn => hinv.follows hcap hlen hsyn⟩

/-- Three bytes around the wrap of the sequence numbers, into a window of two: a byte
before the SYN, a FIN beyond the window, and the same FIN again after a read. -/
def aroundTheWrap : List PeerOp :=
  [.arrive 1 { header := { seqno := ⟨0⟩ }, payload := [2] },
    .arrive 0 { header := { syn := true, seqno := ⟨4294967294⟩ }, payload := [1] },
    .arrive 2 { header := { seqno := ⟨1⟩, fin := true }, payload := [3] },
    .arrive 1 { header := { seqno := ⟨0⟩, fin := true }, payload := [2, 3] },
    .read 1,
    .arrive 2 { header := { seqno := ⟨1⟩, fin := true }, payload := [3] }]

theorem receives_peer_stream_around_the_wrap :
    (Run.exec PeerRun.step (PeerRun.start 2) aroundTheWrap).run.receiver.ackno = some ⟨3⟩ ∧
      (Run.exec PeerRun.step (PeerRun.start 2) aroundTheWrap).Follows ⟨4294967294⟩ [1, 2, 3] 2 :=
  ⟨by decide +kernel, (receives_peer_stream (by decide) (by decide) (by norm_num)
    (.exec .start (by decide +kernel))).2 ⟨4294967294⟩ (by decide +kernel)⟩

end Sponge

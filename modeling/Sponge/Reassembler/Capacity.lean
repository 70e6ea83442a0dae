import Sponge.Reassembler.Coverage

/-!
# The reassembler stays within its capacity

What is buffered in the output and what is waiting share the window of `capacity` bytes
after what has been read, and a push discards what lies beyond it.  The last index of
the window is computed as `_cur_idx + _capacity - buffered - 1` in 64 bits: at capacity
zero it wraps around to `2 ^ 64 - 1`, so that the first push, if it does not start at
index zero, is stored.
-/

namespace Sponge

/-- Disjoint nodes between two bounds hold no more bytes than there is room. -/
theorem totalBytes_le {nodes : List Node} (hfits : ∀ n ∈ nodes, n.Fits)
    (hsorted : nodes.Pairwise Node.Before) {lo hi : Nat}
    (hin : ∀ n ∈ nodes, lo ≤ n.startIdx ∧ n.endIdx < hi) : totalBytes nodes ≤ hi - lo := by
  induction nodes generalizing lo with
  | nil => simp
  | cons n rest ih =>
      obtain ⟨hafter, hsorted'⟩ := List.pairwise_cons.mp hsorted
      have hspan : n.startIdx + n.data.length = n.endIdx + 1 := hfits n (by simp)
      obtain ⟨hlo, hhi⟩ := hin n (by simp)
      have hrest : totalBytes rest ≤ hi - (n.endIdx + 1) := by
        apply ih (fun m hm => hfits m (by simp [hm])) hsorted'
        intro m hm
        have hgap : n.endIdx + 1 < m.startIdx := hafter m hm
        exact ⟨hgap.le, (hin m (by simp [hm])).2⟩
      rw [totalBytes_cons]
      omega

namespace StreamReassembler

variable {r r' : StreamReassembler} {data : List Byte} {index : Nat}

/-- What is buffered and what is waiting fit into the capacity. -/
def WithinCapacity (r : StreamReassembler) : Prop :=
  r.streamOut.bufferSize + r.unassembledBytes ≤ r.capacity

instance (r : StreamReassembler) : Decidable r.WithinCapacity :=
  inferInstanceAs (Decidable (_ ≤ _))

theorem Layout.withinCapacity (h : Layout r) : r.WithinCapacity := by
  have htotal : totalBytes r.segBuffer ≤ r.limit - r.curIdx := by
    apply totalBytes_le h.fits h.sorted
    intro n hn
    exact ⟨(h.inside n hn).1.le, (h.inside n hn).2⟩
  have hlimit : r.limit = r.curIdx + (r.capacity - r.outputStream.size) := rfl
  have hsize := h.size_le
  have hcount := h.total
  show r.outputStream.size + r.unassembledBytes ≤ r.capacity
  omega

/-- The byte at index `i` is `b`: it has been assembled and not yet read, or is waiting. -/
def Keeps (r : StreamReassembler) (i : Nat) (b : Byte) : Prop :=
  (r.streamOut.bytesRead ≤ i ∧ r.streamOut.buffer[i - r.streamOut.bytesRead]? = some b) ∨
    HoldsIn r.segBuffer i b

/-- Of the bytes of a slice that have not been assembled before, exactly those at indices
from `bytes_read + capacity` on are discarded, and no other byte is lost. -/
structure DiscardsExactly (r : StreamReassembler) (data : List Byte) (index : Nat)
    (r' : StreamReassembler) : Prop where
  keeps_iff : ∀ i b, index ≤ i → data[i - index]? = some b → r.streamOut.bytesWritten ≤ i →
    (r'.Keeps i b ↔ i < r.streamOut.bytesRead + r.capacity)
  assembled : r.streamOut.buffer <+: r'.streamOut.buffer
  others : ∀ i b, r.Keeps i b → ¬(index ≤ i ∧ i < index + data.length) → r'.Keeps i b

/-- Beyond the old cursor, what is kept is what has been stored. -/
theorem Moved.keeps_iff (hm : Moved r data index r') (h : Layout r) {i : Nat} {b : Byte}
    (hi : r.curIdx ≤ i) : r'.Keeps i b ↔ r.stored data index i = some b := by
  have hread := h.read_add_size
  have hsize := h.stream.size_eq
  have hcur := hm.cur
  have hbytes : r'.streamOut.bytesRead = r.outputStream.totoalRead := hm.totoalRead
  have hbuffer : r'.streamOut.buffer[i - r.outputStream.totoalRead]? =
      (r.arrived data index)[i - r.curIdx]? := by
    show r'.outputStream.buffer[_]? = _
    rw [hm.output, List.getElem?_append_right (by omega)]
    congr 1
    omega
  have hrun : (r.arrived data index)[i - r.curIdx]? = some b ↔
      i < r'.curIdx ∧ r.stored data index i = some b := by
    by_cases hlt : i - r.curIdx < (r.arrived data index).length
    · have hget : (r.arrived data index)[i - r.curIdx]? =
          r.stored data index (r.curIdx + (i - r.curIdx)) := SparseBuffer.getElem?_contiguous hlt
      rw [show r.curIdx + (i - r.curIdx) = i by omega] at hget
      have hbelow : i < r'.curIdx := by omega
      simp [hget, hbelow]
    · rw [List.getElem?_eq_none (by omega)]
      have hbeyond : ¬i < r'.curIdx := by omega
      simp [hbeyond]
  have hheld : HoldsIn r'.segBuffer i b ↔ r'.curIdx ≤ i ∧ r.stored data index i = some b := by
    rw [← hm.layout.held_iff, hm.held_eq, SparseBuffer.clearBelow]
    split_ifs with hlt
    · simp [not_le.mpr hlt]
    · simp [not_lt.mp hlt]
  unfold Keeps
  rw [hbytes, hbuffer, hrun, hheld]
  constructor
  · rintro (⟨-, -, hstored⟩ | ⟨-, hstored⟩)
    · exact hstored
    · exact hstored
  · intro hstored
    by_cases hlt : i < r'.curIdx
    · exact Or.inl ⟨by omega, hlt, hstored⟩
    · exact Or.inr ⟨by omega, hstored⟩

theorem Moved.discardsExactly (hm : Moved r data index r') (h : Layout r) :
    DiscardsExactly r data index r' where
  keeps_iff := by
    intro i b hge hb hnew
    have hwritten : r.streamOut.bytesWritten = r.curIdx := h.written
    have hlimit : r.limit = r.streamOut.bytesRead + r.capacity := h.limit_eq
    have hlt : i - index < data.length := (List.getElem?_eq_some_iff.mp hb).1
    rw [hwritten] at hnew
    rw [hm.keeps_iff h hnew, ← hlimit, stored, SparseBuffer.overwrite]
    by_cases hin : i < r.limit
    · rw [if_pos ⟨hnew, hin, hge, by omega⟩, hb]
      simp [hin]
    · rw [if_neg (by omega)]
      simp only [hin, iff_false]
      intro hheld
      exact hin (h.held_lt hheld).2
  assembled := by
    show r.outputStream.buffer <+: r'.outputStream.buffer
    rw [hm.output]
    exact List.prefix_append _ _
  others := by
    intro i b hkept hout
    rcases hkept with ⟨hread, hget⟩ | hheld
    · have hlt : i - r.streamOut.bytesRead < r.outputStream.buffer.length :=
        (List.getElem?_eq_some_iff.mp hget).1
      have hsame : r'.streamOut.bytesRead = r.streamOut.bytesRead := hm.totoalRead
      refine Or.inl ⟨by rw [hsame]; exact hread, ?_⟩
      rw [hsame]
      show r'.outputStream.buffer[_]? = _
      rw [hm.output, List.getElem?_append_left hlt]
      exact hget
    · have hheld' := (h.held_iff i b).mpr hheld
      have hcur := (h.held_lt hheld').1
      rw [hm.keeps_iff h hcur.le, stored, SparseBuffer.overwrite, if_neg (by omega)]
      exact hheld'

/-! ## Capacity zero -/

/-- A reassembler of capacity zero that has stored nothing. -/
structure Hollow (r : StreamReassembler) : Prop where
  capacity : r.capacity = 0
  stream : r.outputStream.capcity = 0
  buffer : r.outputStream.buffer = []
  size : r.outputStream.size = 0
  totoalWrite : r.outputStream.totoalWrite = 0
  totoalRead : r.outputStream.totoalRead = 0
  segBuffer : r.segBuffer = []
  unassembled : r.unassembledBytes = 0

theorem hollow_new : Hollow (new 0) where
  capacity := rfl
  stream := rfl
  buffer := rfl
  size := rfl
  totoalWrite := rfl
  totoalRead := rfl
  segBuffer := rfl
  unassembled := rfl

theorem Hollow.endIfReached (h : Hollow r) : Hollow r.endIfReached := by
  unfold StreamReassembler.endIfReached
  split_ifs
  · exact ⟨h.capacity, h.stream, h.buffer, h.size, h.totoalWrite, h.totoalRead, h.segBuffer,
      h.unassembled⟩
  · exact h

/-- A node at the cursor is written to an output that accepts nothing. -/
theorem Hollow.commit (h : Hollow r) {nd : Node} (hstart : nd.startIdx = r.curIdx) :
    Hollow (r.commit nd) := by
  have hnone : r.outputStream.accepted nd.data = [] := by
    simp [ByteStream.accepted, h.stream]
  rw [StreamReassembler.commit, if_pos hstart]
  apply Hollow.endIfReached
  exact {
    capacity := h.capacity
    stream := h.stream
    buffer := by simp [hnone, h.buffer]
    size := by simp [hnone, h.size]
    totoalWrite := by simp [hnone, h.totoalWrite, Word.add]
    totoalRead := h.totoalRead
    segBuffer := h.segBuffer
    unassembled := h.unassembled }

theorem commit_curIdx_lt {nd : Node} (hlt : r.curIdx < 2 ^ 64) :
    (r.commit nd).curIdx < 2 ^ 64 := by
  unfold StreamReassembler.commit
  split_ifs
  · rw [endIfReached_curIdx]
    exact Word.add_lt 64 nd.endIdx 1
  · exact hlt

@[simp] theorem trimRight_startIdx (last : Nat) (nd : Node) :
    (trimRight last nd).startIdx = nd.startIdx := by
  unfold trimRight
  split_ifs <;> rfl

@[simp] theorem trimLeft_startIdx (cur : Nat) (nd : Node) :
    (trimLeft cur nd).startIdx = max cur nd.startIdx := by
  unfold trimLeft
  split_ifs with hlt
  · exact (max_eq_left hlt.le).symm
  · exact (max_eq_right (not_lt.mp hlt)).symm

/-- The window is empty, so `max_idx` is the index before the cursor. -/
theorem Hollow.maxIdx_add_one (h : Hollow r) (hcur : 0 < r.curIdx) (hlt : r.curIdx < 2 ^ 64) :
    r.maxIdx + 1 = r.curIdx := by
  simp only [maxIdx, ByteStream.bufferSize, h.capacity, h.size, Word.add, Word.sub]
  omega

/-- Nothing is stored of a slice that starts at index zero, and nothing once the cursor
has moved: then the slice is dropped, or cut to begin at the cursor. -/
theorem Hollow.pushSubstring (h : Hollow r) (hstart : data = [] ∨ index = 0 ∨ 0 < r.curIdx)
    (hlt : r.curIdx < 2 ^ 64) (eof : Bool) :
    Hollow (r.pushSubstring data index eof) ∧
      (r.pushSubstring data index eof).curIdx < 2 ^ 64 := by
  have heq := pushSubstring_eq r data index eof
  generalize r.recordedEnd data index eof = last at heq
  have hrecorded : Hollow { r with inputEndIdx := last } :=
    ⟨h.capacity, h.stream, h.buffer, h.size, h.totoalWrite, h.totoalRead, h.segBuffer,
      h.unassembled⟩
  simp only at heq
  split_ifs at heq with hdrop
  · rw [heq]
    exact ⟨hrecorded.endIfReached, by simpa using hlt⟩
  · push Not at hdrop
    obtain ⟨-, hmax, hne⟩ := hdrop
    -- nothing is waiting, so the node is committed as it is
    have hnode : ∀ nd, absorbBuffered { r with inputEndIdx := last } nd =
        ({ r with inputEndIdx := last }, nd) := by
      intro nd
      simp [absorbBuffered, OrderedSet.belowBound, OrderedSet.fromBound, absorb, h.segBuffer]
    have hzero : max r.curIdx index = r.curIdx := by
      apply max_eq_left
      rcases hstart with hnil | hindex | hcur
      · exact absurd hnil hne
      · omega
      · have hlast := h.maxIdx_add_one hcur hlt
        omega
    rw [heq, hnode]
    constructor
    · apply hrecorded.commit
      rw [trimRight_startIdx, trimLeft_startIdx]
      exact hzero
    · exact commit_curIdx_lt hlt

theorem Hollow.discardsExactly (h : Hollow r) (h' : Hollow r') (data : List Byte) (index : Nat) :
    DiscardsExactly r data index r' where
  keeps_iff := by
    intro i b _ _ _
    have hbytes : r.streamOut.bytesRead = 0 := h.totoalRead
    have hbuffer : r'.streamOut.buffer = [] := h'.buffer
    simp [Keeps, hbuffer, h'.segBuffer, hbytes, h.capacity]
  assembled := by
    have hbuffer : r.streamOut.buffer = [] := h.buffer
    rw [hbuffer]
    exact List.nil_prefix
  others := by
    intro i b hkept
    have hbuffer : r.streamOut.buffer = [] := h.buffer
    simp [Keeps, hbuffer, h.segBuffer] at hkept

theorem Hollow.read (h : Hollow r) (len : Nat) :
    Hollow { r with outputStream := (r.outputStream.read len).1 } where
  capacity := h.capacity
  stream := h.stream
  buffer := by simp [ByteStream.read, h.buffer]
  size := by simp [h.size]
  totoalWrite := h.totoalWrite
  totoalRead := by simp [h.totoalRead, h.size, Word.add]
  segBuffer := h.segBuffer
  unassembled := h.unassembled

theorem Hollow.withinCapacity (h : Hollow r) : r.WithinCapacity := by
  have hsize : r.streamOut.bufferSize = 0 := h.size
  unfold WithinCapacity
  rw [hsize, h.unassembled]
  exact Nat.zero_le _

end StreamReassembler

/-! ## Whole runs -/

namespace ReassemblerRun

open StreamReassembler

/-- The push meets no wrap-around: at capacity zero it starts at index zero or the cursor
has moved, and otherwise the window ends below `2 ^ 64` and so does the slice, or it starts
beyond the window. -/
def Fitting (s : ReassemblerRun) : ReassemblerOp → Prop
  | .push data index _ =>
      data = [] ∨
      (s.reassembler.capacity = 0 ∧ (index = 0 ∨ 0 < s.reassembler.curIdx)) ∨
      (1 ≤ s.reassembler.capacity ∧
        s.reassembler.streamOut.bytesRead + s.reassembler.capacity < 2 ^ 64 ∧
        (index + data.length ≤ 2 ^ 64 ∨
          s.reassembler.streamOut.bytesRead + s.reassembler.capacity ≤ index))
  | .read _ => True

instance (s : ReassemblerRun) (op : ReassemblerOp) : Decidable (s.Fitting op) :=
  match op with
  | .push _ _ _ => inferInstanceAs (Decidable (_ ∨ _ ∨ _))
  | .read _ => inferInstanceAs (Decidable True)

/-- What a run keeps, in the two cases of the capacity. -/
def Bounded (s : ReassemblerRun) : Prop :=
  (1 ≤ s.reassembler.capacity ∧ Layout s.reassembler) ∨
    (Hollow s.reassembler ∧ s.reassembler.curIdx < 2 ^ 64)

theorem bounded_new (capacity : Nat) :
    Bounded { reassembler := StreamReassembler.new capacity } := by
  cases capacity with
  | zero => exact Or.inr ⟨hollow_new, Nat.two_pow_pos 64⟩
  | succ n => exact Or.inl ⟨Nat.le_add_left 1 n, (rep_new (n + 1)).toLayout⟩

theorem Bounded.withinCapacity {s : ReassemblerRun} (h : s.Bounded) :
    s.reassembler.WithinCapacity := by
  rcases h with ⟨-, hlayout⟩ | ⟨hhollow, -⟩
  · exact hlayout.withinCapacity
  · exact hhollow.withinCapacity

theorem moved_nil {r : StreamReassembler} (h : Layout r) (index : Nat) (eof : Bool) :
    Moved r [] index (r.pushSubstring [] index eof) := by
  have hmoved : Moved r [] index r := by
    apply h.moved_of_disjoint
    rintro i ⟨-, -, hge, hlt⟩
    simp only [List.length_nil] at hlt
    omega
  rw [pushSubstring_nil]
  generalize r.recordedEnd [] index eof = last
  have hrecorded : Moved r [] index { r with inputEndIdx := last } :=
    { hmoved with layout := h.withEnd last }
  exact hrecorded.endIfReached

/-- A push without wrap-around keeps the bound and discards what it should. -/
theorem Bounded.push {s : ReassemblerRun} (h : s.Bounded) {data : List Byte} {index : Nat}
    {eof : Bool} (hfit : s.Fitting (.push data index eof)) :
    (s.step (.push data index eof)).Bounded ∧
      DiscardsExactly s.reassembler data index (s.step (.push data index eof)).reassembler := by
  have hnew : (s.step (.push data index eof)).reassembler =
      s.reassembler.pushSubstring data index eof := rfl
  unfold Bounded
  rw [hnew]
  rcases h with ⟨hpos, hlayout⟩ | ⟨hhollow, hlt⟩
  · have hmoved : Moved s.reassembler data index (s.reassembler.pushSubstring data index eof) := by
      rcases hfit with hnil | ⟨hzero, -⟩ | ⟨-, hwin, hlen⟩
      · subst hnil
        exact moved_nil hlayout index eof
      · omega
      · have hlimit : s.reassembler.limit =
            s.reassembler.streamOut.bytesRead + s.reassembler.capacity := hlayout.limit_eq
        rw [← hlimit] at hwin hlen
        exact hlayout.pushSubstring_moved hwin hpos hlen eof
    refine ⟨Or.inl ⟨?_, hmoved.layout⟩, hmoved.discardsExactly hlayout⟩
    rw [hmoved.capacity]
    exact hpos
  · have hstart : data = [] ∨ index = 0 ∨ 0 < s.reassembler.curIdx := by
      rcases hfit with hnil | ⟨-, hor⟩ | ⟨hpos, -⟩
      · exact Or.inl hnil
      · exact Or.inr hor
      · have hzero := hhollow.capacity
        omega
    obtain ⟨hhollow', hlt'⟩ := hhollow.pushSubstring hstart hlt eof
    exact ⟨Or.inr ⟨hhollow', hlt'⟩, hhollow.discardsExactly hhollow' data index⟩

theorem Bounded.step {s : ReassemblerRun} (h : s.Bounded) {op : ReassemblerOp}
    (hfit : s.Fitting op) : (s.step op).Bounded := by
  cases op with
  | push data index eof => exact (h.push hfit).1
  | read len =>
      rcases h with ⟨hpos, hlayout⟩ | ⟨hhollow, hlt⟩
      · exact Or.inl ⟨hpos, hlayout.read len⟩
      · exact Or.inr ⟨hhollow.read len, hlt⟩

end ReassemblerRun

/-- **The capacity is respected.**  In a run whose pushes meet no wrap-around, what is
buffered and what is waiting never exceed the capacity, and each push discards exactly the
bytes at or beyond `bytes_read + capacity`, or already assembled. -/
theorem within_capacity_of_fitting {capacity : Nat} {s : ReassemblerRun}
    (hrun : Run.Reach ReassemblerRun.step ReassemblerRun.Fitting
      { reassembler := StreamReassembler.new capacity } s) :
    s.reassembler.WithinCapacity ∧
      ∀ data index eof, s.Fitting (.push data index eof) →
        s.reassembler.DiscardsExactly data index (s.step (.push data index eof)).reassembler := by
  have hbounded : s.Bounded := by
    refine hrun.invariant (ReassemblerRun.bounded_new capacity) ?_
    intro s op hfit h
    exact h.step hfit
  exact ⟨hbounded.withinCapacity, fun data index eof hfit => (hbounded.push hfit).2⟩

/-- A full window: the last byte of the third slice is beyond it. -/
def fullWindow : List ReassemblerOp :=
  [.push [1] 0 false, .push [4, 5, 6] 3 false, .push [2, 3, 4] 1 false, .read 1]

theorem within_capacity_of_fitting_full_window :
    (ReassemblerRun.after 4 fullWindow).reassembler.WithinCapacity ∧
      StreamReassembler.DiscardsExactly (ReassemblerRun.after 4 fullWindow).reassembler [5, 6] 4
        ((ReassemblerRun.after 4 fullWindow).step (.push [5, 6] 4 true)).reassembler := by
  have hreach : Run.Reach ReassemblerRun.step ReassemblerRun.Fitting
      { reassembler := StreamReassembler.new 4 } (ReassemblerRun.after 4 fullWindow) :=
    .exec .start (by decide +kernel)
  obtain ⟨hwithin, hdiscards⟩ := within_capacity_of_fitting hreach
  exact ⟨hwithin, hdiscards [5, 6] 4 true (by decide +kernel)⟩

/-- At capacity zero a slice at index one is stored. -/
theorem stored_at_capacity_zero :
    ¬(ReassemblerRun.after 0 [.push [97] 1 false]).reassembler.WithinCapacity := by
  decide +kernel

end Sponge

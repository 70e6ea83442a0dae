import Sponge.Reassembler.Nodes
import Sponge.Lib.SparseBuffer

/-!
# One call of `push_substring`

`Rep` is the representation invariant of the reassembler: the buffered nodes
are disjoint, not even adjacent, strictly between the cursor and the end of the
window, and the counters are what they should be.  `Pushed` says everything one
call does in terms of the bytes held per index: store the part of the slice that
lies in the window, and move the contiguous run at the cursor to the output.
-/

namespace Sponge
namespace StreamReassembler

/-- The first index beyond the window, `bytes_read + capacity`. -/
def limit (r : StreamReassembler) : Nat :=
  r.curIdx + (r.capacity - r.outputStream.size)

/-- The byte a list of nodes holds at an index. -/
def held (nodes : List Node) (i : Nat) : Option Byte :=
  nodes.findSome? fun n => if n.startIdx ≤ i then n.data[i - n.startIdx]? else none

/-- The part of the representation invariant that does not speak of the end of
the stream. -/
structure Layout (r : StreamReassembler) : Prop where
  stream : r.outputStream.Valid
  capacity_eq : r.outputStream.capcity = r.capacity
  written : r.outputStream.totoalWrite = r.curIdx
  read_add_size : r.outputStream.totoalRead + r.outputStream.size = r.curIdx
  cur_lt : r.curIdx < 2 ^ 64
  fits : ∀ n ∈ r.segBuffer, n.Fits
  nonempty : ∀ n ∈ r.segBuffer, n.startIdx ≤ n.endIdx
  inside : ∀ n ∈ r.segBuffer, r.curIdx < n.startIdx ∧ n.endIdx < r.limit
  sorted : r.segBuffer.Pairwise Node.Before
  total : r.unassembledBytes = totalBytes r.segBuffer

/-- The representation invariant: once the cursor has reached the recorded end,
the output has been ended. -/
structure Rep (r : StreamReassembler) : Prop extends Layout r where
  reached : r.inputEndIdx ≤ r.curIdx → r.outputStream.inputEnd = true

theorem rep_new (capacity : Nat) : Rep (new capacity) where
  stream := ByteStream.valid_new capacity
  capacity_eq := rfl
  written := rfl
  read_add_size := rfl
  cur_lt := by simp [new]
  fits := by simp [new]
  nonempty := by simp [new]
  inside := by simp [new]
  sorted := List.Pairwise.nil
  total := rfl
  reached := by simp [new]

theorem Layout.size_le {r : StreamReassembler} (h : Layout r) :
    r.outputStream.size ≤ r.capacity := by
  have hle := h.stream.size_le
  rwa [h.capacity_eq] at hle

/-- What the window and its nodes hold after the slice has been stored. -/
def stored (r : StreamReassembler) (data : List Byte) (index : Nat) : Nat → Option Byte :=
  SparseBuffer.overwrite (held r.segBuffer) data index r.curIdx r.limit

/-- The bytes that become contiguous with the cursor. -/
def arrived (r : StreamReassembler) (data : List Byte) (index : Nat) : List Byte :=
  SparseBuffer.contiguous (r.stored data index) r.curIdx (r.capacity - r.outputStream.size)

/-- What a call of `push_substring` does to the bytes. -/
structure Moved (r : StreamReassembler) (data : List Byte) (index : Nat)
    (r' : StreamReassembler) : Prop where
  layout : Layout r'
  capacity : r'.capacity = r.capacity
  output : r'.outputStream.buffer = r.outputStream.buffer ++ r.arrived data index
  cur : r'.curIdx = r.curIdx + (r.arrived data index).length
  held_eq : held r'.segBuffer = SparseBuffer.clearBelow (r.stored data index) r'.curIdx
  totoalRead : r'.outputStream.totoalRead = r.outputStream.totoalRead
  error : r'.outputStream.error = r.outputStream.error

/-- Everything a call of `push_substring` does. -/
structure Pushed (r : StreamReassembler) (data : List Byte) (index : Nat) (eof : Bool)
    (r' : StreamReassembler) : Prop extends Moved r data index r' where
  reached : r'.inputEndIdx ≤ r'.curIdx → r'.outputStream.inputEnd = true
  inputEndIdx : r'.inputEndIdx = if eof then index + data.length else r.inputEndIdx
  inputEnd : r'.outputStream.inputEnd =
    (r.outputStream.inputEnd || decide (r'.inputEndIdx ≤ r'.curIdx))

theorem Pushed.rep {r r' : StreamReassembler} {data : List Byte} {index : Nat} {eof : Bool}
    (h : Pushed r data index eof r') : Rep r' :=
  { h.layout with reached := h.reached }

/-! ## Reading nodes as a partial function -/

theorem held_eq_some_iff {nodes : List Node} (hfits : ∀ n ∈ nodes, n.Fits)
    (hsorted : nodes.Pairwise Node.Before) (i : Nat) (b : Byte) :
    held nodes i = some b ↔ HoldsIn nodes i b := by
  induction nodes with
  | nil => simp [held]
  | cons n rest ih =>
      obtain ⟨hafter, hsorted'⟩ := List.pairwise_cons.mp hsorted
      have hrec := ih (fun m hm => hfits m (by simp [hm])) hsorted'
      rw [holdsIn_cons, held, List.findSome?_cons]
      cases hn : (if n.startIdx ≤ i then n.data[i - n.startIdx]? else none) with
      | none =>
          have hnot : ¬ n.Holds i b := by
            rintro ⟨hle, hx⟩
            rw [if_pos hle, hx] at hn
            contradiction
          simp only [hnot, false_or]
          exact hrec
      | some c =>
          have hle : n.startIdx ≤ i := by
            by_contra hcon
            simp [hcon] at hn
          rw [if_pos hle] at hn
          have hholds : n.Holds i c := ⟨hle, hn⟩
          -- the nodes after `n` begin beyond it, so `c` is the only byte at `i`
          have hend := hholds.le_endIdx (hfits n (by simp))
          constructor
          · intro hbc
            obtain rfl : c = b := Option.some.inj hbc
            exact Or.inl hholds
          · rintro (h | ⟨m, hm, hlo, -⟩)
            · rw [hholds.unique h]
            · have hgap : n.endIdx + 1 < m.startIdx := hafter m hm
              omega

theorem Layout.held_iff {r : StreamReassembler} (h : Layout r) (i : Nat) (b : Byte) :
    held r.segBuffer i = some b ↔ HoldsIn r.segBuffer i b :=
  held_eq_some_iff h.fits h.sorted i b

theorem Layout.held_lt {r : StreamReassembler} (h : Layout r) {i : Nat} {b : Byte}
    (hb : held r.segBuffer i = some b) : r.curIdx < i ∧ i < r.limit := by
  obtain ⟨n, hn, hnb⟩ := (h.held_iff i b).mp hb
  obtain ⟨hlo, hhi⟩ := h.inside n hn
  have hle := hnb.le_endIdx (h.fits n hn)
  have hge := hnb.1
  omega

theorem Layout.held_cur {r : StreamReassembler} (h : Layout r) {i : Nat} (hi : i ≤ r.curIdx) :
    held r.segBuffer i = none := by
  cases hb : held r.segBuffer i with
  | none => rfl
  | some b =>
      have hlt := (h.held_lt hb).1
      omega

theorem Layout.clearBelow_held {r : StreamReassembler} (h : Layout r) :
    SparseBuffer.clearBelow (held r.segBuffer) r.curIdx = held r.segBuffer := by
  funext i
  by_cases hi : i < r.curIdx
  · simp [SparseBuffer.clearBelow, hi, h.held_cur hi.le]
  · simp [SparseBuffer.clearBelow, hi]

theorem stored_eq_some_iff (r : StreamReassembler) (data : List Byte) (index i : Nat) (b : Byte) :
    r.stored data index i = some b ↔
      (r.curIdx ≤ i ∧ i < r.limit ∧ index ≤ i ∧ data[i - index]? = some b) ∨
      (held r.segBuffer i = some b ∧
        ¬ (r.curIdx ≤ i ∧ i < r.limit ∧ index ≤ i ∧ i < index + data.length)) := by
  by_cases hin : r.curIdx ≤ i ∧ i < r.limit ∧ index ≤ i ∧ i < index + data.length
  · simp [stored, SparseBuffer.overwrite, hin]
  · simp only [stored, SparseBuffer.overwrite, if_neg hin]
    constructor
    · exact fun h => Or.inr ⟨h, hin⟩
    · rintro (⟨h1, h2, h3, h4⟩ | ⟨h, -⟩)
      · have hlt : i - index < data.length := (List.getElem?_eq_some_iff.mp h4).1
        exact absurd ⟨h1, h2, h3, by omega⟩ hin
      · exact h

/-! ## The window and the trimmed node -/

/-- While the window ends below `2 ^ 64`, `max_idx` is the last index before its limit. -/
theorem Layout.maxIdx_add_one {r : StreamReassembler} (h : Layout r) (hwin : r.limit < 2 ^ 64)
    (hpos : 1 ≤ r.capacity) : r.maxIdx + 1 = r.limit := by
  have hsize := h.size_le
  have hread := h.read_add_size
  have hlimit : r.limit = r.curIdx + (r.capacity - r.outputStream.size) := rfl
  simp only [maxIdx, ByteStream.bufferSize, Word.add, Word.sub]
  omega

theorem new_fits {index : Nat} {data : List Byte} (hlen : index + data.length ≤ 2 ^ 64)
    (hne : data ≠ []) : (Node.new index data).endIdx + 1 = index + data.length := by
  have hpos : 0 < data.length := List.length_pos_of_ne_nil hne
  have hend : (Node.new index data).endIdx =
      Word.sub 64 (Word.add 64 index data.length) 1 := rfl
  rw [hend]
  simp only [Word.add, Word.sub]
  omega

theorem trimLeft_spec {nd : Node} (hfits : nd.Fits) (cur : Nat) (hcur : cur ≤ nd.endIdx + 1) :
    (trimLeft cur nd).Fits ∧ (trimLeft cur nd).startIdx = max cur nd.startIdx ∧
      (trimLeft cur nd).endIdx = nd.endIdx ∧
      ∀ i x, (trimLeft cur nd).Holds i x ↔ nd.Holds i x ∧ cur ≤ i := by
  unfold Node.Fits at hfits
  by_cases hlt : nd.startIdx < cur
  · simp only [trimLeft, if_pos hlt]
    refine ⟨?_, by omega, trivial, ?_⟩
    · simp only [Node.Fits, List.length_drop]
      omega
    · intro i x
      simp only [Node.Holds, List.getElem?_drop]
      constructor
      · rintro ⟨hle, hx⟩
        rw [show cur - nd.startIdx + (i - cur) = i - nd.startIdx by omega] at hx
        exact ⟨⟨by omega, hx⟩, hle⟩
      · rintro ⟨⟨-, hx⟩, hle⟩
        rw [show cur - nd.startIdx + (i - cur) = i - nd.startIdx by omega]
        exact ⟨hle, hx⟩
  · simp only [trimLeft, if_neg hlt]
    refine ⟨hfits, by omega, trivial, ?_⟩
    intro i x
    constructor
    · intro h
      have hlo := h.1
      exact ⟨h, by omega⟩
    · exact And.left

theorem trimRight_spec {nd : Node} (hfits : nd.Fits) (last : Nat) (hlast : nd.startIdx ≤ last + 1) :
    (trimRight last nd).Fits ∧ (trimRight last nd).startIdx = nd.startIdx ∧
      (trimRight last nd).endIdx = min last nd.endIdx ∧
      ∀ i x, (trimRight last nd).Holds i x ↔ nd.Holds i x ∧ i ≤ last := by
  have hspan : nd.startIdx + nd.data.length = nd.endIdx + 1 := hfits
  by_cases hgt : nd.endIdx > last
  · simp only [trimRight, if_pos hgt]
    refine ⟨?_, trivial, by omega, ?_⟩
    · simp only [Node.Fits, List.length_take]
      omega
    · intro i x
      simp only [Node.Holds, List.getElem?_take]
      constructor
      · rintro ⟨hle, hx⟩
        split_ifs at hx with hi
        exact ⟨⟨hle, hx⟩, by omega⟩
      · rintro ⟨⟨hle, hx⟩, hi⟩
        rw [if_pos (by omega)]
        exact ⟨hle, hx⟩
  · simp only [trimRight, if_neg hgt]
    refine ⟨hfits, trivial, by omega, ?_⟩
    intro i x
    constructor
    · intro h
      have hle := h.le_endIdx hfits
      exact ⟨h, by omega⟩
    · exact And.left

/-- The node that is merged and committed: the part of the slice inside the
window, possibly empty when the window is. -/
structure Trimmed (r : StreamReassembler) (data : List Byte) (index : Nat) (nd : Node) : Prop where
  fits : nd.Fits
  start_eq : nd.startIdx = max r.curIdx index
  end_eq : nd.endIdx + 1 = min r.limit (index + data.length)
  holds : ∀ i x, nd.Holds i x ↔
    r.curIdx ≤ i ∧ i < r.limit ∧ index ≤ i ∧ data[i - index]? = some x

theorem new_holds_iff (index : Nat) (data : List Byte) (i : Nat) (x : Byte) :
    (Node.new index data).Holds i x ↔ index ≤ i ∧ data[i - index]? = some x := Iff.rfl

theorem trimmed_spec {r : StreamReassembler} (h : Layout r) {data : List Byte} {index : Nat}
    (hlen : index + data.length ≤ 2 ^ 64) (hwin : r.limit < 2 ^ 64)
    (hpos : 1 ≤ r.capacity) (hne : data ≠ [])
    (hcur : r.curIdx ≤ (Node.new index data).endIdx) (hmax : index ≤ r.maxIdx) :
    Trimmed r data index (trimRight r.maxIdx (trimLeft r.curIdx (Node.new index data))) := by
  have hlim := h.maxIdx_add_one hwin hpos
  have hle : r.curIdx ≤ r.limit := Nat.le_add_right _ _
  have hend := new_fits hlen hne
  have hstart : (Node.new index data).startIdx = index := rfl
  have hfits : (Node.new index data).Fits := hend.symm
  have hholds := new_holds_iff index data
  -- from here on only the extent of the node matters
  generalize Node.new index data = nd at *
  generalize r.maxIdx = last at *
  obtain ⟨hfl, hsl, hel, hhl⟩ := trimLeft_spec hfits r.curIdx (by omega)
  obtain ⟨hfr, hsr, her, hhr⟩ := trimRight_spec hfl last (by rw [hsl]; omega)
  refine ⟨hfr, by rw [hsr, hsl, hstart], by rw [her, hel]; omega, ?_⟩
  intro i x
  rw [hhr, hhl, hholds]
  constructor
  · rintro ⟨⟨⟨hlo, hx⟩, hge⟩, hi⟩
    exact ⟨hge, by omega, hlo, hx⟩
  · rintro ⟨hge, hi, hlo, hx⟩
    exact ⟨⟨⟨hlo, hx⟩, hge⟩, by omega⟩

/-! ## The outcomes of a call -/

theorem Layout.endIfReached {r : StreamReassembler} (h : Layout r) : Layout r.endIfReached := by
  unfold StreamReassembler.endIfReached
  split_ifs with hge
  · exact { h with stream := h.stream.endInput }
  · exact h

theorem Moved.endIfReached {r r' : StreamReassembler} {data : List Byte} {index : Nat}
    (h : Moved r data index r') : Moved r data index r'.endIfReached := by
  have hlayout := h.layout.endIfReached
  unfold StreamReassembler.endIfReached at hlayout ⊢
  split_ifs at hlayout ⊢ with hge
  · exact { h with layout := hlayout }
  · exact h

@[simp] theorem endIfReached_curIdx (r : StreamReassembler) : r.endIfReached.curIdx = r.curIdx := by
  unfold endIfReached
  split_ifs <;> rfl

@[simp] theorem endIfReached_inputEndIdx (r : StreamReassembler) :
    r.endIfReached.inputEndIdx = r.inputEndIdx := by
  unfold endIfReached
  split_ifs <;> rfl

@[simp] theorem endIfReached_inputEnd (r : StreamReassembler) :
    r.endIfReached.outputStream.inputEnd =
      (r.outputStream.inputEnd || decide (r.inputEndIdx ≤ r.curIdx)) := by
  unfold endIfReached
  split_ifs with h
  · have h' : r.inputEndIdx ≤ r.curIdx := h
    simp [h']
  · have h' : ¬ r.inputEndIdx ≤ r.curIdx := h
    simp [h']

/-- Checking for the end completes a movement of bytes to a whole call. -/
theorem Moved.pushed_endIfReached {r r' : StreamReassembler} {data : List Byte} {index : Nat}
    {eof : Bool} (h : Moved r data index r')
    (hidx : r'.inputEndIdx = if eof then index + data.length else r.inputEndIdx)
    (hend : r'.outputStream.inputEnd = r.outputStream.inputEnd) :
    Pushed r data index eof r'.endIfReached :=
  { h.endIfReached with
    reached := by
      intro hle
      simpa using Or.inr hle
    inputEndIdx := by simpa using hidx
    inputEnd := by simp [hend] }

/-- A slice that misses the window stores nothing. -/
theorem stored_of_disjoint {r : StreamReassembler} {data : List Byte} {index : Nat}
    (hmiss : ∀ i, ¬ (r.curIdx ≤ i ∧ i < r.limit ∧ index ≤ i ∧ i < index + data.length)) :
    r.stored data index = held r.segBuffer := by
  funext i
  simp [stored, SparseBuffer.overwrite, hmiss i]

theorem Layout.moved_of_disjoint {r : StreamReassembler} (h : Layout r) {data : List Byte}
    {index : Nat}
    (hmiss : ∀ i, ¬ (r.curIdx ≤ i ∧ i < r.limit ∧ index ≤ i ∧ i < index + data.length)) :
    Moved r data index r := by
  have hnone : r.arrived data index = [] := by
    rw [arrived, stored_of_disjoint hmiss]
    exact SparseBuffer.contiguous_eq_nil (h.held_cur (le_refl _))
  exact {
    layout := h
    capacity := rfl
    output := by simp [hnone]
    cur := by simp [hnone]
    held_eq := by rw [stored_of_disjoint hmiss, h.clearBelow_held]
    totoalRead := rfl
    error := rfl }

/-- The node and the set after the merge loop, read together. -/
structure Merged (r : StreamReassembler) (data : List Byte) (index : Nat) (nd : Node)
    (nodes : List Node) : Prop where
  fits : nd.Fits
  bounded : nd.endIdx + 1 ≤ r.limit
  start_ge : r.curIdx ≤ nd.startIdx
  sublist : nodes.Sublist r.segBuffer
  apart : ∀ n ∈ nodes, n.Before nd ∨ nd.Before n
  holds : ∀ i x, r.stored data index i = some x ↔ nd.Holds i x ∨ HoldsIn nodes i x

/-- The buffered nodes are such as the loop can work with. -/
theorem Layout.proper {r : StreamReassembler} (h : Layout r) (hwin : r.limit < 2 ^ 64) :
    ∀ n ∈ r.segBuffer, n.Proper := by
  intro n hn
  have hin := (h.inside n hn).2
  exact ⟨h.fits n hn, h.nonempty n hn, by omega⟩

theorem Layout.merged {r : StreamReassembler} (h : Layout r) {data : List Byte} {index : Nat}
    (hwin : r.limit < 2 ^ 64) {nd : Node} (hnd : Trimmed r data index nd) :
    Merged r data index (absorbBuffered r nd).2 (absorbBuffered r nd).1.segBuffer ∧
      (absorbBuffered r nd).1.unassembledBytes =
        totalBytes (absorbBuffered r nd).1.segBuffer ∧
      nd.endIdx ≤ (absorbBuffered r nd).2.endIdx ∧
      (absorbBuffered r nd).2.startIdx ≤ nd.startIdx := by
  have hndend := hnd.end_eq
  have habs := absorbBuffered_spec (h.proper hwin) h.sorted hnd.fits (by omega)
  refine ⟨?_, ?_, habs.le_end, habs.start_le⟩
  · refine {
      fits := habs.fits
      bounded := ?_
      start_ge := ?_
      sublist := habs.sublist
      apart := habs.apart
      holds := ?_ }
    · rcases habs.end_mem with hend | ⟨n, hn, hend⟩
      · simp only at hend
        omega
      · have hin := (h.inside n hn).2
        simp only at hend
        omega
    · have hstart := hnd.start_eq
      rcases habs.start_mem with hs | ⟨n, hn, hs⟩
      · simp only at hs
        omega
      · have hin := (h.inside n hn).1
        simp only at hs
        omega
    · intro i x
      have hstart := hnd.start_eq
      rw [stored_eq_some_iff, habs.holds, hnd.holds, h.held_iff]
      have hrange : (nd.startIdx ≤ i ∧ i ≤ nd.endIdx) ↔
          (r.curIdx ≤ i ∧ i < r.limit ∧ index ≤ i ∧ i < index + data.length) := by
        omega
      rw [hrange]
  · have htotal := habs.total (le_of_eq h.total.symm)
    have hcount := h.total
    simp only at htotal
    omega

/-- All nodes of the set lie beyond the cursor, so beyond a node that starts there. -/
theorem Merged.beyond {r : StreamReassembler} (h : Layout r) {data : List Byte} {index : Nat}
    {nd : Node} {nodes : List Node} (hm : Merged r data index nd nodes)
    (hstart : nd.startIdx = r.curIdx) {n : Node} (hn : n ∈ nodes) :
    nd.endIdx + 1 < n.startIdx := by
  have hmem := hm.sublist.subset hn
  have hin := (h.inside n hmem).1
  have hne := h.nonempty n hmem
  cases hm.apart n hn with
  | inl hbefore =>
      have hgap : n.endIdx + 1 < nd.startIdx := hbefore
      omega
  | inr hbefore => exact hbefore

/-- A node at the cursor is exactly what arrives: nothing else touches it. -/
theorem Merged.arrived_eq {r : StreamReassembler} (h : Layout r) {data : List Byte} {index : Nat}
    {nd : Node} {nodes : List Node} (hm : Merged r data index nd nodes)
    (hstart : nd.startIdx = r.curIdx) :
    r.arrived data index = nd.data := by
  have hspan : nd.startIdx + nd.data.length = nd.endIdx + 1 := hm.fits
  have hbound := hm.bounded
  have hlimit : r.limit = r.curIdx + (r.capacity - r.outputStream.size) := rfl
  apply SparseBuffer.contiguous_eq
  · intro j hj
    rw [List.getElem?_eq_getElem hj]
    apply (hm.holds _ _).mpr
    refine Or.inl ⟨by omega, ?_⟩
    rw [show r.curIdx + j - nd.startIdx = j by omega]
    exact List.getElem?_eq_getElem hj
  · omega
  · intro _
    cases hx : r.stored data index (r.curIdx + nd.data.length) with
    | none => rfl
    | some x =>
        rcases (hm.holds _ _).mp hx with hnd | ⟨n, hn, hnx⟩
        · have hle := hnd.le_endIdx hm.fits
          omega
        · have hgap := hm.beyond h hstart hn
          have hlo := hnx.1
          omega

/-- Behind a gap at the cursor nothing arrives. -/
theorem Merged.arrived_eq_nil {r : StreamReassembler} (h : Layout r) {data : List Byte}
    {index : Nat} {nd : Node} {nodes : List Node} (hm : Merged r data index nd nodes)
    (hstart : nd.startIdx ≠ r.curIdx) : r.arrived data index = [] := by
  have hge := hm.start_ge
  apply SparseBuffer.contiguous_eq_nil
  cases hx : r.stored data index r.curIdx with
  | none => rfl
  | some x =>
      rcases (hm.holds _ _).mp hx with ⟨hlo, -⟩ | ⟨n, hn, hlo, -⟩
      · omega
      · have hin := (h.inside n (hm.sublist.subset hn)).1
        omega

/-- Committing a node at the cursor writes it out. -/
theorem Merged.moved_write {r : StreamReassembler} (h : Layout r)
    (hwin : r.limit < 2 ^ 64) {data : List Byte} {index : Nat}
    {nd : Node} {nodes : List Node} (hm : Merged r data index nd nodes)
    (hstart : nd.startIdx = r.curIdx) (last : Nat) :
    Moved r data index
      { r with
        outputStream := (r.outputStream.write nd.data).1
        segBuffer := nodes
        inputEndIdx := last
        curIdx := Word.add 64 nd.endIdx 1
        unassembledBytes := totalBytes nodes } := by
  have harrived := hm.arrived_eq h hstart
  have hspan : nd.startIdx + nd.data.length = nd.endIdx + 1 := hm.fits
  have hbound := hm.bounded
  have hsize := h.size_le
  have hlimit : r.limit = r.curIdx + (r.capacity - r.outputStream.size) := rfl
  have hacc : r.outputStream.accepted nd.data = nd.data := by
    apply ByteStream.accepted_of_fits
    rw [h.capacity_eq]
    omega
  have hcur : Word.add 64 nd.endIdx 1 = r.curIdx + nd.data.length := by
    rw [Word.add_of_lt (by omega)]
    omega
  have hbeyond : ∀ n ∈ nodes, nd.endIdx + 1 < n.startIdx := fun n hn => hm.beyond h hstart hn
  have hfits : ∀ n ∈ nodes, n.Fits := fun n hn => h.fits n (hm.sublist.subset hn)
  have hsorted : nodes.Pairwise Node.Before := h.sorted.sublist hm.sublist
  refine {
    layout := {
      stream := h.stream.write nd.data
      capacity_eq := h.capacity_eq
      written := ?_
      read_add_size := ?_
      cur_lt := by simp only [hcur]; omega
      fits := hfits
      nonempty := fun n hn => h.nonempty n (hm.sublist.subset hn)
      inside := ?_
      sorted := hsorted
      total := rfl }
    capacity := rfl
    output := by rw [ByteStream.write_buffer, hacc, harrived]
    cur := by rw [hcur, harrived]
    held_eq := ?_
    totoalRead := rfl
    error := rfl }
  · rw [ByteStream.write_totoalWrite, hacc, h.written, hcur, Word.add_of_lt (by omega)]
  · have hread := h.read_add_size
    simp only [ByteStream.write_totoalRead, ByteStream.write_size, hacc, hcur]
    omega
  · intro n hn
    have hin := (h.inside n (hm.sublist.subset hn)).2
    have hgap := hbeyond n hn
    simp only [limit, ByteStream.write_size, hacc, hcur]
    omega
  · funext i
    apply Option.ext
    intro x
    simp only [SparseBuffer.clearBelow, hcur]
    rw [held_eq_some_iff hfits hsorted]
    split_ifs with hi
    · constructor
      · rintro ⟨n, hn, hlo, -⟩
        have hgap := hbeyond n hn
        omega
      · intro hcon
        contradiction
    · rw [hm.holds]
      constructor
      · exact Or.inr
      · rintro (hnd | hnodes)
        · have hle := hnd.le_endIdx hm.fits
          omega
        · exact hnodes

/-- Nodes with a gap between them, both non-empty: the order of the set. -/
private def GapOrder (a b : Node) : Prop :=
  a.Before b ∧ a.startIdx ≤ a.endIdx ∧ b.startIdx ≤ b.endIdx

private theorem GapOrder.lt {a b : Node} (h : GapOrder a b) :
    Node.lt a b = true ∧ Node.lt b a = false := by
  obtain ⟨hgap, ha, hb⟩ := h
  have hgap' : a.endIdx + 1 < b.startIdx := hgap
  have hne : a.startIdx ≠ b.startIdx := by omega
  constructor
  · simp [Node.lt, hne]
    omega
  · simp [Node.lt, hne.symm]
    omega

private theorem GapOrder.trans {a b c : Node} (hab : GapOrder a b) (hbc : GapOrder b c) :
    GapOrder a c := by
  obtain ⟨hgap, ha, hb⟩ := hab
  obtain ⟨hgap', -, hc⟩ := hbc
  have h1 : a.endIdx + 1 < b.startIdx := hgap
  have h2 : b.endIdx + 1 < c.startIdx := hgap'
  exact ⟨show a.endIdx + 1 < c.startIdx by omega, ha, hc⟩

/-- The merged node is inserted: no node of the set is taken for it. -/
theorem Merged.inserted {r : StreamReassembler} (h : Layout r) {data : List Byte} {index : Nat}
    {nd : Node} {nodes : List Node} (hm : Merged r data index nd nodes)
    (hne : nd.startIdx ≤ nd.endIdx) :
    (OrderedSet.insertUnique Node.lt nd nodes).Perm (nd :: nodes) ∧
      (OrderedSet.insertUnique Node.lt nd nodes).Pairwise Node.Before := by
  have hnonempty : ∀ n ∈ nodes, n.startIdx ≤ n.endIdx :=
    fun n hn => h.nonempty n (hm.sublist.subset hn)
  have hgap : ∀ n ∈ nodes, GapOrder n nd ∨ GapOrder nd n := by
    intro n hn
    cases hm.apart n hn with
    | inl hlt => exact Or.inl ⟨hlt, hnonempty n hn, hne⟩
    | inr hlt => exact Or.inr ⟨hlt, hne, hnonempty n hn⟩
  have hsorted : nodes.Pairwise GapOrder := by
    refine (List.Pairwise.and_mem.mp (h.sorted.sublist hm.sublist)).imp ?_
    rintro a b ⟨ha, hb, hab⟩
    exact ⟨hab, hnonempty a ha, hnonempty b hb⟩
  obtain ⟨hins, hpair⟩ := OrderedSet.pairwise_insertUnique (R := GapOrder)
    (fun a b c hab hbc => hab.trans hbc) (fun x _ hx => hx.lt.1)
    (fun x _ hx => ⟨hx.lt.2, hx.lt.1⟩) hgap hsorted
  exact ⟨OrderedSet.insertUnique_perm hins, hpair.imp fun hab => hab.1⟩

/-- Committing a node beyond the cursor buffers it in its place. -/
theorem Merged.moved_insert {r : StreamReassembler} (h : Layout r) {data : List Byte} {index : Nat}
    {nd : Node} {nodes : List Node} (hm : Merged r data index nd nodes)
    (hstart : nd.startIdx ≠ r.curIdx) (hne : nd.startIdx ≤ nd.endIdx) (last : Nat) :
    Moved r data index
      { r with
        segBuffer := OrderedSet.insertUnique Node.lt nd nodes
        inputEndIdx := last
        unassembledBytes := totalBytes nodes + nd.data.length } := by
  have hge := hm.start_ge
  have hbound := hm.bounded
  have hnone := hm.arrived_eq_nil h hstart
  obtain ⟨hperm, hbefore⟩ := hm.inserted h hne
  -- from here on the new set is only known by its members and their order
  generalize OrderedSet.insertUnique Node.lt nd nodes = inserted at hperm hbefore ⊢
  have hmem : ∀ n, n ∈ inserted ↔ n = nd ∨ n ∈ nodes := fun n => by
    rw [hperm.mem_iff, List.mem_cons]
  have hfits : ∀ n ∈ inserted, n.Fits := by
    intro n hn
    cases (hmem n).mp hn with
    | inl heq => exact heq ▸ hm.fits
    | inr hn => exact h.fits n (hm.sublist.subset hn)
  have htotal : totalBytes inserted = totalBytes nodes + nd.data.length := by
    have hsum : totalBytes inserted = totalBytes (nd :: nodes) := (hperm.map _).sum_eq
    rw [hsum, totalBytes_cons, Nat.add_comm]
  refine {
    layout := {
      stream := h.stream
      capacity_eq := h.capacity_eq
      written := h.written
      read_add_size := h.read_add_size
      cur_lt := h.cur_lt
      fits := hfits
      nonempty := ?_
      inside := ?_
      sorted := hbefore
      total := htotal.symm }
    capacity := rfl
    output := by simp [hnone]
    cur := by simp [hnone]
    held_eq := ?_
    totoalRead := rfl
    error := rfl }
  · intro n hn
    cases (hmem n).mp hn with
    | inl heq => exact heq ▸ hne
    | inr hn => exact h.nonempty n (hm.sublist.subset hn)
  · intro n hn
    cases (hmem n).mp hn with
    | inl heq =>
        subst heq
        exact ⟨show r.curIdx < n.startIdx by omega, show n.endIdx < r.limit by omega⟩
    | inr hn => exact h.inside n (hm.sublist.subset hn)
  · funext i
    apply Option.ext
    intro x
    have hheld : HoldsIn inserted i x ↔ nd.Holds i x ∨ HoldsIn nodes i x := by
      rw [← holdsIn_cons]
      simp only [HoldsIn, hperm.mem_iff]
    simp only [SparseBuffer.clearBelow]
    rw [held_eq_some_iff hfits hbefore, hheld]
    split_ifs with hi
    · -- nothing is held below the cursor
      constructor
      · rintro (⟨hlo, -⟩ | ⟨n, hn, hlo, -⟩)
        · omega
        · have hin := (h.inside n (hm.sublist.subset hn)).1
          omega
      · intro hcon
        contradiction
    · exact (hm.holds i x).symm

theorem Layout.withEnd {r : StreamReassembler} (h : Layout r) (last : Nat) :
    Layout { r with inputEndIdx := last } :=
  { h with }

/-- The end that a push records. -/
def recordedEnd (r : StreamReassembler) (data : List Byte) (index : Nat) (eof : Bool) : Nat :=
  if eof then Word.add 64 index data.length else r.inputEndIdx

/-- The body of `push_substring`, with the recorded end named. -/
theorem pushSubstring_eq (r : StreamReassembler) (data : List Byte) (index : Nat) (eof : Bool) :
    r.pushSubstring data index eof =
      (let r₁ := { r with inputEndIdx := r.recordedEnd data index eof }
       let nd := trimRight r.maxIdx (trimLeft r.curIdx (Node.new index data))
       if r.curIdx > (Node.new index data).endIdx ∨ index > r.maxIdx ∨ data = [] then
         endIfReached r₁
       else commit (absorbBuffered r₁ nd).1 (absorbBuffered r₁ nd).2) := by
  rw [pushSubstring]
  cases eof <;> rfl

/-- What a push has done before it looks for the end: the bytes are moved and the end is
recorded.  It looks for the end unless the slice stays behind a gap. -/
structure Placed (r : StreamReassembler) (data : List Byte) (index : Nat) (eof : Bool)
    (r' : StreamReassembler) : Prop extends Moved r data index r' where
  inputEndIdx : r'.inputEndIdx = r.recordedEnd data index eof
  inputEnd : r'.outputStream.inputEnd = r.outputStream.inputEnd
  checks : r.pushSubstring data index eof = r'.endIfReached ∨
    (r.pushSubstring data index eof = r' ∧ r'.curIdx = r.curIdx ∧
      r.curIdx < index + data.length)

/-- A push of a slice below `2 ^ 64`, or of one that starts beyond the window. -/
theorem Layout.exists_placed {r : StreamReassembler} (h : Layout r) {data : List Byte}
    {index : Nat} (hwin : r.limit < 2 ^ 64) (hpos : 1 ≤ r.capacity)
    (hlen : index + data.length ≤ 2 ^ 64 ∨ r.limit ≤ index) (eof : Bool) :
    ∃ r', Placed r data index eof r' := by
  have heq := pushSubstring_eq r data index eof
  generalize hlast : r.recordedEnd data index eof = last at heq
  have hmax := h.maxIdx_add_one hwin hpos
  have hlayout := h.withEnd last
  simp only at heq
  split_ifs at heq with hdrop
  · -- outside the window, or nothing to store
    have hmoved : Moved r data index r := by
      apply h.moved_of_disjoint
      rintro i ⟨hlo, hhi, hge, hlt⟩
      have hne : data ≠ [] := by
        rintro rfl
        simp at hlt
        omega
      rcases hdrop with hd | hd | hd
      · have hlen' : index + data.length ≤ 2 ^ 64 := by omega
        have hend := new_fits hlen' hne
        omega
      · omega
      · exact hne hd
    exact ⟨{ r with inputEndIdx := last },
      { hmoved with
        layout := hlayout
        inputEndIdx := hlast.symm
        inputEnd := rfl
        checks := Or.inl heq }⟩
  · push Not at hdrop
    obtain ⟨hcur, hidx, hne⟩ := hdrop
    have hlen' : index + data.length ≤ 2 ^ 64 := by omega
    have hnd := trimmed_spec h hlen' hwin hpos hne hcur hidx
    have hend := new_fits hlen' hne
    have hlenpos : 0 < data.length := List.length_pos_of_ne_nil hne
    generalize trimRight r.maxIdx (trimLeft r.curIdx (Node.new index data)) = nd at *
    generalize (Node.new index data).endIdx = newEnd at *
    generalize r.maxIdx = maxIdx at *
    obtain ⟨hmerged, hcount, hle, hstartle⟩ := h.merged hwin hnd
    have hndstart := hnd.start_eq
    have hndend := hnd.end_eq
    have hres : (absorbBuffered { r with inputEndIdx := last } nd) =
        ({ (absorbBuffered r nd).1 with inputEndIdx := last }, (absorbBuffered r nd).2) := rfl
    have hfield : (absorbBuffered r nd).1 =
        { r with
          segBuffer := (absorbBuffered r nd).1.segBuffer
          unassembledBytes := (absorbBuffered r nd).1.unassembledBytes } := rfl
    rw [hres, hfield, hcount] at heq
    generalize (absorbBuffered r nd).1.segBuffer = nodes at *
    generalize (absorbBuffered r nd).2 = nd' at *
    by_cases hstart : nd'.startIdx = r.curIdx
    · -- the node reaches the cursor and is written
      simp only [commit, if_pos hstart] at heq
      exact ⟨_,
        { hmerged.moved_write h hwin hstart last with
          inputEndIdx := hlast.symm
          inputEnd := rfl
          checks := Or.inl heq }⟩
    · -- the node stays buffered, and the end is not looked for
      simp only [commit, if_neg hstart] at heq
      have hge := hmerged.start_ge
      exact ⟨_,
        { hmerged.moved_insert h hstart (by omega) last with
          inputEndIdx := hlast.symm
          inputEnd := rfl
          checks := Or.inr ⟨heq, rfl, by omega⟩ }⟩

/-- The bytes that a push moves. -/
theorem Layout.pushSubstring_moved {r : StreamReassembler} (h : Layout r) {data : List Byte}
    {index : Nat} (hwin : r.limit < 2 ^ 64) (hpos : 1 ≤ r.capacity)
    (hlen : index + data.length ≤ 2 ^ 64 ∨ r.limit ≤ index) (eof : Bool) :
    Moved r data index (r.pushSubstring data index eof) := by
  obtain ⟨r', hplaced⟩ := h.exists_placed hwin hpos hlen eof
  rcases hplaced.checks with heq | ⟨heq, -, -⟩
  · rw [heq]
    exact hplaced.toMoved.endIfReached
  · rw [heq]
    exact hplaced.toMoved

/-- One call of `push_substring` stores the part of the slice inside the window,
moves the run at the cursor to the output and ends the output when the recorded
end has been reached. -/
theorem pushSubstring_spec {r : StreamReassembler} (h : Rep r) {data : List Byte} {index : Nat}
    (hlen : index + data.length < 2 ^ 64) (hcap : r.curIdx + r.capacity < 2 ^ 64)
    (hpos : 1 ≤ r.capacity) (eof : Bool) :
    Pushed r data index eof (r.pushSubstring data index eof) := by
  have hwin : r.limit < 2 ^ 64 := by
    unfold limit
    omega
  obtain ⟨r', hplaced⟩ := h.toLayout.exists_placed hwin hpos (Or.inl hlen.le) eof
  have hidx : r'.inputEndIdx = if eof then index + data.length else r.inputEndIdx := by
    rw [hplaced.inputEndIdx, recordedEnd, Word.add_of_lt hlen]
  rcases hplaced.checks with heq | ⟨heq, hcur, hbehind⟩
  · rw [heq]
    exact hplaced.toMoved.pushed_endIfReached hidx hplaced.inputEnd
  · -- the slice lies behind a gap, so its end is still ahead
    rw [heq]
    have hreached : r'.inputEndIdx ≤ r'.curIdx → r'.outputStream.inputEnd = true := by
      rw [hidx, hcur, hplaced.inputEnd]
      intro hle
      cases eof with
      | true =>
          simp only [if_true] at hle
          omega
      | false => exact h.reached (by simpa using hle)
    exact {
      hplaced.toMoved with
      reached := hreached
      inputEndIdx := hidx
      inputEnd := by
        by_cases hle : r'.inputEndIdx ≤ r'.curIdx
        · rw [hreached hle]
          simp [hle]
        · rw [hplaced.inputEnd]
          simp [hle] }

/-- Reading from the output keeps the invariant and moves the window's end by
what was read. -/
theorem Layout.read {r : StreamReassembler} (h : Layout r) (len : Nat) :
    Layout { r with outputStream := (r.outputStream.read len).1 } := by
  have hread := h.read_add_size
  have hlt := h.cur_lt
  refine {
    stream := h.stream.read len
    capacity_eq := h.capacity_eq
    written := h.written
    read_add_size := ?_
    cur_lt := h.cur_lt
    fits := h.fits
    nonempty := h.nonempty
    inside := ?_
    sorted := h.sorted
    total := h.total }
  · simp only [ByteStream.read_totoalRead, ByteStream.read_size]
    rw [Word.add_of_lt (by omega)]
    omega
  · intro n hn
    have hin := h.inside n hn
    simp only [limit, ByteStream.read_size] at hin ⊢
    omega

theorem Rep.read {r : StreamReassembler} (h : Rep r) (len : Nat) :
    Rep { r with outputStream := (r.outputStream.read len).1 } :=
  { h.toLayout.read len with reached := h.reached }

end StreamReassembler
end Sponge

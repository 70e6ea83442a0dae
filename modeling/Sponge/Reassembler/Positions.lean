import Sponge.Reassembler.Coverage

/-!
# The representation of the reassembler, and the positions `mergeTo` uses

The nodes of the set, the cursor and the counter of waiting bytes belong together,
and `push_substring` restores this after every merge.  `RepInvariant` states it in
the terms of the class itself.

`mergeTo` copies from a string by positions it computes from the bounds of two
nodes; a position outside the string would be undefined behaviour.  The versions
below check every such position and give up at one outside.  They are run beside the
real ones: under the invariant they never give up, and compute the same.
-/

namespace Sponge
namespace StreamReassembler

/-! ## Checked positions -/

/-- The two copies `mergeTo` makes begin and end inside the string of `a`: the bytes
before `b` are a first part of it, the bytes after `b` a last part. -/
def PositionsInside (a b : Node) : Prop :=
  (a.startIdx < b.startIdx → b.startIdx - a.startIdx ≤ a.data.length) ∧
    (a.endIdx > b.endIdx → a.endIdx - b.endIdx ≤ a.data.length)

instance (a b : Node) : Decidable (PositionsInside a b) :=
  inferInstanceAs (Decidable (_ ∧ _))

/-- `mergeTo`, unless a position is outside the string. -/
def mergeToChecked (a b : Node) : Option Node :=
  if PositionsInside a b then some (mergeTo a b) else none

/-- The merge loop with checked positions. -/
def absorbChecked : Node → Nat → List Node → Option (Node × Nat × List Node)
  | nd, unassembled, [] => some (nd, unassembled, [])
  | nd, unassembled, it :: rest =>
      if it.touches nd then
        (mergeToChecked it nd).bind fun merged =>
          absorbChecked merged (unassembled - it.data.length) rest
      else if it.startIdx > nd.endIdx then
        some (nd, unassembled, it :: rest)
      else
        (absorbChecked nd unassembled rest).map fun result =>
          (result.1, result.2.1, it :: result.2.2)

def absorbBufferedChecked (r : StreamReassembler) (nd : Node) :
    Option (StreamReassembler × Node) :=
  let before := OrderedSet.belowBound Node.lt nd r.segBuffer
  let after := OrderedSet.fromBound Node.lt nd r.segBuffer
  (absorbChecked nd r.unassembledBytes (before.getLast?.toList ++ after)).map fun result =>
    ({ r with
        segBuffer := before.dropLast ++ result.2.2
        unassembledBytes := result.2.1 }, result.1)

/-- `push_substring` with checked positions. -/
def pushSubstringChecked (r : StreamReassembler) (data : List Byte) (index : Nat)
    (eof : Bool) : Option StreamReassembler :=
  let maxIdx := r.maxIdx
  let r := if eof then { r with inputEndIdx := Word.add 64 index data.length } else r
  let nd := Node.new index data
  if r.curIdx > nd.endIdx ∨ nd.startIdx > maxIdx ∨ data = [] then
    some (endIfReached r)
  else
    let nd := trimRight maxIdx (trimLeft r.curIdx nd)
    (absorbBufferedChecked r nd).map fun absorbed => commit absorbed.1 absorbed.2

/-- Two touching nodes: what lies before and after the second one is part of the
first. -/
theorem positionsInside_of_touching {a b : Node} (ha : a.Fits)
    (hleft : b.startIdx ≤ a.endIdx + 1) (hright : a.startIdx ≤ b.endIdx + 1) :
    PositionsInside a b := by
  have hspan : a.startIdx + a.data.length = a.endIdx + 1 := ha
  constructor
  · intro _
    omega
  · intro _
    omega

/-- The loop never gives up.  By induction on the nodes from the iterator on, as the
loop itself goes; the node it grows stays within its bounds. -/
theorem absorbChecked_eq {nodes : List Node} (hproper : ∀ n ∈ nodes, n.Proper) {nd : Node}
    (hfits : nd.Fits) (hbound : nd.endIdx + 1 < 2 ^ 64) (unassembled : Nat) :
    absorbChecked nd unassembled nodes = some (absorb nd unassembled nodes) := by
  induction nodes generalizing nd unassembled with
  | nil => rfl
  | cons it rest ih =>
      have hit : it.Proper := hproper it List.mem_cons_self
      have hrest : ∀ n ∈ rest, n.Proper := fun n hn => hproper n (List.mem_cons_of_mem it hn)
      rw [absorbChecked, absorb]
      split_ifs with htouch hbreak
      · obtain ⟨hleft, hright⟩ := (touches_iff hit.bounded hbound).mp htouch
        obtain ⟨hmfits, -, hmend, -⟩ := mergeTo_spec hit.fits hfits hleft hright
        have hmbound : (mergeTo it nd).endIdx + 1 < 2 ^ 64 := by
          have hb := hit.bounded
          rw [hmend]
          omega
        rw [mergeToChecked, if_pos (positionsInside_of_touching hit.fits hleft hright)]
        exact ih hrest hmfits hmbound (unassembled - it.data.length)
      · rfl
      · rw [ih hrest hfits hbound unassembled]
        rfl

theorem absorbBufferedChecked_eq {r : StreamReassembler}
    (hproper : ∀ n ∈ r.segBuffer, n.Proper) {nd : Node} (hfits : nd.Fits)
    (hbound : nd.endIdx + 1 < 2 ^ 64) :
    absorbBufferedChecked r nd = some (absorbBuffered r nd) := by
  have hsplit : OrderedSet.belowBound Node.lt nd r.segBuffer ++
      OrderedSet.fromBound Node.lt nd r.segBuffer = r.segBuffer :=
    OrderedSet.belowBound_append_fromBound
  have hsome : ∀ n ∈ (OrderedSet.belowBound Node.lt nd r.segBuffer).getLast?.toList ++
      OrderedSet.fromBound Node.lt nd r.segBuffer, n.Proper := by
    intro n hn
    apply hproper n
    rw [← hsplit]
    rcases List.mem_append.mp hn with hlast | hafter
    · rw [Option.mem_toList] at hlast
      exact List.mem_append_left _ (List.mem_of_getLast? hlast)
    · exact List.mem_append_right _ hafter
  rw [absorbBufferedChecked]
  simp only [absorbChecked_eq hsome hfits hbound]
  rfl

/-- A push in range never uses a position outside a string. -/
theorem Layout.pushSubstringChecked_eq {r : StreamReassembler} (h : Layout r)
    {data : List Byte} {index : Nat} (hlen : index + data.length < 2 ^ 64)
    (hwin : r.limit < 2 ^ 64) (hpos : 1 ≤ r.capacity) (eof : Bool) :
    r.pushSubstringChecked data index eof = some (r.pushSubstring data index eof) := by
  have hrecord : (if eof then { r with inputEndIdx := Word.add 64 index data.length } else r) =
      { r with inputEndIdx := r.recordedEnd data index eof } := by
    cases eof <;> rfl
  rw [pushSubstring_eq, pushSubstringChecked, hrecord]
  generalize r.recordedEnd data index eof = last
  simp only
  by_cases hdrop : r.curIdx > (Node.new index data).endIdx ∨ index > r.maxIdx ∨ data = []
  · rw [if_pos hdrop]
    exact if_pos hdrop
  · rw [if_neg hdrop]
    refine (if_neg hdrop).trans ?_
    push Not at hdrop
    obtain ⟨hcur, hidx, hne⟩ := hdrop
    have hnd := trimmed_spec h hlen.le hwin hpos hne hcur hidx
    have hend := hnd.end_eq
    have hchecked := absorbBufferedChecked_eq ((h.withEnd last).proper hwin) hnd.fits (by omega)
    simp only [hchecked]
    rfl

/-! ## The representation -/

/-- The representation invariant, in the terms of the class. -/
structure RepInvariant (r : StreamReassembler) : Prop where
  /-- every node has data, as long as its bounds say -/
  data : ∀ n ∈ r.segBuffer, n.data ≠ [] ∧ n.startIdx ≤ n.endIdx ∧
    n.data.length = n.endIdx - n.startIdx + 1
  /-- in the order of the set, each node ends before the next begins, and an index is free
  between them -/
  apart : r.segBuffer.Pairwise fun a b => a.endIdx + 1 < b.startIdx
  after_cursor : ∀ n ∈ r.segBuffer, r.curIdx < n.startIdx
  in_window : ∀ n ∈ r.segBuffer, n.endIdx ≤ r.streamOut.bytesRead + r.capacity - 1
  waiting : (r.segBuffer.map fun n => n.data.length).sum = r.unassembledBytes
  cursor : r.curIdx = r.streamOut.bytesWritten

theorem Layout.repInvariant {r : StreamReassembler} (h : Layout r) : RepInvariant r where
  data := by
    intro n hn
    have hfits : n.startIdx + n.data.length = n.endIdx + 1 := h.fits n hn
    have hne := h.nonempty n hn
    refine ⟨?_, hne, by omega⟩
    rw [← List.length_pos_iff]
    omega
  apart := h.sorted
  after_cursor := fun n hn => (h.inside n hn).1
  in_window := by
    intro n hn
    have hin := (h.inside n hn).2
    rw [h.limit_eq] at hin
    exact Nat.le_sub_one_of_lt hin
  waiting := h.total.symm
  cursor := h.written.symm

end StreamReassembler

end Sponge

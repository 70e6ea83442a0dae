import Sponge.StreamReassembler

/-!
# What buffered nodes hold, and the merge loop

A node is read as the bytes it holds at the indices it spans.  `mergeTo` and
the merge loop `absorb` are specified by that reading: merging a touching node
keeps every byte, the newer node winning where both have one, and the loop
leaves the remaining nodes apart from the grown one.
-/

namespace Sponge
namespace Node

/-- The bounds of the node span exactly its data; an empty node has
`endIdx + 1 = startIdx`. -/
def Fits (n : Node) : Prop :=
  n.startIdx + n.data.length = n.endIdx + 1

/-- The node holds byte `b` at stream index `i`. -/
def Holds (n : Node) (i : Nat) (b : Byte) : Prop :=
  n.startIdx ≤ i ∧ n.data[i - n.startIdx]? = some b

/-- `a` ends at least one index short of touching `b`. -/
def Before (a b : Node) : Prop :=
  a.endIdx + 1 < b.startIdx

/-- A node that may sit in the set: it fits, is not empty, and its bounds leave
room for the `+1u` of the source. -/
structure Proper (n : Node) : Prop where
  fits : n.Fits
  nonempty : n.startIdx ≤ n.endIdx
  bounded : n.endIdx + 1 < 2 ^ 64

theorem Holds.le_endIdx {n : Node} {i : Nat} {b : Byte} (hfits : n.Fits) (h : n.Holds i b) :
    i ≤ n.endIdx := by
  have hlt : i - n.startIdx < n.data.length := (List.getElem?_eq_some_iff.mp h.2).1
  have hle := h.1
  unfold Fits at hfits
  omega

/-- A fitting node holds some byte at every index it spans. -/
theorem exists_holds {n : Node} {i : Nat} (hfits : n.Fits) (hlo : n.startIdx ≤ i)
    (hhi : i ≤ n.endIdx) : ∃ b, n.Holds i b := by
  unfold Fits at hfits
  have hlt : i - n.startIdx < n.data.length := by omega
  exact ⟨n.data[i - n.startIdx], hlo, List.getElem?_eq_getElem hlt⟩

theorem Holds.unique {n : Node} {i : Nat} {b c : Byte} (hb : n.Holds i b) (hc : n.Holds i c) :
    b = c := by
  have h := hb.2.symm.trans hc.2
  exact Option.some.inj h

end Node

/-- Some node of the list holds byte `b` at index `i`. -/
def HoldsIn (nodes : List Node) (i : Nat) (b : Byte) : Prop :=
  ∃ n ∈ nodes, n.Holds i b

@[simp] theorem holdsIn_nil (i : Nat) (b : Byte) : ¬ HoldsIn [] i b := by
  simp [HoldsIn]

@[simp] theorem holdsIn_cons (n : Node) (nodes : List Node) (i : Nat) (b : Byte) :
    HoldsIn (n :: nodes) i b ↔ n.Holds i b ∨ HoldsIn nodes i b := by
  simp [HoldsIn]

@[simp] theorem holdsIn_append (xs ys : List Node) (i : Nat) (b : Byte) :
    HoldsIn (xs ++ ys) i b ↔ HoldsIn xs i b ∨ HoldsIn ys i b := by
  simp [HoldsIn, or_and_right, exists_or]

/-- Number of bytes buffered in a list of nodes. -/
def totalBytes (nodes : List Node) : Nat :=
  (nodes.map fun n => n.data.length).sum

@[simp] theorem totalBytes_nil : totalBytes [] = 0 := rfl

@[simp] theorem totalBytes_cons (n : Node) (nodes : List Node) :
    totalBytes (n :: nodes) = n.data.length + totalBytes nodes := by
  simp [totalBytes]

@[simp] theorem totalBytes_append (xs ys : List Node) :
    totalBytes (xs ++ ys) = totalBytes xs + totalBytes ys := by
  simp [totalBytes]

namespace StreamReassembler

/-! ## One merge -/

/-- The first half of `mergeTo`. -/
private def extendLeft (a b : Node) : Node :=
  if a.startIdx < b.startIdx then
    { b with
      data := a.data.take (b.startIdx - a.startIdx) ++ b.data
      startIdx := a.startIdx }
  else b

/-- The second half of `mergeTo`. -/
private def extendRight (a b : Node) : Node :=
  if a.endIdx > b.endIdx then
    { b with
      data := b.data ++ a.data.drop (a.data.length - (a.endIdx - b.endIdx))
      endIdx := a.endIdx }
  else b

private theorem mergeTo_eq (a b : Node) : mergeTo a b = extendRight a (extendLeft a b) := rfl

private theorem extendLeft_spec {a b : Node} (ha : a.Fits) (hb : b.Fits)
    (htouch : b.startIdx ≤ a.endIdx + 1) :
    (extendLeft a b).Fits ∧
      (extendLeft a b).startIdx = min a.startIdx b.startIdx ∧
      (extendLeft a b).endIdx = b.endIdx ∧
      ∀ i x, (extendLeft a b).Holds i x ↔ b.Holds i x ∨ (a.Holds i x ∧ i < b.startIdx) := by
  unfold Node.Fits at ha hb
  by_cases hlt : a.startIdx < b.startIdx
  · have hlen : (a.data.take (b.startIdx - a.startIdx)).length = b.startIdx - a.startIdx := by
      rw [List.length_take]
      omega
    simp only [extendLeft, if_pos hlt]
    refine ⟨?_, by omega, by simp, ?_⟩
    · simp only [Node.Fits, List.length_append, hlen]
      omega
    · intro i x
      simp only [Node.Holds]
      by_cases hi : i < b.startIdx
      · have hnot : ¬ b.startIdx ≤ i := by omega
        have hget : a.startIdx ≤ i →
            (a.data.take (b.startIdx - a.startIdx) ++ b.data)[i - a.startIdx]? =
              a.data[i - a.startIdx]? := by
          intro hle
          rw [List.getElem?_append_left (by omega), List.getElem?_take_of_lt (by omega)]
        constructor
        · rintro ⟨hle, hx⟩
          rw [hget hle] at hx
          exact Or.inr ⟨⟨hle, hx⟩, hi⟩
        · rintro (⟨hle, -⟩ | ⟨⟨hle, hx⟩, -⟩)
          · exact absurd hle hnot
          · exact ⟨hle, by rw [hget hle, hx]⟩
      · have hget : (a.data.take (b.startIdx - a.startIdx) ++ b.data)[i - a.startIdx]? =
            b.data[i - b.startIdx]? := by
          rw [List.getElem?_append_right (by omega), hlen]
          congr 1
          omega
        rw [hget]
        constructor
        · rintro ⟨-, hx⟩
          exact Or.inl ⟨by omega, hx⟩
        · rintro (⟨-, hx⟩ | ⟨-, hlt'⟩)
          · exact ⟨by omega, hx⟩
          · exact absurd hlt' hi
  · simp only [extendLeft, if_neg hlt]
    refine ⟨hb, by omega, trivial, ?_⟩
    intro i x
    constructor
    · exact Or.inl
    · rintro (h | ⟨⟨hle, -⟩, hi⟩)
      · exact h
      · omega

private theorem extendRight_spec {a b : Node} (ha : a.Fits) (hb : b.Fits)
    (htouch : a.startIdx ≤ b.endIdx + 1) :
    (extendRight a b).Fits ∧
      (extendRight a b).startIdx = b.startIdx ∧
      (extendRight a b).endIdx = max a.endIdx b.endIdx ∧
      ∀ i x, (extendRight a b).Holds i x ↔
        b.Holds i x ∨ (a.Holds i x ∧ b.endIdx < i ∧ b.startIdx ≤ i) := by
  unfold Node.Fits at ha hb
  by_cases hgt : a.endIdx > b.endIdx
  · simp only [extendRight, if_pos hgt]
    refine ⟨?_, trivial, by omega, ?_⟩
    · simp only [Node.Fits, List.length_append, List.length_drop]
      omega
    · intro i x
      simp only [Node.Holds]
      by_cases hi : b.endIdx < i
      · have hnone : b.startIdx ≤ i → b.data[i - b.startIdx]? = none := by
          intro hle
          exact List.getElem?_eq_none (by omega)
        have hget : b.startIdx ≤ i →
            (b.data ++ a.data.drop (a.data.length - (a.endIdx - b.endIdx)))[i - b.startIdx]? =
              a.data[i - a.startIdx]? := by
          intro hle
          rw [List.getElem?_append_right (by omega), List.getElem?_drop]
          congr 1
          omega
        constructor
        · rintro ⟨hle, hx⟩
          rw [hget hle] at hx
          exact Or.inr ⟨⟨by omega, hx⟩, hi, hle⟩
        · rintro (⟨hle, hx⟩ | ⟨⟨-, hx⟩, -, hle⟩)
          · rw [hnone hle] at hx
            contradiction
          · exact ⟨hle, by rw [hget hle, hx]⟩
      · have hget : b.startIdx ≤ i →
            (b.data ++ a.data.drop (a.data.length - (a.endIdx - b.endIdx)))[i - b.startIdx]? =
              b.data[i - b.startIdx]? := by
          intro hle
          rw [List.getElem?_append_left (by omega)]
        constructor
        · rintro ⟨hle, hx⟩
          rw [hget hle] at hx
          exact Or.inl ⟨hle, hx⟩
        · rintro (⟨hle, hx⟩ | ⟨-, hlt, -⟩)
          · exact ⟨hle, by rw [hget hle, hx]⟩
          · exact absurd hlt hi
  · simp only [extendRight, if_neg hgt]
    refine ⟨hb, trivial, by omega, ?_⟩
    intro i x
    constructor
    · exact Or.inl
    · rintro (h | ⟨h, hi, -⟩)
      · exact h
      · have hle := h.le_endIdx ha
        omega

/-- Merging two touching nodes: the result spans both, and holds the bytes of
`b` where `b` has one and the bytes of `a` elsewhere. -/
theorem mergeTo_spec {a b : Node} (ha : a.Fits) (hb : b.Fits)
    (hleft : b.startIdx ≤ a.endIdx + 1) (hright : a.startIdx ≤ b.endIdx + 1) :
    (mergeTo a b).Fits ∧
      (mergeTo a b).startIdx = min a.startIdx b.startIdx ∧
      (mergeTo a b).endIdx = max a.endIdx b.endIdx ∧
      ∀ i x, (mergeTo a b).Holds i x ↔
        b.Holds i x ∨ (a.Holds i x ∧ ¬ (b.startIdx ≤ i ∧ i ≤ b.endIdx)) := by
  obtain ⟨hfits, hstart, hend, hholds⟩ := extendLeft_spec ha hb hleft
  obtain ⟨hfits', hstart', hend', hholds'⟩ :=
    extendRight_spec ha hfits (by rw [hend]; exact hright)
  rw [mergeTo_eq]
  refine ⟨hfits', by rw [hstart', hstart], by rw [hend', hend], ?_⟩
  intro i x
  rw [hholds', hholds, hstart, hend]
  constructor
  · rintro ((h | ⟨h, hi⟩) | ⟨h, hi, -⟩)
    · exact Or.inl h
    · exact Or.inr ⟨h, by omega⟩
    · exact Or.inr ⟨h, by omega⟩
  · rintro (h | ⟨h, hi⟩)
    · exact Or.inl (Or.inl h)
    · by_cases hlt : i < b.startIdx
      · exact Or.inl (Or.inr ⟨h, hlt⟩)
      · have hle := h.1
        exact Or.inr ⟨h, by omega, by omega⟩

/-! ## The merge loop -/

theorem touches_iff {it nd : Node} (hit : it.endIdx + 1 < 2 ^ 64) (hnd : nd.endIdx + 1 < 2 ^ 64) :
    it.touches nd = true ↔ nd.startIdx ≤ it.endIdx + 1 ∧ it.startIdx ≤ nd.endIdx + 1 := by
  rw [Node.touches, Word.add_of_lt hit, Word.add_of_lt hnd]
  simp

/-- What the loop makes of a node `nd` and a sorted list of nodes. -/
structure Absorbed (nd : Node) (unassembled : Nat) (nodes : List Node)
    (result : Node × Nat × List Node) : Prop where
  fits : result.1.Fits
  bounded : result.1.endIdx + 1 < 2 ^ 64
  sublist : result.2.2.Sublist nodes
  apart : ∀ n ∈ result.2.2, n.Before result.1 ∨ result.1.Before n
  holds : ∀ i x, (result.1.Holds i x ∨ HoldsIn result.2.2 i x) ↔
    (nd.Holds i x ∨ (HoldsIn nodes i x ∧ ¬ (nd.startIdx ≤ i ∧ i ≤ nd.endIdx)))
  start_le : result.1.startIdx ≤ nd.startIdx
  start_mem : result.1.startIdx = nd.startIdx ∨ ∃ n ∈ nodes, result.1.startIdx = n.startIdx
  end_mem : result.1.endIdx = nd.endIdx ∨ ∃ n ∈ nodes, result.1.endIdx = n.endIdx
  le_end : nd.endIdx ≤ result.1.endIdx
  total : totalBytes nodes ≤ unassembled →
    result.2.1 + totalBytes nodes = unassembled + totalBytes result.2.2

/-- A node after which a gap follows is disjoint from everything further right. -/
private theorem not_spanned_of_holdsIn {nodes : List Node} {it : Node}
    (hafter : ∀ n ∈ nodes, it.Before n) {i : Nat} {x : Byte} (h : HoldsIn nodes i x) :
    it.endIdx + 1 < i := by
  obtain ⟨n, hn, hlo, -⟩ := h
  have hgap := hafter n hn
  unfold Node.Before at hgap
  omega

/-- Nodes that all lie beyond a gap to the right are left as they are. -/
theorem absorbed_of_before {nd : Node} (hfits : nd.Fits) (hbound : nd.endIdx + 1 < 2 ^ 64)
    {nodes : List Node} (hgap : ∀ n ∈ nodes, nd.Before n) (unassembled : Nat) :
    Absorbed nd unassembled nodes (nd, unassembled, nodes) where
  fits := hfits
  bounded := hbound
  sublist := List.Sublist.refl _
  apart := fun n hn => Or.inr (hgap n hn)
  holds := by
    intro i x
    constructor
    · rintro (h | h)
      · exact Or.inl h
      · have hfar := not_spanned_of_holdsIn hgap h
        exact Or.inr ⟨h, by omega⟩
    · rintro (h | ⟨h, -⟩)
      · exact Or.inl h
      · exact Or.inr h
  start_le := le_refl _
  start_mem := Or.inl rfl
  end_mem := Or.inl rfl
  le_end := le_refl _
  total := fun _ => rfl

/-- Nodes that lie left of `nd` and of all further nodes, with a gap, can be put
in front on both sides. -/
theorem Absorbed.prepend {nd : Node} {unassembled : Nat} {nodes : List Node}
    {result : Node × Nat × List Node} (h : Absorbed nd unassembled nodes result)
    (left : List Node)
    (hfits : ∀ n ∈ left, n.Fits) (hgap : ∀ n ∈ left, n.Before nd)
    (hafter : ∀ n ∈ left, ∀ m ∈ nodes, n.Before m) :
    Absorbed nd unassembled (left ++ nodes) (result.1, result.2.1, left ++ result.2.2) where
  fits := h.fits
  bounded := h.bounded
  sublist := h.sublist.append_left left
  apart := by
    intro n hn
    rcases List.mem_append.mp hn with hn | hn
    · left
      unfold Node.Before
      rcases h.start_mem with hstart | ⟨m, hm, hstart⟩
      · rw [hstart]
        exact hgap n hn
      · rw [hstart]
        exact hafter n hn m hm
    · exact h.apart n hn
  holds := by
    intro i x
    have hiff := h.holds i x
    simp only [holdsIn_append]
    constructor
    · rintro (hi | hi | hi)
      · rcases hiff.mp (Or.inl hi) with h' | ⟨h', hout⟩
        · exact Or.inl h'
        · exact Or.inr ⟨Or.inr h', hout⟩
      · obtain ⟨n, hn, hni⟩ := hi
        have hle := hni.le_endIdx (hfits n hn)
        have hlt : n.endIdx + 1 < nd.startIdx := hgap n hn
        exact Or.inr ⟨Or.inl ⟨n, hn, hni⟩, by omega⟩
      · rcases hiff.mp (Or.inr hi) with h' | ⟨h', hout⟩
        · exact Or.inl h'
        · exact Or.inr ⟨Or.inr h', hout⟩
    · rintro (hi | ⟨hi | hi, hout⟩)
      · rcases hiff.mpr (Or.inl hi) with h' | h'
        · exact Or.inl h'
        · exact Or.inr (Or.inr h')
      · exact Or.inr (Or.inl hi)
      · rcases hiff.mpr (Or.inr ⟨hi, hout⟩) with h' | h'
        · exact Or.inl h'
        · exact Or.inr (Or.inr h')
  start_le := h.start_le
  start_mem := by
    rcases h.start_mem with hstart | ⟨n, hn, hstart⟩
    · exact Or.inl hstart
    · exact Or.inr ⟨n, List.mem_append_right _ hn, hstart⟩
  end_mem := by
    rcases h.end_mem with hend | ⟨n, hn, hend⟩
    · exact Or.inl hend
    · exact Or.inr ⟨n, List.mem_append_right _ hn, hend⟩
  le_end := h.le_end
  total := by
    intro hle
    simp only [totalBytes_append] at hle ⊢
    have htotal := h.total (by omega)
    omega

/-- Merging a touching node first and going on with the grown node. -/
theorem Absorbed.merge {nd it : Node} {unassembled : Nat} {rest : List Node}
    {result : Node × Nat × List Node} (hit : it.Proper) (hfits : nd.Fits)
    (hleft : nd.startIdx ≤ it.endIdx + 1) (hright : it.startIdx ≤ nd.endIdx + 1)
    (hafter : ∀ n ∈ rest, it.Before n)
    (h : Absorbed (mergeTo it nd) (unassembled - it.data.length) rest result) :
    Absorbed nd unassembled (it :: rest) result := by
  obtain ⟨-, hmstart, hmend, hmholds⟩ := mergeTo_spec hit.fits hfits hleft hright
  have hitne := hit.nonempty
  refine {
    fits := h.fits
    bounded := h.bounded
    sublist := h.sublist.cons it
    apart := h.apart
    holds := ?_
    start_le := le_trans h.start_le (by rw [hmstart]; omega)
    start_mem := ?_
    end_mem := ?_
    le_end := le_trans (by rw [hmend]; omega) h.le_end
    total := ?_ }
  · intro i x
    rw [h.holds, hmholds, hmstart, hmend, holdsIn_cons]
    constructor
    · rintro ((hi | ⟨hi, hout⟩) | ⟨hi, hout⟩)
      · exact Or.inl hi
      · exact Or.inr ⟨Or.inl hi, hout⟩
      · exact Or.inr ⟨Or.inr hi, by omega⟩
    · rintro (hi | ⟨hi | hi, hout⟩)
      · exact Or.inl (Or.inl hi)
      · exact Or.inl (Or.inr ⟨hi, hout⟩)
      · have hfar := not_spanned_of_holdsIn hafter hi
        exact Or.inr ⟨hi, by omega⟩
  · rcases h.start_mem with hstart | ⟨n, hn, hstart⟩
    · rw [hmstart] at hstart
      rcases min_choice it.startIdx nd.startIdx with hmin | hmin
      · exact Or.inr ⟨it, by simp, by rw [hstart, hmin]⟩
      · exact Or.inl (by rw [hstart, hmin])
    · exact Or.inr ⟨n, by simp [hn], hstart⟩
  · rcases h.end_mem with hend | ⟨n, hn, hend⟩
    · rw [hmend] at hend
      rcases max_choice it.endIdx nd.endIdx with hmax | hmax
      · exact Or.inr ⟨it, by simp, by rw [hend, hmax]⟩
      · exact Or.inl (by rw [hend, hmax])
    · exact Or.inr ⟨n, by simp [hn], hend⟩
  · intro hle
    rw [totalBytes_cons] at hle ⊢
    have htotal := h.total (by omega)
    omega

/-- The loop keeps every byte, and leaves the grown node apart from the rest.
By induction on the nodes from the iterator on; `nd` grows along the way. -/
theorem absorb_spec {nodes : List Node} (hproper : ∀ n ∈ nodes, n.Proper)
    (hsorted : nodes.Pairwise Node.Before) {nd : Node} (hfits : nd.Fits)
    (hbound : nd.endIdx + 1 < 2 ^ 64) (unassembled : Nat) :
    Absorbed nd unassembled nodes (absorb nd unassembled nodes) := by
  induction nodes generalizing nd unassembled with
  | nil => exact absorbed_of_before hfits hbound (by simp) unassembled
  | cons it rest ih =>
      have hit : it.Proper := hproper it (by simp)
      have hrest : ∀ n ∈ rest, n.Proper := fun n hn => hproper n (by simp [hn])
      obtain ⟨hafter, hsorted'⟩ := List.pairwise_cons.mp hsorted
      have hitne := hit.nonempty
      have htest := touches_iff hit.bounded hbound
      have hspan : nd.startIdx + nd.data.length = nd.endIdx + 1 := hfits
      by_cases htouch : it.touches nd = true
      · obtain ⟨hleft, hright⟩ := htest.mp htouch
        obtain ⟨hmfits, -, hmend, -⟩ := mergeTo_spec hit.fits hfits hleft hright
        have hmbound : (mergeTo it nd).endIdx + 1 < 2 ^ 64 := by
          have hb := hit.bounded
          rw [hmend]
          omega
        have hstep : absorb nd unassembled (it :: rest) =
            absorb (mergeTo it nd) (unassembled - it.data.length) rest := by
          simp [absorb, htouch]
        rw [hstep]
        exact Absorbed.merge hit hfits hleft hright hafter
          (ih hrest hsorted' hmfits hmbound (unassembled - it.data.length))
      · by_cases hbreak : it.startIdx > nd.endIdx
        · -- everything from here on is beyond a gap
          have hgap : nd.endIdx + 1 < it.startIdx := by
            by_contra hcon
            exact htouch (htest.mpr ⟨by omega, by omega⟩)
          have hstep : absorb nd unassembled (it :: rest) = (nd, unassembled, it :: rest) := by
            simp [absorb, htouch, hbreak]
          rw [hstep]
          apply absorbed_of_before hfits hbound
          intro n hn
          rcases List.mem_cons.mp hn with rfl | hn
          · exact hgap
          · have hnext : it.endIdx + 1 < n.startIdx := hafter n hn
            exact show nd.endIdx + 1 < n.startIdx by omega
        · -- the node is left of `nd`, with a gap; step over it
          have hgap : it.endIdx + 1 < nd.startIdx := by
            by_contra hcon
            exact htouch (htest.mpr ⟨by omega, by omega⟩)
          have hstep : absorb nd unassembled (it :: rest) =
              ((absorb nd unassembled rest).1, (absorb nd unassembled rest).2.1,
                [it] ++ (absorb nd unassembled rest).2.2) := by
            simp [absorb, htouch, hbreak]
          rw [hstep]
          have hgap' : it.Before nd := hgap
          exact (ih hrest hsorted' hfits hbound unassembled).prepend [it]
            (by simpa using hit.fits) (by simpa using hgap') (by simpa using hafter)

/-- The whole set after the loop: nothing left of the predecessor of
`upper_bound(nd)` can touch the node, so starting there loses nothing. -/
theorem absorbBuffered_spec {r : StreamReassembler} (hproper : ∀ n ∈ r.segBuffer, n.Proper)
    (hsorted : r.segBuffer.Pairwise Node.Before) {nd : Node} (hfits : nd.Fits)
    (hbound : nd.endIdx + 1 < 2 ^ 64) :
    Absorbed nd r.unassembledBytes r.segBuffer
      ((absorbBuffered r nd).2, (absorbBuffered r nd).1.unassembledBytes,
        (absorbBuffered r nd).1.segBuffer) := by
  generalize hbefore : OrderedSet.belowBound Node.lt nd r.segBuffer = before
  generalize hafter : OrderedSet.fromBound Node.lt nd r.segBuffer = after
  -- the predecessor of the bound starts no later than `nd`, and all before it end earlier
  have hnotlt : ∀ n ∈ before, n.startIdx ≤ nd.startIdx := by
    intro n hn
    have hlt : Node.lt nd n = false := by
      rw [← hbefore] at hn
      exact OrderedSet.not_lt_of_mem_belowBound hn
    by_contra hcon
    have hne : nd.startIdx ≠ n.startIdx := by omega
    simp [Node.lt, hne] at hlt
    omega
  have hlast : before.dropLast ++ before.getLast?.toList = before := by
    rcases List.eq_nil_or_concat before with rfl | ⟨init, pred, rfl⟩
    · rfl
    · simp
  -- the loop runs on the second part; the first one is put in front of its result
  have hwhole : before.dropLast ++ (before.getLast?.toList ++ after) = r.segBuffer := by
    rw [← List.append_assoc, hlast, ← hbefore, ← hafter]
    exact OrderedSet.belowBound_append_fromBound
  have hresult : ((absorbBuffered r nd).2, (absorbBuffered r nd).1.unassembledBytes,
      (absorbBuffered r nd).1.segBuffer) =
      ((absorb nd r.unassembledBytes (before.getLast?.toList ++ after)).1,
        (absorb nd r.unassembledBytes (before.getLast?.toList ++ after)).2.1,
        before.dropLast ++
          (absorb nd r.unassembledBytes (before.getLast?.toList ++ after)).2.2) := by
    simp only [absorbBuffered, hbefore, hafter]
  rw [hresult]
  rw [← hwhole] at hproper hsorted
  rw [← hwhole]
  obtain ⟨-, hsuffix, hacross⟩ := List.pairwise_append.mp hsorted
  refine (absorb_spec (fun n hn => hproper n (List.mem_append_right _ hn)) hsuffix hfits hbound
    r.unassembledBytes).prepend _ ?_ ?_ hacross
  · intro n hn
    exact (hproper n (List.mem_append_left _ hn)).fits
  · intro n hn
    rcases List.eq_nil_or_concat before with rfl | ⟨init, pred, rfl⟩
    · simp at hn
    · have hpred : n.endIdx + 1 < pred.startIdx := hacross n hn pred (by simp)
      have hle := hnotlt pred (by simp)
      exact show n.endIdx + 1 < nd.startIdx by omega

end StreamReassembler
end Sponge

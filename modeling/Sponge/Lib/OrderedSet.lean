import Mathlib.Data.List.TakeWhile
import Mathlib.Tactic

/-!
# Ordered sets as lists in iteration order

A `std::set` with a hand-written comparison `lt` is modelled by the list of its
elements in iteration order.  `belowBound` and `fromBound` are the two sides of
`upper_bound`.  `insertUnique` follows the insertion of the red-black tree of
libstdc++: find the upper bound of the key, and insert there unless the element
just before it is not smaller than the key.  The definition never assumes that
`lt` is an order; the lemmas ask for what they need.
-/

namespace Sponge
namespace OrderedSet

variable {α : Type*} (lt : α → α → Bool)

/-- The elements before `upper_bound(k)`. -/
def belowBound (k : α) (xs : List α) : List α :=
  xs.takeWhile fun x => !lt k x

/-- The elements from `upper_bound(k)` on. -/
def fromBound (k : α) (xs : List α) : List α :=
  xs.dropWhile fun x => !lt k x

/-- Insert `k` at its upper bound, unless its predecessor is equivalent to it. -/
def insertUnique (k : α) (xs : List α) : List α :=
  match (belowBound lt k xs).getLast? with
  | none => k :: xs
  | some pred =>
      if lt pred k then belowBound lt k xs ++ k :: fromBound lt k xs else xs

variable {lt} {k : α} {xs : List α}

@[simp] theorem belowBound_append_fromBound :
    belowBound lt k xs ++ fromBound lt k xs = xs :=
  List.takeWhile_append_dropWhile

theorem not_lt_of_mem_belowBound {x : α} (h : x ∈ belowBound lt k xs) : lt k x = false := by
  simpa using List.mem_takeWhile_imp h

theorem mem_of_mem_belowBound {x : α} (h : x ∈ belowBound lt k xs) : x ∈ xs := by
  have hsplit : belowBound lt k xs ++ fromBound lt k xs = xs := belowBound_append_fromBound
  rw [← hsplit]
  exact List.mem_append_left _ h

theorem mem_of_mem_fromBound {x : α} (h : x ∈ fromBound lt k xs) : x ∈ xs := by
  have hsplit : belowBound lt k xs ++ fromBound lt k xs = xs := belowBound_append_fromBound
  rw [← hsplit]
  exact List.mem_append_right _ h

theorem insertUnique_of_belowBound_nil (h : belowBound lt k xs = []) :
    insertUnique lt k xs = k :: xs := by
  simp [insertUnique, h]

/-- When nothing before the bound is equivalent to the key, the key is inserted
between the two sides of the bound. -/
theorem insertUnique_of_lt (h : ∀ x ∈ belowBound lt k xs, lt x k = true) :
    insertUnique lt k xs = belowBound lt k xs ++ k :: fromBound lt k xs := by
  rw [insertUnique]
  cases hlast : (belowBound lt k xs).getLast? with
  | none =>
      have hnil : belowBound lt k xs = [] := List.getLast?_eq_none_iff.mp hlast
      have hall : belowBound lt k xs ++ fromBound lt k xs = xs := belowBound_append_fromBound
      rw [hnil, List.nil_append] at hall
      simp [hnil, hall]
  | some pred =>
      have hmem : pred ∈ belowBound lt k xs := List.mem_of_getLast? hlast
      simp [h pred hmem]

/-- An element equivalent to the key, right before the bound, blocks the insertion. -/
theorem insertUnique_of_equivalent {pre post : List α} {e : α}
    (hpre : ∀ x ∈ pre, lt k x = false) (hke : lt k e = false) (hek : lt e k = false)
    (hpost : ∀ x ∈ post, lt k x = true) :
    insertUnique lt k (pre ++ e :: post) = pre ++ e :: post := by
  have hbelow : belowBound lt k (pre ++ e :: post) = pre ++ [e] := by
    rw [belowBound, List.takeWhile_append_of_pos (by simpa using hpre)]
    rw [List.takeWhile_cons_of_pos (by simp [hke])]
    cases post with
    | nil => rfl
    | cons x rest =>
        have hx : lt k x = true := hpost x List.mem_cons_self
        rw [List.takeWhile_cons_of_neg (by simp [hx])]
  rw [insertUnique, hbelow]
  simp [hek]

/-- Elements strictly below the key stay in front and take no part in the insertion. -/
theorem insertUnique_append {ys : List α} (hkeep : ∀ y ∈ ys, lt k y = false)
    (hbelow : ∀ y ∈ ys, lt y k = true) :
    insertUnique lt k (ys ++ xs) = ys ++ insertUnique lt k xs := by
  have hlo : belowBound lt k (ys ++ xs) = ys ++ belowBound lt k xs := by
    rw [belowBound, List.takeWhile_append_of_pos (by simpa using hkeep)]
    rfl
  have hhi : fromBound lt k (ys ++ xs) = fromBound lt k xs := by
    rw [fromBound, List.dropWhile_append_of_pos (by simpa using hkeep)]
    rfl
  cases hlast : (belowBound lt k xs).getLast? with
  | none =>
      -- the bound is the start of `xs`, so the predecessor is in `ys`
      have hnil : belowBound lt k xs = [] := List.getLast?_eq_none_iff.mp hlast
      have hall : belowBound lt k xs ++ fromBound lt k xs = xs := belowBound_append_fromBound
      rw [hnil, List.nil_append] at hall
      have hlt : ∀ x ∈ belowBound lt k (ys ++ xs), lt x k = true := by
        intro x hx
        rw [hlo, hnil, List.append_nil] at hx
        exact hbelow x hx
      rw [insertUnique_of_lt hlt, insertUnique_of_belowBound_nil hnil, hlo, hhi, hnil, hall]
      simp
  | some pred =>
      simp only [insertUnique, hlo, hhi, List.getLast?_append, hlast, Option.some_or]
      split <;> simp

/-- If `lt` goes from left to right in the list, everything from the bound on is
above the key. -/
theorem lt_of_mem_fromBound (hsorted : xs.Pairwise fun a b => lt k a = true → lt k b = true)
    {x : α} (h : x ∈ fromBound lt k xs) : lt k x = true := by
  induction xs with
  | nil => simp [fromBound] at h
  | cons a rest ih =>
      rw [List.pairwise_cons] at hsorted
      by_cases ha : lt k a = true
      · rw [fromBound, List.dropWhile_cons_of_neg (by simp [ha])] at h
        rcases List.mem_cons.mp h with rfl | hrest
        · exact ha
        · exact hsorted.1 x hrest ha
      · rw [fromBound, List.dropWhile_cons_of_pos (by simpa using ha)] at h
        exact ih hsorted.2 h

/-- Inserting a key that is comparable with every element of a list ordered by
a transitive relation `R` finer than `lt` keeps the list ordered by `R`. -/
theorem pairwise_insertUnique {R : α → α → Prop}
    (htrans : ∀ a b c, R a b → R b c → R a c)
    (hright : ∀ x ∈ xs, R k x → lt k x = true)
    (hleft : ∀ x ∈ xs, R x k → lt k x = false ∧ lt x k = true)
    (hcmp : ∀ x ∈ xs, R x k ∨ R k x) (hxs : xs.Pairwise R) :
    insertUnique lt k xs = belowBound lt k xs ++ k :: fromBound lt k xs ∧
      (insertUnique lt k xs).Pairwise R := by
  have habove : ∀ x ∈ xs, lt k x = true → R k x := by
    intro x hx hlt
    rcases hcmp x hx with h | h
    · have hfalse := (hleft x hx h).1
      rw [hlt] at hfalse
      contradiction
    · exact h
  have hbelow : ∀ x ∈ belowBound lt k xs, R x k := by
    intro x hx
    have hmem := mem_of_mem_belowBound hx
    rcases hcmp x hmem with h | h
    · exact h
    · have htrue := hright x hmem h
      rw [not_lt_of_mem_belowBound hx] at htrue
      contradiction
  have hsorted : xs.Pairwise fun a b => lt k a = true → lt k b = true := by
    refine (List.Pairwise.and_mem.mp hxs).imp ?_
    rintro a b ⟨ha, hb, hab⟩ hlt
    exact hright b hb (htrans _ _ _ (habove a ha hlt) hab)
  have hfrom : ∀ x ∈ fromBound lt k xs, R k x := fun x hx =>
    habove x (mem_of_mem_fromBound hx) (lt_of_mem_fromBound hsorted hx)
  have heq := insertUnique_of_lt fun x hx =>
    (hleft x (mem_of_mem_belowBound hx) (hbelow x hx)).2
  refine ⟨heq, ?_⟩
  rw [heq]
  have hsplit : (belowBound lt k xs ++ fromBound lt k xs).Pairwise R := by simpa using hxs
  rw [List.pairwise_append] at hsplit ⊢
  obtain ⟨hlo, hhi, hacross⟩ := hsplit
  refine ⟨hlo, List.pairwise_cons.mpr ⟨hfrom, hhi⟩, ?_⟩
  intro a ha b hb
  rcases List.mem_cons.mp hb with rfl | hb
  · exact hbelow a ha
  · exact hacross a ha b hb

/-- What an insertion between the two sides of the bound adds is the key. -/
theorem insertUnique_perm
    (h : insertUnique lt k xs = belowBound lt k xs ++ k :: fromBound lt k xs) :
    (insertUnique lt k xs).Perm (k :: xs) := by
  rw [h]
  refine List.perm_middle.trans ?_
  rw [belowBound_append_fromBound]

/-- In a list with strictly decreasing keys, the first element that passes a test
is the one with the greatest key among those that pass it. -/
theorem find?_eq_some_iff_greatest {β : Type*} [LinearOrder β] {f : α → β} {p : α → Bool}
    (hxs : xs.Pairwise fun a b => f b < f a) {r : α} :
    xs.find? p = some r ↔
      r ∈ xs ∧ p r = true ∧ ∀ x ∈ xs, p x = true → f x ≤ f r := by
  induction xs with
  | nil => simp
  | cons a rest ih =>
      rw [List.pairwise_cons] at hxs
      obtain ⟨ha, hrest⟩ := hxs
      cases hpa : p a with
      | false =>
          rw [List.find?_cons_of_neg (by simp [hpa]), ih hrest]
          constructor
          · rintro ⟨hmem, hpr, hmax⟩
            refine ⟨List.mem_cons_of_mem a hmem, hpr, ?_⟩
            intro x hx hpx
            rcases List.mem_cons.mp hx with rfl | hx
            · simp [hpa] at hpx
            · exact hmax x hx hpx
          · rintro ⟨hmem, hpr, hmax⟩
            rcases List.mem_cons.mp hmem with rfl | hmem
            · simp [hpa] at hpr
            · exact ⟨hmem, hpr, fun x hx => hmax x (List.mem_cons_of_mem a hx)⟩
      | true =>
          rw [List.find?_cons_of_pos hpa, Option.some.injEq]
          constructor
          · intro har
            subst har
            refine ⟨List.mem_cons_self, hpa, ?_⟩
            intro x hx _
            rcases List.mem_cons.mp hx with rfl | hx
            · exact le_rfl
            · exact (ha x hx).le
          · rintro ⟨hmem, -, hmax⟩
            rcases List.mem_cons.mp hmem with rfl | hmem
            · rfl
            · have hle : f a ≤ f r := hmax a List.mem_cons_self hpa
              exact absurd (ha r hmem) hle.not_gt

end OrderedSet
end Sponge

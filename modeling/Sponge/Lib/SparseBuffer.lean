import Mathlib.Tactic

/-!
# Sparse buffers: at most one element per index

A sparse buffer is a partial function from indices to elements.  The three
operations are what in-order assembly is made of: overwrite a window with a
slice, read off the contiguous run from a cursor, and forget everything below
an index.  `AgreesWith` compares a buffer with one fixed list.
-/

namespace Sponge
namespace SparseBuffer

variable {α : Type*}

/-- Store `data[j]` at `index + j` for exactly those indices in `[lo, hi)`. -/
def overwrite (held : Nat → Option α) (data : List α) (index lo hi : Nat) : Nat → Option α :=
  fun i =>
    if lo ≤ i ∧ i < hi ∧ index ≤ i ∧ i < index + data.length then data[i - index]? else held i

/-- The contiguous run from `start`, at most `fuel` elements long. -/
def contiguous (held : Nat → Option α) : Nat → Nat → List α
  | _, 0 => []
  | start, fuel + 1 =>
      match held start with
      | none => []
      | some b => b :: contiguous held (start + 1) fuel

/-- Forget everything below `n`. -/
def clearBelow (held : Nat → Option α) (n : Nat) : Nat → Option α :=
  fun i => if i < n then none else held i

/-- The run is `run` when the buffer holds it and nothing right after it. -/
theorem contiguous_eq {held : Nat → Option α} {start fuel : Nat} {run : List α}
    (hrun : ∀ j, j < run.length → held (start + j) = run[j]?)
    (hlen : run.length ≤ fuel)
    (hstop : run.length < fuel → held (start + run.length) = none) :
    contiguous held start fuel = run := by
  induction run generalizing start fuel with
  | nil =>
      cases fuel with
      | zero => rfl
      | succ fuel =>
          have hnone : held start = none := by simpa using hstop
          simp [contiguous, hnone]
  | cons b rest ih =>
      cases fuel with
      | zero => simp at hlen
      | succ fuel =>
          -- the first element stands at `start`, the rest from `start + 1` on
          have hhead : held start = some b := by simpa using hrun 0
          have hrest : contiguous held (start + 1) fuel = rest := by
            apply ih
            · intro j hj
              have hnext := hrun (j + 1) (by simpa using hj)
              rw [show start + 1 + j = start + (j + 1) by omega, hnext]
              simp
            · simpa using hlen
            · intro hlt
              have hnext := hstop (by simpa using hlt)
              rw [show start + 1 + rest.length = start + (b :: rest).length by
                simp; omega]
              exact hnext
          simp [contiguous, hhead, hrest]

theorem contiguous_eq_nil {held : Nat → Option α} {start fuel : Nat}
    (h : held start = none) : contiguous held start fuel = [] := by
  cases fuel with
  | zero => rfl
  | succ fuel => simp [contiguous, h]

/-- The elements of the run are those of the buffer. -/
theorem getElem?_contiguous {held : Nat → Option α} {start fuel j : Nat}
    (hj : j < (contiguous held start fuel).length) :
    (contiguous held start fuel)[j]? = held (start + j) := by
  induction fuel generalizing start j with
  | zero => simp [contiguous] at hj
  | succ fuel ih =>
      cases hb : held start with
      | none => simp [contiguous_eq_nil hb] at hj
      | some b =>
          cases j with
          | zero => simp [contiguous, hb]
          | succ j =>
              have hrest : j < (contiguous held (start + 1) fuel).length := by
                simpa [contiguous, hb] using hj
              have hnext := ih hrest
              rw [show start + (j + 1) = start + 1 + j by omega, ← hnext]
              simp [contiguous, hb]

/-- Every element of the buffer is the element of `whole` at that index. -/
def AgreesWith (held : Nat → Option α) (whole : List α) : Prop :=
  ∀ i b, held i = some b → whole[i]? = some b

theorem AgreesWith.overwrite {held : Nat → Option α} {whole data : List α} {index lo hi : Nat}
    (h : AgreesWith held whole) (hdata : data = (whole.drop index).take data.length) :
    AgreesWith (overwrite held data index lo hi) whole := by
  intro i b hi
  simp only [SparseBuffer.overwrite] at hi
  split_ifs at hi with hin
  · obtain ⟨-, -, hge, hlt⟩ := hin
    rw [hdata, List.getElem?_take_of_lt (by omega), List.getElem?_drop] at hi
    rwa [show index + (i - index) = i by omega] at hi
  · exact h i b hi

theorem AgreesWith.clearBelow {held : Nat → Option α} {whole : List α}
    (h : AgreesWith held whole) (n : Nat) : AgreesWith (clearBelow held n) whole := by
  intro i b hi
  simp only [SparseBuffer.clearBelow] at hi
  split_ifs at hi
  exact h i b hi

/-- Assembling from a buffer that agrees with `whole` yields a slice of it. -/
theorem AgreesWith.contiguous {held : Nat → Option α} {whole : List α}
    (h : AgreesWith held whole) (start fuel : Nat) :
    contiguous held start fuel =
      (whole.drop start).take (contiguous held start fuel).length := by
  induction fuel generalizing start with
  | zero => simp [SparseBuffer.contiguous]
  | succ fuel ih =>
      cases hb : held start with
      | none => simp [contiguous_eq_nil hb]
      | some b =>
          have hget := h start b hb
          have hlt : start < whole.length := (List.getElem?_eq_some_iff.mp hget).1
          have hval : whole[start] = b := (List.getElem?_eq_some_iff.mp hget).2
          have hcons : SparseBuffer.contiguous held start (fuel + 1) =
              b :: SparseBuffer.contiguous held (start + 1) fuel := by
            simp [SparseBuffer.contiguous, hb]
          rw [hcons, List.length_cons, List.drop_eq_getElem_cons hlt, List.take_succ_cons,
            hval, ← ih (start + 1)]

/-- A prefix of `whole` extended by the run at its end is again a prefix. -/
theorem AgreesWith.take_append_contiguous {held : Nat → Option α} {whole : List α}
    (h : AgreesWith held whole) (start fuel : Nat) :
    whole.take start ++ SparseBuffer.contiguous held start fuel =
      whole.take (start + (SparseBuffer.contiguous held start fuel).length) := by
  rw [List.take_add, ← h.contiguous start fuel]

theorem AgreesWith.mono {held : Nat → Option α} {whole more : List α}
    (h : AgreesWith held whole) : AgreesWith held (whole ++ more) := by
  intro i b hi
  have hget := h i b hi
  have hlt : i < whole.length := (List.getElem?_eq_some_iff.mp hget).1
  rw [List.getElem?_append_left hlt, hget]

end SparseBuffer
end Sponge

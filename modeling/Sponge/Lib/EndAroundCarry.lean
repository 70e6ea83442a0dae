import Mathlib.Tactic

/-!
# End-around carry

One's-complement arithmetic in base `b`: the carry out of the lowest digit is added
back to it until no carry is left.  A round keeps the number modulo `b - 1`, and keeps
it nonzero, so the digit that is left is decided by the number: zero for zero, and
otherwise the representative from `1` to `b - 1`.  A number to which the complement of
its digit is added is left with the digit `b - 1`.
-/

namespace Sponge
namespace EndAroundCarry

/-- One round: what is carried out of the lowest digit is added to it. -/
def carry (b n : Nat) : Nat :=
  n / b + n % b

/-- At most `fuel` rounds, as long as there is a carry. -/
def fold (b : Nat) : Nat → Nat → Nat
  | 0, n => n
  | fuel + 1, n => if b ≤ n then fold b fuel (carry b n) else n

variable {b : Nat}

theorem carry_modEq (hb : 0 < b) (n : Nat) : carry b n ≡ n [MOD b - 1] := by
  have hbase : b ≡ 1 [MOD b - 1] := by
    have hsplit : b = (b - 1) + 1 := by omega
    conv_lhs => rw [hsplit]
    exact Nat.add_modEq_left
  have hdigit : b * (n / b) ≡ 1 * (n / b) [MOD b - 1] := hbase.mul_right _
  calc
    carry b n = 1 * (n / b) + n % b := by rw [carry, one_mul]
    _ ≡ b * (n / b) + n % b [MOD b - 1] := hdigit.symm.add_right _
    _ = n := Nat.div_add_mod n b

theorem carry_eq_zero_iff (b n : Nat) : carry b n = 0 ↔ n = 0 := by
  constructor
  · intro h
    obtain ⟨hdiv, hmod⟩ := Nat.add_eq_zero_iff.mp h
    rw [← Nat.div_add_mod n b, hdiv, hmod, Nat.mul_zero]
  · intro h
    rw [h, carry, Nat.zero_div, Nat.zero_mod]

theorem fold_modEq (hb : 0 < b) (fuel n : Nat) : fold b fuel n ≡ n [MOD b - 1] := by
  induction fuel generalizing n with
  | zero => exact Nat.ModEq.refl n
  | succ fuel ih =>
      rw [fold]
      split_ifs
      · exact (ih (carry b n)).trans (carry_modEq hb n)
      · exact Nat.ModEq.refl n

theorem fold_eq_zero_iff (b fuel n : Nat) : fold b fuel n = 0 ↔ n = 0 := by
  induction fuel generalizing n with
  | zero => exact Iff.rfl
  | succ fuel ih =>
      rw [fold]
      split_ifs
      · exact (ih (carry b n)).trans (carry_eq_zero_iff b n)
      · exact Iff.rfl

/-- Of the digits that are zero modulo `b - 1` only the highest is not zero. -/
theorem eq_top_of_modEq_zero {digit : Nat} (hlt : digit < b) (hne : digit ≠ 0)
    (hmod : digit ≡ 0 [MOD b - 1]) : digit = b - 1 := by
  have hdvd : b - 1 ∣ digit := (Nat.modEq_zero_iff_dvd).mp hmod
  have hle : b - 1 ≤ digit := Nat.le_of_dvd (Nat.pos_of_ne_zero hne) hdvd
  omega

/-- When the fold of a number is the highest digit. -/
theorem fold_eq_top_iff (hb : 1 < b) {fuel n : Nat} (hfold : fold b fuel n < b) :
    fold b fuel n = b - 1 ↔ n ≠ 0 ∧ n ≡ 0 [MOD b - 1] := by
  have hpos : 0 < b := by omega
  constructor
  · intro htop
    have hmod : n ≡ b - 1 [MOD b - 1] := by
      rw [← htop]
      nth_rewrite 1 [htop]
      exact (fold_modEq hpos fuel n).symm
    refine ⟨?_, hmod.trans ?_⟩
    · intro hzero
      have := (fold_eq_zero_iff b fuel n).mpr hzero
      omega
    · exact (Nat.modEq_zero_iff_dvd).mpr dvd_rfl
  · rintro ⟨hne, hmod⟩
    refine eq_top_of_modEq_zero hfold ?_ ((fold_modEq hpos fuel n).trans hmod)
    exact fun hzero => hne ((fold_eq_zero_iff b fuel n).mp hzero)

/-- Adding the complement of the digit gives the highest digit. -/
theorem fold_add_complement (hb : 1 < b) {fuel n : Nat} (hfold : fold b fuel n < b)
    (hsum : fold b fuel (n + (b - 1 - fold b fuel n)) < b) :
    fold b fuel (n + (b - 1 - fold b fuel n)) = b - 1 := by
  have hpos : 0 < b := by omega
  rw [fold_eq_top_iff hb hsum]
  constructor
  · -- only zero has the digit zero, whose complement is not
    intro hzero
    have hn : n = 0 := by omega
    have := (fold_eq_zero_iff b fuel n).mpr hn
    omega
  · have hcancel : fold b fuel n + (b - 1 - fold b fuel n) = b - 1 := by omega
    calc
      n + (b - 1 - fold b fuel n) ≡ fold b fuel n + (b - 1 - fold b fuel n) [MOD b - 1] :=
        (fold_modEq hpos fuel n).symm.add_right _
      _ = b - 1 := hcancel
      _ ≡ 0 [MOD b - 1] := (Nat.modEq_zero_iff_dvd).mpr dvd_rfl

/-! ## Addition of digits

Two digits are added with the carry brought around; a list of digits is added
one after the other.  The result is the digit that folding leaves of their
plain sum, whatever the order the carries are brought around in. -/

/-- One's-complement addition of two digits. -/
def add (b x y : Nat) : Nat :=
  carry b (x + y)

/-- The one's-complement sum of a list of digits, from a first digit on. -/
def sum (b x : Nat) (ys : List Nat) : Nat :=
  ys.foldl (add b) x

theorem add_lt {x y : Nat} (hx : x < b) (hy : y < b) : add b x y < b := by
  rw [add, carry]
  by_cases hcarry : b ≤ x + y
  · -- a single carry, and the digit below it is not the highest
    rw [Nat.div_eq_of_lt_le (k := 1) (by omega) (by omega), Nat.mod_eq_sub_mod hcarry,
      Nat.mod_eq_of_lt (by omega)]
    omega
  · rw [Nat.div_eq_of_lt (by omega), Nat.mod_eq_of_lt (by omega)]
    omega

theorem sum_lt {x : Nat} {ys : List Nat} (hx : x < b) (hys : ∀ y ∈ ys, y < b) :
    sum b x ys < b := by
  induction ys generalizing x with
  | nil => exact hx
  | cons y ys ih =>
      have hadd : add b x y < b := add_lt hx (hys y List.mem_cons_self)
      exact ih hadd (fun z hz => hys z (List.mem_cons_of_mem y hz))

theorem sum_modEq (hb : 0 < b) (x : Nat) (ys : List Nat) :
    sum b x ys ≡ x + ys.sum [MOD b - 1] := by
  induction ys generalizing x with
  | nil => exact Nat.ModEq.refl x
  | cons y ys ih =>
      calc
        sum b x (y :: ys) = sum b (add b x y) ys := rfl
        _ ≡ add b x y + ys.sum [MOD b - 1] := ih (add b x y)
        _ ≡ x + y + ys.sum [MOD b - 1] := (carry_modEq hb (x + y)).add_right _
        _ = x + (y :: ys).sum := by rw [List.sum_cons, Nat.add_assoc]

theorem sum_eq_zero_iff (b x : Nat) (ys : List Nat) :
    sum b x ys = 0 ↔ x + ys.sum = 0 := by
  induction ys generalizing x with
  | nil => exact Iff.rfl
  | cons y ys ih =>
      have hhead : add b x y = 0 ↔ x + y = 0 := carry_eq_zero_iff b (x + y)
      rw [show sum b x (y :: ys) = sum b (add b x y) ys from rfl, ih, List.sum_cons]
      omega

/-- A digit is known from its class modulo `b - 1` and from whether it is zero. -/
theorem digit_unique {x y : Nat} (hx : x < b) (hy : y < b) (hzero : x = 0 ↔ y = 0)
    (hmod : x ≡ y [MOD b - 1]) : x = y := by
  by_cases hx0 : x = 0
  · rw [hx0, hzero.mp hx0]
  · have hy0 : y ≠ 0 := fun h => hx0 (hzero.mpr h)
    -- shifted down by one, both are below the modulus
    have hshift : x - 1 ≡ y - 1 [MOD b - 1] := by
      apply Nat.ModEq.add_right_cancel' 1
      rwa [Nat.sub_add_cancel (by omega), Nat.sub_add_cancel (by omega)]
    have heq : x - 1 = y - 1 :=
      Nat.ModEq.eq_of_lt_of_lt hshift (by omega) (by omega)
    omega

/-- Bringing all carries around at the end gives the one's-complement sum. -/
theorem fold_eq_sum {fuel n x : Nat} {ys : List Nat} (hx : x < b) (hys : ∀ y ∈ ys, y < b)
    (hfold : fold b fuel n < b) (hzero : n = 0 ↔ x + ys.sum = 0)
    (hmod : n ≡ x + ys.sum [MOD b - 1]) : fold b fuel n = sum b x ys := by
  have hb : 0 < b := by omega
  apply digit_unique hfold (sum_lt hx hys)
  · rw [fold_eq_zero_iff, sum_eq_zero_iff, hzero]
  · calc
      fold b fuel n ≡ n [MOD b - 1] := fold_modEq hb fuel n
      _ ≡ x + ys.sum [MOD b - 1] := hmod
      _ ≡ sum b x ys [MOD b - 1] := (sum_modEq hb x ys).symm

end EndAroundCarry
end Sponge

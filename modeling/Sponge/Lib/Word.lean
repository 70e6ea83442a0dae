import Mathlib.Tactic

/-!
# Fixed-width unsigned arithmetic on natural numbers

An unsigned machine integer of `w` bits is a natural number below `2 ^ w`.
Addition and subtraction wrap around, as they do for unsigned integers in C
and C++.  The lemmas say when the wrap-around is invisible: a sum that fits is
the plain sum, and a difference of an ordered pair is the plain difference.
-/

namespace Sponge
namespace Word

/-- Unsigned `w`-bit addition. -/
def add (w a b : Nat) : Nat :=
  (a + b) % 2 ^ w

/-- Unsigned `w`-bit subtraction. -/
def sub (w a b : Nat) : Nat :=
  (a + (2 ^ w - b % 2 ^ w)) % 2 ^ w

theorem add_eq (w a b : Nat) : add w a b = (a + b) % 2 ^ w := rfl

theorem add_lt (w a b : Nat) : add w a b < 2 ^ w :=
  Nat.mod_lt _ (Nat.two_pow_pos w)

theorem sub_lt (w a b : Nat) : sub w a b < 2 ^ w :=
  Nat.mod_lt _ (Nat.two_pow_pos w)

theorem add_le (w a b : Nat) : add w a b ≤ a + b :=
  Nat.mod_le _ _

/-- A sum that fits in the word is not wrapped. -/
theorem add_of_lt {w a b : Nat} (h : a + b < 2 ^ w) : add w a b = a + b :=
  Nat.mod_eq_of_lt h

/-- Adding nothing changes nothing. -/
theorem add_zero {w a : Nat} (ha : a < 2 ^ w) : add w a 0 = a :=
  add_of_lt ha

/-- A sum of exactly `2 ^ w` wraps to zero. -/
theorem add_of_eq {w a b : Nat} (h : a + b = 2 ^ w) : add w a b = 0 := by
  rw [add, h, Nat.mod_self]

/-- An ordered difference is not wrapped. -/
theorem sub_of_le {w a b : Nat} (ha : a < 2 ^ w) (hb : b ≤ a) : sub w a b = a - b := by
  have hbw : b % 2 ^ w = b := Nat.mod_eq_of_lt (lt_of_le_of_lt hb ha)
  have hsum : a + (2 ^ w - b) = (a - b) + 2 ^ w := by omega
  rw [sub, hbw, hsum, Nat.add_mod_right]
  exact Nat.mod_eq_of_lt (by omega)

/-- The difference of a sum is right as soon as the true difference fits, even
when the sum itself was wrapped. -/
theorem sub_add_of_le {w a b c : Nat} (hc : c ≤ a + b) (hlt : a + b - c < 2 ^ w) :
    sub w (add w a b) c = a + b - c := by
  have hmod : c % 2 ^ w < 2 ^ w := Nat.mod_lt _ (Nat.two_pow_pos w)
  have hsplit : c = 2 ^ w * (c / 2 ^ w) + c % 2 ^ w := (Nat.div_add_mod c (2 ^ w)).symm
  have hsum : a + b + (2 ^ w - c % 2 ^ w) = a + b - c + 2 ^ w * (c / 2 ^ w + 1) := by
    rw [Nat.mul_add]
    omega
  calc
    sub w (add w a b) c = (a + b + (2 ^ w - c % 2 ^ w)) % 2 ^ w := by
      rw [sub, add, Nat.mod_add_mod]
    _ = (a + b - c) % 2 ^ w := by rw [hsum, Nat.add_mul_mod_self_left]
    _ = a + b - c := Nat.mod_eq_of_lt hlt

/-- Subtracting what was added gives the first operand back, whether or not the
sum was wrapped. -/
theorem sub_add_cancel {w a b : Nat} (ha : a < 2 ^ w) : sub w (add w a b) b = a := by
  rw [sub_add_of_le (Nat.le_add_left b a) (by omega)]
  omega

/-- A difference grows by what is added, whether or not the sum was wrapped. -/
theorem sub_add (w a b c : Nat) : sub w (add w a b) c = (sub w a c + b) % 2 ^ w := by
  rw [sub, sub, add, Nat.mod_add_mod, Nat.mod_add_mod]
  congr 1
  omega

@[simp] theorem sub_self (w a : Nat) : sub w a a = 0 := by
  have hmod : a % 2 ^ w < 2 ^ w := Nat.mod_lt _ (Nat.two_pow_pos w)
  rw [sub, ← Nat.mod_add_mod]
  have hsum : a % 2 ^ w + (2 ^ w - a % 2 ^ w) = 2 ^ w := by omega
  rw [hsum, Nat.mod_self]

/-- Two words are equal exactly if their difference is zero. -/
theorem sub_eq_zero_iff {w a b : Nat} (ha : a < 2 ^ w) (hb : b < 2 ^ w) :
    sub w a b = 0 ↔ a = b := by
  constructor
  · intro hzero
    have hadd := sub_add w a b b
    rw [sub_add_cancel ha, hzero, Nat.zero_add, Nat.mod_eq_of_lt hb] at hadd
    exact hadd
  · rintro rfl
    exact sub_self w a

/-! A counter that is kept modulo `2 ^ w` shows a true count. -/

theorem add_mod_left (w a b : Nat) : add w (a % 2 ^ w) b = (a + b) % 2 ^ w := by
  rw [add, Nat.mod_add_mod]

/-- The difference of two readings is the true difference, modulo `2 ^ w`. -/
theorem sub_mod_mod {w a b : Nat} (h : b ≤ a) :
    sub w (a % 2 ^ w) (b % 2 ^ w) = (a - b) % 2 ^ w := by
  have hmod : b % 2 ^ w < 2 ^ w := Nat.mod_lt _ (Nat.two_pow_pos w)
  have hsplit : b = 2 ^ w * (b / 2 ^ w) + b % 2 ^ w := (Nat.div_add_mod b (2 ^ w)).symm
  have hsum : a + (2 ^ w - b % 2 ^ w) = a - b + 2 ^ w * (b / 2 ^ w + 1) := by
    rw [Nat.mul_add]
    omega
  rw [sub, Nat.mod_mod, Nat.mod_add_mod, hsum, Nat.add_mul_mod_self_left]

-- Callers reason through the lemmas above; unfolding would make definitional
-- equality tests compute with `2 ^ w` in unary.
attribute [irreducible] add sub

end Word
end Sponge

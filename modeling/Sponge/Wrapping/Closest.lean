import Sponge.WrappingIntegers

/-!
# The closest match of a sequence number

`unwrap` is documented to return the absolute sequence number that wraps to
`n` and is closest to the checkpoint.  The numbers that wrap to `n` lie one
block of `2 ^ 32` apart, so the closest one is in the checkpoint's block or in
a neighbour of it, and `unwrap` forms exactly these three candidates.

At the lower end of the 64-bit range the source has a test of its own: in block
zero there is no candidate below, and `mid < max_int` keeps the one of the
block.  At the upper end it has none.  In the last block the candidate above is
`2 ^ 64` or more, its 64-bit value is the small number `seqOffset n isn`, and
the difference `right - checkpoint` is the distance to the number that does not
exist.  `StepsPastEnd` says when that candidate wins.
-/

namespace Sponge

/-- No 64-bit number that wraps to `n` is closer to `checkpoint` than `r`,
which is one of them.  Distances are those of the integers. -/
def ClosestMatch (n isn : WrappingInt32) (checkpoint r : Nat) : Prop :=
  wrap r isn = n ∧
    ∀ v : Nat, v < 2 ^ 64 → wrap v isn = n →
      |(r : ℤ) - checkpoint| ≤ |(v : ℤ) - checkpoint|

/-- The checkpoint lies in the last block of the 64-bit range, more than half a
block after the number of that block that wraps to `n`. -/
def StepsPastEnd (n isn : WrappingInt32) (checkpoint : Nat) : Prop :=
  2 ^ 64 - 2 ^ 32 ≤ checkpoint ∧ seqOffset n isn + 2 ^ 31 < checkpoint % 2 ^ 32

instance (n isn : WrappingInt32) (checkpoint : Nat) :
    Decidable (StepsPastEnd n isn checkpoint) :=
  inferInstanceAs (Decidable (_ ∧ _))

/-- Integer distances to one point, compared through truncated subtraction. -/
theorem abs_cast_sub_le_iff (a b c : Nat) :
    |(a : ℤ) - c| ≤ |(b : ℤ) - c| ↔ a - c + (c - a) ≤ b - c + (c - b) := by
  have hdist : ∀ x : Nat, |(x : ℤ) - c| = ((x - c + (c - x) : Nat) : ℤ) := by
    intro x
    rcases abs_cases ((x : ℤ) - c) with ⟨habs, hsign⟩ | ⟨habs, hsign⟩
    · omega
    · omega
  rw [hdist a, hdist b, Int.ofNat_le]

/-- Past the end of the range the answer is the wrapped candidate: the offset
itself, a number of block zero. -/
theorem unwrap_of_stepsPastEnd {n isn : WrappingInt32} {checkpoint : Nat}
    (hc : checkpoint < 2 ^ 64) (hpast : StepsPastEnd n isn checkpoint) :
    unwrap n isn checkpoint = seqOffset n isn := by
  obtain ⟨hlast, hfar⟩ := hpast
  have hoff := seqOffset_lt n isn
  have hblock : checkpoint / maxInt * maxInt = 2 ^ 64 - 2 ^ 32 := by
    rw [maxInt]
    omega
  rw [unwrap_eq n isn hc rfl, hblock, Word.add_eq]
  rw [maxInt] at hoff ⊢
  rw [if_neg (by omega), if_pos (by omega)]
  omega

/-- Everywhere else the answer is within half a block of the checkpoint, or it
is the only candidate of block zero and the checkpoint lies below it. -/
theorem unwrap_near {n isn : WrappingInt32} {checkpoint : Nat} (hc : checkpoint < 2 ^ 64)
    (hpast : ¬ StepsPastEnd n isn checkpoint) :
    (unwrap n isn checkpoint ≤ checkpoint + 2 ^ 31 ∧
        checkpoint ≤ unwrap n isn checkpoint + 2 ^ 31) ∨
      (unwrap n isn checkpoint < 2 ^ 32 ∧ checkpoint < unwrap n isn checkpoint) := by
  have hoff := seqOffset_lt n isn
  have hinside : ¬ (2 ^ 64 - 2 ^ 32 ≤ checkpoint ∧
      seqOffset n isn + 2 ^ 31 < checkpoint % 2 ^ 32) := hpast
  rw [unwrap_eq n isn hc rfl, Word.add_eq]
  rw [maxInt] at hoff ⊢
  split_ifs <;> omega

/-- Numbers that wrap alike are whole blocks apart. -/
theorem mod_eq_of_wrap_eq {v r : Nat} {n isn : WrappingInt32} (hv : wrap v isn = n)
    (hr : wrap r isn = n) : v % 2 ^ 32 = r % 2 ^ 32 :=
  ((wrap_eq_iff v n isn).mp hv).trans ((wrap_eq_iff r n isn).mp hr).symm

/-- The documented contract of `unwrap` holds exactly if the candidate above
the checkpoint's block, where it is the nearer one, is still a 64-bit number. -/
theorem unwrap_closest_iff (n isn : WrappingInt32) (checkpoint : Nat)
    (hc : checkpoint < 2 ^ 64) :
    ClosestMatch n isn checkpoint (unwrap n isn checkpoint) ↔
      ¬ StepsPastEnd n isn checkpoint := by
  constructor
  · -- The number of the last block that wraps to `n` is a better match.
    rintro ⟨-, hclosest⟩ hpast
    have hoff := seqOffset_lt n isn
    rw [maxInt] at hoff
    have hwrap : wrap (seqOffset n isn + (2 ^ 64 - 2 ^ 32)) isn = n := by
      rw [wrap_eq_iff, maxInt]
      omega
    have hle := hclosest _ (by omega) hwrap
    rw [unwrap_of_stepsPastEnd hc hpast, abs_cast_sub_le_iff] at hle
    obtain ⟨hlast, hfar⟩ := hpast
    omega
  · intro hpast
    refine ⟨wrap_unwrap n isn hc, fun v hv hwrap => ?_⟩
    have hmod := mod_eq_of_wrap_eq hwrap (wrap_unwrap n isn hc)
    rw [abs_cast_sub_le_iff]
    rcases unwrap_near hc hpast with hnear | hfirst
    · omega
    · omega

/-- In the last block, just before its end: the match of the block is the
checkpoint itself. -/
theorem unwrap_closest_iff_last :
    ClosestMatch ⟨4294967295⟩ ⟨0⟩ (2 ^ 64 - 1) (unwrap ⟨4294967295⟩ ⟨0⟩ (2 ^ 64 - 1)) :=
  (unwrap_closest_iff ⟨4294967295⟩ ⟨0⟩ (2 ^ 64 - 1) (by norm_num)).mpr (by decide +kernel)

/-- The initial sequence number seen at the last checkpoint is unwrapped to `0`
although `2 ^ 64 - 2 ^ 32` wraps to it too and is far closer. -/
theorem unwrap_not_closest :
    unwrap ⟨0⟩ ⟨0⟩ (2 ^ 64 - 1) = 0 ∧ wrap (2 ^ 64 - 2 ^ 32) ⟨0⟩ = ⟨0⟩ ∧
      ¬ ClosestMatch ⟨0⟩ ⟨0⟩ (2 ^ 64 - 1) (unwrap ⟨0⟩ ⟨0⟩ (2 ^ 64 - 1)) := by
  have hzero : unwrap ⟨0⟩ ⟨0⟩ (2 ^ 64 - 1) = 0 := by decide +kernel
  have hwrap : wrap (2 ^ 64 - 2 ^ 32) ⟨0⟩ = ⟨0⟩ := by decide +kernel
  refine ⟨hzero, hwrap, ?_⟩
  rintro ⟨-, hclosest⟩
  have hle := hclosest (2 ^ 64 - 2 ^ 32) (by norm_num) hwrap
  rw [hzero, abs_cast_sub_le_iff] at hle
  omega

/-- A sequence number survives the wire whenever the other side's checkpoint is
less than half a block away from it, in whichever blocks the two lie. -/
theorem unwrap_wrap_of_abs_lt (x checkpoint : Nat) (isn : WrappingInt32)
    (hx : x < 2 ^ 64) (hc : checkpoint < 2 ^ 64)
    (hnear : |(x : ℤ) - checkpoint| < 2 ^ 31) :
    unwrap (wrap x isn) isn checkpoint = x := by
  obtain ⟨hlow, hhigh⟩ := abs_lt.mp hnear
  apply unwrap_wrap_of_near isn hx hc
  · omega
  · omega

/-- Across the border of the last block, from a checkpoint on its other side. -/
theorem unwrap_wrap_across_blocks :
    unwrap (wrap (2 ^ 64 - 2 ^ 32) ⟨7⟩) ⟨7⟩ (2 ^ 64 - 2 ^ 32 - 5) = 2 ^ 64 - 2 ^ 32 :=
  unwrap_wrap_of_abs_lt (2 ^ 64 - 2 ^ 32) (2 ^ 64 - 2 ^ 32 - 5) ⟨7⟩ (by norm_num)
    (by norm_num) (by norm_num)

end Sponge

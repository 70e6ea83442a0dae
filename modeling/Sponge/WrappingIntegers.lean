import Sponge.Lib.Word

/-!
# Wrapping sequence numbers

The 32-bit sequence numbers of `wrapping_integers.hh` and the two conversions
of `wrapping_integers.cc` between them and 64-bit absolute sequence numbers.
All intermediate values of `unwrap` are `uint64_t` in the source, so its sums
and differences are 64-bit word operations here.
-/

namespace Sponge

/-- A 32-bit integer relative to an arbitrary initial sequence number. -/
structure WrappingInt32 where
  rawValue : UInt32
deriving DecidableEq, Repr

/-- The constant `max_int` of the source. -/
def maxInt : Nat := 4294967296

/-- Absolute to relative sequence number. -/
def wrap (n : Nat) (isn : WrappingInt32) : WrappingInt32 :=
  ⟨UInt32.ofNat ((isn.rawValue.toNat + n) % maxInt)⟩

/-- Relative to absolute sequence number, near `checkpoint`. -/
def unwrap (n isn : WrappingInt32) (checkpoint : Nat) : Nat :=
  let offset := (maxInt - isn.rawValue.toNat + n.rawValue.toNat) % maxInt
  let mid := Word.add 64 offset (checkpoint / maxInt * maxInt)
  let right := Word.add 64 mid maxInt
  let left := Word.sub 64 mid maxInt
  if mid > checkpoint then
    if Word.sub 64 mid checkpoint < Word.sub 64 checkpoint left ∨ mid < maxInt then mid else left
  else
    if Word.sub 64 right checkpoint < Word.sub 64 checkpoint mid then right else mid

theorem WrappingInt32.ext_toNat {a b : WrappingInt32}
    (h : a.rawValue.toNat = b.rawValue.toNat) : a = b := by
  cases a
  cases b
  exact congrArg WrappingInt32.mk (UInt32.toNat_inj.mp h)

@[simp] theorem wrap_toNat (n : Nat) (isn : WrappingInt32) :
    (wrap n isn).rawValue.toNat = (isn.rawValue.toNat + n) % maxInt := by
  simp [wrap, maxInt]

@[simp] theorem wrap_zero (isn : WrappingInt32) : wrap 0 isn = isn := by
  apply WrappingInt32.ext_toNat
  have hlt := isn.rawValue.toNat_lt
  rw [wrap_toNat, maxInt]
  omega

/-- Moving the initial sequence number by `a` shifts every absolute number by `a`. -/
theorem wrap_wrap (n a : Nat) (isn : WrappingInt32) :
    wrap n (wrap a isn) = wrap (a + n) isn := by
  apply WrappingInt32.ext_toNat
  rw [wrap_toNat, wrap_toNat, wrap_toNat, Nat.mod_add_mod, Nat.add_assoc]

theorem unwrap_lt (n isn : WrappingInt32) (checkpoint : Nat) :
    unwrap n isn checkpoint < 2 ^ 64 := by
  simp only [unwrap]
  split_ifs
  · exact Word.add_lt _ _ _
  · exact Word.sub_lt _ _ _
  · exact Word.add_lt _ _ _
  · exact Word.add_lt _ _ _

/-- How far `n` lies after the initial sequence number, in 32-bit arithmetic. -/
def seqOffset (n isn : WrappingInt32) : Nat :=
  (n.rawValue - isn.rawValue).toNat

theorem seqOffset_lt (n isn : WrappingInt32) : seqOffset n isn < maxInt :=
  (n.rawValue - isn.rawValue).toNat_lt

/-- The value `unwrap` starts from, before it is moved to the checkpoint's block. -/
theorem unwrap_offset (n isn : WrappingInt32) :
    (maxInt - isn.rawValue.toNat + n.rawValue.toNat) % maxInt = seqOffset n isn :=
  (UInt32.toNat_sub n.rawValue isn.rawValue).symm

/-- The absolute numbers that wrap to `n` are the ones at its offset. -/
theorem wrap_eq_iff (x : Nat) (n isn : WrappingInt32) :
    wrap x isn = n ↔ x % maxInt = seqOffset n isn := by
  have hisn := isn.rawValue.toNat_lt
  have hn := n.rawValue.toNat_lt
  rw [← unwrap_offset, maxInt]
  constructor
  · rintro rfl
    rw [wrap_toNat, maxInt]
    omega
  · intro hmod
    apply WrappingInt32.ext_toNat
    rw [wrap_toNat, maxInt]
    omega

/-- `unwrap` in plain arithmetic: the candidate of the checkpoint's block, or
its neighbour one block down or up when that is nearer.  Only the step up is
still a word operation: from the last block it leaves the 64-bit range. -/
theorem unwrap_eq (n isn : WrappingInt32) {checkpoint mid : Nat} (hc : checkpoint < 2 ^ 64)
    (hmid : seqOffset n isn + checkpoint / maxInt * maxInt = mid) :
    unwrap n isn checkpoint =
      if checkpoint < mid then
        if mid < checkpoint + 2 ^ 31 ∨ mid < maxInt then mid else mid - maxInt
      else
        if mid + 2 ^ 31 < checkpoint then Word.add 64 mid maxInt else mid := by
  have hoff := seqOffset_lt n isn
  have hM : maxInt = 4294967296 := rfl
  have hblock : checkpoint / maxInt * maxInt = checkpoint / 4294967296 * 4294967296 := rfl
  have hsum : Word.add 64 (seqOffset n isn) (checkpoint / maxInt * maxInt) = mid := by
    rw [Word.add_of_lt (by omega), hmid]
  simp only [unwrap, unwrap_offset, hsum]
  by_cases hgt : checkpoint < mid
  · rw [if_pos hgt, if_pos hgt, Word.sub_of_le (by omega) hgt.le]
    by_cases hfirst : mid < maxInt
    · rw [if_pos (Or.inr hfirst), if_pos (Or.inr hfirst)]
    · rw [Word.sub_of_le (a := mid) (b := maxInt) (by omega) (by omega),
        Word.sub_of_le hc (by omega)]
      have hiff : mid - checkpoint < checkpoint - (mid - maxInt) ↔
          mid < checkpoint + 2 ^ 31 := by omega
      simp only [hiff]
  · have hright : Word.sub 64 (Word.add 64 mid maxInt) checkpoint =
        mid + maxInt - checkpoint :=
      Word.sub_add_of_le (by omega) (by omega)
    have hiff : mid + maxInt - checkpoint < checkpoint - mid ↔
        mid + 2 ^ 31 < checkpoint := by omega
    rw [if_neg hgt, if_neg hgt, hright, Word.sub_of_le hc (by omega)]
    simp only [hiff]

/-- Unwrapping keeps the number seen on the wire. -/
theorem wrap_unwrap (n isn : WrappingInt32) {checkpoint : Nat} (hc : checkpoint < 2 ^ 64) :
    wrap (unwrap n isn checkpoint) isn = n := by
  have hoff := seqOffset_lt n isn
  rw [wrap_eq_iff, unwrap_eq n isn hc rfl, Word.add_eq]
  rw [maxInt] at hoff ⊢
  split_ifs <;> omega

/-- A sequence number survives the wire when the checkpoint is less than
`2 ^ 31` away from it. -/
theorem unwrap_wrap_of_near {x checkpoint : Nat} (isn : WrappingInt32)
    (hx : x < 2 ^ 64) (hc : checkpoint < 2 ^ 64)
    (hlow : checkpoint < x + 2 ^ 31) (hhigh : x < checkpoint + 2 ^ 31) :
    unwrap (wrap x isn) isn checkpoint = x := by
  have hoff : x % maxInt = seqOffset (wrap x isn) isn := (wrap_eq_iff x _ isn).mp rfl
  -- The candidate lies in the checkpoint's block; `x` is in that block or a neighbour.
  rw [unwrap_eq (wrap x isn) isn hc rfl, Word.add_eq, ← hoff, maxInt]
  split_ifs <;> omega

end Sponge

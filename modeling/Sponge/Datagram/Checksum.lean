import Sponge.Lib.EndAroundCarry
import Sponge.Parser

/-!
# The Internet checksum

What `InternetChecksum` computes, as a number: the plain sum of the 16-bit words that
the bytes form, as long as it fits the 32-bit accumulator, and the complement of what
end-around carry leaves of it.  A checksum computed over data whose checksum field is
zero, and then written into that field, makes the whole check out.
-/

namespace Sponge
namespace InternetChecksum

/-- What bytes add to the sum; `parity` tells whether the first of them is the low byte
of its word. -/
def wordSum : Bool → List Byte → Nat
  | _, [] => 0
  | parity, byte :: rest =>
      (if parity then byte.toNat else byte.toNat * 256) + wordSum (!parity) rest

theorem wordSum_append (parity : Bool) (xs ys : List Byte) :
    wordSum parity (xs ++ ys) = wordSum parity xs + wordSum (parity ^^ xs.length.bodd) ys := by
  induction xs generalizing parity with
  | nil => simp [wordSum]
  | cons byte xs ih =>
      have hparity : ((!parity) ^^ xs.length.bodd) = (parity ^^ (byte :: xs).length.bodd) := by
        simp
      rw [List.cons_append, wordSum, wordSum, ih, hparity, Nat.add_assoc]

/-- Each byte adds at most a word with the low byte zero. -/
theorem wordSum_le (parity : Bool) (data : List Byte) :
    wordSum parity data ≤ 65280 * data.length := by
  induction data generalizing parity with
  | nil => exact Nat.zero_le _
  | cons byte rest ih =>
      have hrest := ih (!parity)
      have hbyte := byte.toNat_lt
      rw [wordSum, List.length_cons]
      split_ifs <;> omega

theorem wordSum_u16 (val : UInt16) : wordSum false (NetUnparser.u16 val) = val.toNat := by
  have hval := val.toNat_lt
  have hbytes : NetUnparser.u16 val = [(val.toNat >>> 8).toUInt8, val.toNat.toUInt8] := rfl
  rw [hbytes]
  simp only [wordSum, Nat.toUInt8_eq, UInt8.toNat_ofNat', Nat.shiftRight_eq_div_pow]
  simp only [Bool.not_false, if_true, Bool.false_eq_true, if_false]
  omega

/-! ## The accumulator -/

theorem add_append (c : InternetChecksum) (xs ys : List Byte) :
    c.add (xs ++ ys) = (c.add xs).add ys :=
  List.foldl_append

/-- A sum that fits its 32 bits is the plain sum. -/
theorem sum_add {c : InternetChecksum} {data : List Byte}
    (h : c.sum + wordSum c.parity data < 2 ^ 32) :
    (c.add data).sum = c.sum + wordSum c.parity data := by
  induction data generalizing c with
  | nil => rfl
  | cons byte rest ih =>
      rw [wordSum, ← Nat.add_assoc] at h
      have hfirst : (c.addByte byte).sum =
          c.sum + (if c.parity then byte.toNat else byte.toNat * 256) :=
        Word.add_of_lt (by omega)
      have hrest : (c.addByte byte).sum + wordSum (c.addByte byte).parity rest < 2 ^ 32 := by
        rw [hfirst]
        exact h
      calc
        (c.add (byte :: rest)).sum = ((c.addByte byte).add rest).sum := rfl
        _ = (c.addByte byte).sum + wordSum (!c.parity) rest := ih hrest
        _ = c.sum + wordSum c.parity (byte :: rest) := by rw [hfirst, wordSum, Nat.add_assoc]

/-! ## The value -/

theorem foldCarries_eq_fold (fuel ret : Nat) :
    foldCarries fuel ret = EndAroundCarry.fold 65536 fuel ret := by
  induction fuel generalizing ret with
  | zero => rfl
  | succ fuel ih =>
      rw [foldCarries, EndAroundCarry.fold, ih, EndAroundCarry.carry]
      exact if_congr (by omega) rfl rfl

theorem toNat_value {c : InternetChecksum} (h : c.sum < 2 ^ 32) :
    c.value.toNat = 65535 - foldCarries 2 c.sum := by
  have hle := foldCarries_le h
  rw [value, UInt16.toNat_not, Nat.toUInt16_eq, UInt16.toNat_ofNat',
    Nat.mod_eq_of_lt (show foldCarries 2 c.sum < 2 ^ 16 by omega)]
  rfl

theorem value_eq_zero_iff {c : InternetChecksum} (h : c.sum < 2 ^ 32) :
    c.value = 0 ↔ foldCarries 2 c.sum = 65535 := by
  have hle := foldCarries_le h
  rw [← UInt16.toNat_inj, toNat_value h]
  show 65535 - foldCarries 2 c.sum = 0 ↔ foldCarries 2 c.sum = 65535
  omega

/-- The checksum is zero for the sums that are positive multiples of `65535`. -/
theorem value_eq_zero_iff_modEq {c : InternetChecksum} (h : c.sum < 2 ^ 32) :
    c.value = 0 ↔ c.sum ≠ 0 ∧ c.sum ≡ 0 [MOD 65535] := by
  have hfold : EndAroundCarry.fold 65536 2 c.sum < 65536 := by
    rw [← foldCarries_eq_fold]
    exact Nat.lt_succ_of_le (foldCarries_le h)
  rw [value_eq_zero_iff h, foldCarries_eq_fold]
  exact EndAroundCarry.fold_eq_top_iff (by norm_num) hfold

/-- **One changed byte is noticed.**  It changes the sum by less than `65535`, whichever half
of its word it is. -/
theorem value_ne_zero_of_changed {initial : Nat} {before after : List Byte} {x y : Byte}
    (hne : x ≠ y) (hfits : initial + 65280 * (before.length + 1 + after.length) < 2 ^ 32)
    (hgood : (add ⟨initial, false⟩ (before ++ x :: after)).value = 0) :
    (add ⟨initial, false⟩ (before ++ y :: after)).value ≠ 0 := by
  have hsum : ∀ byte : Byte, (add ⟨initial, false⟩ (before ++ byte :: after)).sum < 2 ^ 32 ∧
      (add ⟨initial, false⟩ (before ++ byte :: after)).sum =
        initial + wordSum false (before ++ byte :: after) := by
    intro byte
    have hbound := wordSum_le false (before ++ byte :: after)
    have hlen : (before ++ byte :: after).length = before.length + 1 + after.length := by
      simp
      omega
    rw [hlen] at hbound
    have heq : (add ⟨initial, false⟩ (before ++ byte :: after)).sum =
        initial + wordSum false (before ++ byte :: after) := sum_add (by simp only; omega)
    refine ⟨?_, heq⟩
    rw [heq]
    omega
  obtain ⟨hxfits, hxsum⟩ := hsum x
  obtain ⟨hyfits, hysum⟩ := hsum y
  intro hbad
  have hgoodmod := ((value_eq_zero_iff_modEq hxfits).mp hgood).2
  have hbadmod := ((value_eq_zero_iff_modEq hyfits).mp hbad).2
  rw [hxsum, wordSum_append, wordSum] at hgoodmod
  rw [hysum, wordSum_append, wordSum] at hbadmod
  have hx := x.toNat_lt
  have hy := y.toNat_lt
  have hdiffer : x.toNat ≠ y.toNat := fun heq => hne (UInt8.toNat_inj.mp heq)
  unfold Nat.ModEq at hgoodmod hbadmod
  split_ifs at hgoodmod hbadmod
  · omega
  · omega

/-! ## The checksum field -/

section Field

variable {initial : Nat} {before after : List Byte}

/-- A field at an even position adds its value to the sum. -/
theorem wordSum_field (heven : before.length.bodd = false) (val : UInt16) :
    wordSum false (before ++ NetUnparser.u16 val ++ after) =
      wordSum false before + wordSum false after + val.toNat := by
  have hlen : (before ++ NetUnparser.u16 val).length.bodd = false := by
    rw [List.length_append, Nat.bodd_add, heven, NetUnparser.length_u16]
    rfl
  rw [wordSum_append, wordSum_append, hlen, heven, Bool.xor_false, wordSum_u16]
  omega

theorem sum_field (heven : before.length.bodd = false)
    (hfits : initial + 65280 * (before.length + 2 + after.length) < 2 ^ 32) (val : UInt16) :
    (add ⟨initial, false⟩ (before ++ NetUnparser.u16 val ++ after)).sum =
        initial + (wordSum false before + wordSum false after) + val.toNat ∧
      initial + (wordSum false before + wordSum false after) + val.toNat < 2 ^ 32 := by
  have hbound := wordSum_le false (before ++ NetUnparser.u16 val ++ after)
  have hlen : (before ++ NetUnparser.u16 val ++ after).length =
      before.length + 2 + after.length := by
    rw [List.length_append, List.length_append, NetUnparser.length_u16]
  rw [hlen] at hbound
  have hfit : initial + wordSum false (before ++ NetUnparser.u16 val ++ after) < 2 ^ 32 := by
    omega
  rw [sum_add (c := ⟨initial, false⟩) hfit, wordSum_field heven val, ← Nat.add_assoc]
  rw [wordSum_field heven val, ← Nat.add_assoc] at hfit
  exact ⟨rfl, hfit⟩

/-- Data with its own checksum in it checks out. -/
theorem value_eq_zero_of_filled (heven : before.length.bodd = false)
    (hfits : initial + 65280 * (before.length + 2 + after.length) < 2 ^ 32) :
    (add ⟨initial, false⟩ (before ++ NetUnparser.u16
      (add ⟨initial, false⟩ (before ++ NetUnparser.u16 0 ++ after)).value ++ after)).value = 0 := by
  generalize hcheck : add ⟨initial, false⟩ (before ++ NetUnparser.u16 0 ++ after) = check
  obtain ⟨hzero, hzerofits⟩ := sum_field heven hfits 0
  obtain ⟨hfilled, hfilledfits⟩ := sum_field heven hfits check.value
  rw [hcheck] at hzero
  rw [← hzero] at hzerofits
  rw [← hfilled] at hfilledfits
  -- what is added to the sum is the complement of its digit
  have htotal : (add ⟨initial, false⟩
      (before ++ NetUnparser.u16 check.value ++ after)).sum =
        check.sum + (65536 - 1 - EndAroundCarry.fold 65536 2 check.sum) := by
    rw [hfilled, toNat_value hzerofits, foldCarries_eq_fold, hzero]
    rfl
  rw [value_eq_zero_iff hfilledfits, foldCarries_eq_fold, htotal]
  refine EndAroundCarry.fold_add_complement (by norm_num) ?_ ?_
  · rw [← foldCarries_eq_fold]
    exact Nat.lt_succ_of_le (foldCarries_le hzerofits)
  · rw [← htotal, ← foldCarries_eq_fold]
    exact Nat.lt_succ_of_le (foldCarries_le hfilledfits)

end Field

end InternetChecksum
end Sponge

import Sponge.Datagram.Checksum

/-!
# The checksum of a string passed in pieces

`InternetChecksum::add` is called several times for one checksum: a header, then
the payload behind it.  The parity of the bytes so far is all that a call leaves
to the next one besides the sum, and it is enough: however a string is cut, empty
and odd pieces included, the object ends as after one call with the whole of it.

`value` adds the carries of the 32-bit sum at the very end.  The specification
here adds them where they arise, word by word: the one's-complement sum of the
16-bit words the padded string consists of.
-/

namespace Sponge
namespace InternetChecksum

/-! ## What the checksum is of -/

/-- A string of odd length is padded with one zero byte. -/
def pad (data : List Byte) : List Byte :=
  if data.length.bodd then data ++ [0] else data

/-- The big-endian 16-bit words of a string of even length. -/
def words : List Byte → List Nat
  | high :: low :: rest => (256 * high.toNat + low.toNat) :: words rest
  | _ => []

/-- The one's-complement sum of the initial sum, taken as its two 16-bit halves,
and of words. -/
def onesComplementSum (initial : Nat) (ws : List Nat) : Nat :=
  EndAroundCarry.sum 65536 (initial / 65536) (initial % 65536 :: ws)

theorem words_lt (data : List Byte) : ∀ w ∈ words data, w < 65536 := by
  induction data using words.induct with
  | case1 high low rest ih =>
      have hhigh := high.toNat_lt
      have hlow := low.toNat_lt
      intro w hw
      rw [words, List.mem_cons] at hw
      rcases hw with rfl | hw
      · omega
      · exact ih w hw
  | case2 data hshort =>
      intro w hw
      rw [words.eq_2 data hshort] at hw
      exact absurd hw List.not_mem_nil

theorem pad_cons_cons (high low : Byte) (rest : List Byte) :
    pad (high :: low :: rest) = high :: low :: pad rest := by
  have hbodd : (high :: low :: rest).length.bodd = rest.length.bodd := by simp
  rw [pad, pad, hbodd]
  split_ifs <;> rfl

/-- What the bytes add to the accumulator is the plain sum of the words. -/
theorem wordSum_eq_sum_words (data : List Byte) :
    wordSum false data = (words (pad data)).sum := by
  induction data using words.induct with
  | case1 high low rest ih =>
      rw [pad_cons_cons, words, List.sum_cons, ← ih]
      simp only [wordSum, Bool.not_false, Bool.not_true, if_true, Bool.false_eq_true, if_false]
      omega
  | case2 data hshort =>
      cases data with
      | nil => rfl
      | cons last tail =>
          cases tail with
          | nil =>
              have hpad : pad [last] = [last, 0] := by simp [pad]
              rw [hpad]
              simp only [wordSum, words, List.sum_cons, List.sum_nil, Bool.false_eq_true, if_false]
              show last.toNat * 256 + 0 = 256 * last.toNat + 0 + 0
              omega
          | cons low rest => exact absurd rfl (hshort last low rest)

/-! ## The pieces -/

/-- One call of `add` for every piece, in order. -/
def addAll (c : InternetChecksum) (pieces : List (List Byte)) : InternetChecksum :=
  pieces.foldl add c

theorem addAll_eq (c : InternetChecksum) (pieces : List (List Byte)) :
    addAll c pieces = c.add pieces.flatten := by
  induction pieces generalizing c with
  | nil => rfl
  | cons piece pieces ih =>
      rw [List.flatten_cons, add_append, ← ih (c.add piece)]
      rfl

section Fits

variable {initial : Nat} {data : List Byte}

/-- No byte string that fits a datagram overflows the accumulator. -/
theorem sum_fits (hinitial : initial ≤ 2 ^ 20) (hlen : data.length ≤ 65535) :
    (add ⟨initial, false⟩ data).sum = initial + wordSum false data ∧
      initial + wordSum false data < 2 ^ 32 := by
  have hbound := wordSum_le false data
  have hfits : initial + wordSum false data < 2 ^ 32 := by omega
  exact ⟨sum_add (c := ⟨initial, false⟩) hfits, hfits⟩

/-- The carries added at the end are the carries added word by word. -/
theorem foldCarries_eq_onesComplementSum (hinitial : initial ≤ 2 ^ 20)
    (hlen : data.length ≤ 65535) :
    foldCarries 2 (add ⟨initial, false⟩ data).sum =
      onesComplementSum initial (words (pad data)) := by
  obtain ⟨hsum, hfits⟩ := sum_fits hinitial hlen
  have hle := foldCarries_le hfits
  rw [hsum, foldCarries_eq_fold, onesComplementSum, wordSum_eq_sum_words]
  rw [foldCarries_eq_fold, wordSum_eq_sum_words] at hle
  generalize hws : words (pad data) = ws at hle ⊢
  have hlt : ∀ w ∈ initial % 65536 :: ws, w < 65536 := by
    intro w hw
    rcases List.mem_cons.mp hw with rfl | hw
    · exact Nat.mod_lt _ (by norm_num)
    · rw [← hws] at hw
      exact words_lt (pad data) w hw
  apply EndAroundCarry.fold_eq_sum (by omega) hlt (by omega)
  · rw [List.sum_cons]
    omega
  · -- splitting the initial sum into its halves is one round of carries
    have hhalves := EndAroundCarry.carry_modEq (b := 65536) (by norm_num) initial
    rw [List.sum_cons, ← Nat.add_assoc]
    exact (hhalves.symm).add_right ws.sum

end Fits

/-- **The checksum of a string in pieces.**  However a string that fits a
datagram is cut, `value` is the complement of its one's-complement sum; and that
value, written into a zero field at an even position, makes the whole check out,
however the filled string is cut. -/
theorem checksum_of_pieces (initial : Nat) (hinitial : initial ≤ 2 ^ 20)
    (pieces : List (List Byte)) (hlen : pieces.flatten.length ≤ 65535) :
    (addAll ⟨initial, false⟩ pieces).value =
        ~~~ (onesComplementSum initial (words (pad pieces.flatten))).toUInt16 ∧
      onesComplementSum initial (words (pad pieces.flatten)) < 2 ^ 16 ∧
      ∀ (before after : List Byte) (filled : List (List Byte)),
        before.length.bodd = false →
        pieces.flatten = before ++ [0, 0] ++ after →
        filled.flatten =
          before ++ NetUnparser.u16 (addAll ⟨initial, false⟩ pieces).value ++ after →
        (addAll ⟨initial, false⟩ filled).value = 0 := by
  obtain ⟨hsum, hfits⟩ := sum_fits hinitial hlen
  have hdigit := foldCarries_eq_onesComplementSum hinitial hlen
  have hle := foldCarries_le hfits
  refine ⟨?_, ?_, ?_⟩
  · rw [addAll_eq, value, hdigit]
  · rw [← hdigit, hsum]
    omega
  · intro before after filled heven hzero hfilled
    have hfield : ([0, 0] : List Byte) = NetUnparser.u16 0 := rfl
    have hroom : before.length + 2 + after.length ≤ 65535 := by
      rw [hzero] at hlen
      simp only [List.length_append, List.length_cons, List.length_nil] at hlen
      omega
    rw [addAll_eq, hfilled, addAll_eq, hzero, hfield]
    exact value_eq_zero_of_filled heven (by omega)

/-- Three pieces, one of them odd and one empty, around a zero field. -/
theorem checksum_of_pieces_field :
    (addAll ⟨6, false⟩ [[0x45], [], [0x00, 0, 0, 0xff]]).value =
        ~~~ (onesComplementSum 6 (words (pad [0x45, 0x00, 0, 0, 0xff]))).toUInt16 ∧
      (addAll ⟨6, false⟩ [[0x45, 0x00, 0xbb], [0xf8, 0xff]]).value = 0 :=
  have hpieces := checksum_of_pieces 6 (by norm_num) [[0x45], [], [0x00, 0, 0, 0xff]]
    (by decide)
  ⟨hpieces.1, hpieces.2.2 [0x45, 0x00] [0xff] [[0x45, 0x00, 0xbb], [0xf8, 0xff]] rfl rfl
    (by decide +kernel)⟩

end InternetChecksum
end Sponge

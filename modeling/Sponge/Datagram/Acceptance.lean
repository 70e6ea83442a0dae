import Sponge.IPv4Datagram

/-!
# Which datagrams are accepted

`IPv4Datagram::parse` drops the result of the header's parser.  What it accepts is
compared here with what is well formed, for every byte string and whatever the object
held before.
-/

namespace Sponge

namespace IPv4Header

/-- The header that the first twenty bytes encode. -/
def encodedIn (b : Buffer) : IPv4Header where
  ver := b.getD 0 0 >>> 4
  hlen := b.getD 0 0 &&& 0x0f
  tos := b.getD 1 0
  len := (bigEndian (bytesAt b 2 2)).toUInt16
  id := (bigEndian (bytesAt b 4 2)).toUInt16
  df := (bigEndian (bytesAt b 6 2)).toUInt16 &&& 0x4000 != 0
  mf := (bigEndian (bytesAt b 6 2)).toUInt16 &&& 0x2000 != 0
  offset := (bigEndian (bytesAt b 6 2)).toUInt16 &&& 0x1fff
  ttl := b.getD 8 0
  proto := b.getD 9 0
  cksum := (bigEndian (bytesAt b 10 2)).toUInt16
  src := (bigEndian (bytesAt b 12 4)).toUInt32
  dst := (bigEndian (bytesAt b 16 4)).toUInt32

/-- The header speaks of IPv4 and of the bytes it came with. -/
structure Fits (h : IPv4Header) (b : Buffer) : Prop where
  ver : h.ver = 4
  hlen : 5 ≤ h.hlen.toNat
  header : 4 * h.hlen.toNat ≤ b.length
  len : h.len.toNat = b.length

theorem fits_iff (h : IPv4Header) (b : Buffer) :
    h.Fits b ↔ h.ver = 4 ∧ 5 ≤ h.hlen.toNat ∧ 4 * h.hlen.toNat ≤ b.length ∧
      h.len.toNat = b.length :=
  ⟨fun hf => ⟨hf.ver, hf.hlen, hf.header, hf.len⟩, fun hf => ⟨hf.1, hf.2.1, hf.2.2.1, hf.2.2.2⟩⟩

instance (h : IPv4Header) (b : Buffer) : Decidable (h.Fits b) :=
  decidable_of_iff _ (fits_iff h b).symm

/-- The Internet checksum of the header bytes is zero. -/
def Verifies (h : IPv4Header) (b : Buffer) : Prop :=
  (InternetChecksum.add {} (b.take (4 * h.hlen.toNat))).value = 0

instance (h : IPv4Header) (b : Buffer) : Decidable (h.Verifies b) :=
  inferInstanceAs (Decidable (_ = _))

/-- Short input leaves everything as it was. -/
theorem parse_of_short {b : Buffer} (h : IPv4Header) (hb : b.length < 20) :
    h.parse ⟨b, .noError⟩ = (.packetTooShort, h, ⟨b, .noError⟩) := by
  rw [parse]
  exact if_pos hb

/-- The fixed part is read off the bytes, and then checked. -/
theorem parse_of_long {b : Buffer} (h : IPv4Header) (hb : 20 ≤ b.length) :
    h.parse ⟨b, .noError⟩ =
      (((encodedIn b).checkParsed b ⟨b.drop 20, .noError⟩).1, encodedIn b,
        ((encodedIn b).checkParsed b ⟨b.drop 20, .noError⟩).2) := by
  have hfirst : (⟨b, .noError⟩ : NetParser) = ⟨b.drop 0, .noError⟩ := rfl
  rw [hfirst, parse, if_neg (by simp [LENGTH, hb])]
  simp (disch := omega) only [NetParser.u8_drop, NetParser.u16_drop, NetParser.u32_drop,
    Nat.zero_add, Nat.reduceAdd]
  rfl

/-- The parser is left after the options if the header fits, and else after the fixed
part; no check but the length of the input sets its error. -/
theorem checkParsed_eq (h : IPv4Header) {b : Buffer} (hb : 20 ≤ b.length) :
    (h.Fits b ∧ (h.checkParsed b ⟨b.drop 20, .noError⟩).2 =
        ⟨b.drop (4 * h.hlen.toNat), .noError⟩) ∨
      (¬h.Fits b ∧ (h.checkParsed b ⟨b.drop 20, .noError⟩).2 = ⟨b.drop 20, .noError⟩) := by
  rw [checkParsed]
  by_cases hheader : b.length < 4 * h.hlen.toNat
  · rw [if_pos hheader]
    exact Or.inr ⟨fun hf => absurd hf.header (by omega), rfl⟩
  by_cases hver : h.ver ≠ 4
  · rw [if_neg hheader, if_pos hver]
    exact Or.inr ⟨fun hf => absurd hf.ver hver, rfl⟩
  by_cases hlen : h.hlen < 5
  · rw [if_neg hheader, if_neg hver, if_pos hlen]
    rw [UInt8.lt_iff_toNat_lt] at hlen
    exact Or.inr ⟨fun hf => absurd hf.hlen (not_le.mpr hlen), rfl⟩
  by_cases hsize : b.length ≠ h.len.toNat
  · rw [if_neg hheader, if_neg hver, if_neg hlen, if_pos hsize]
    exact Or.inr ⟨fun hf => hsize hf.len.symm, rfl⟩
  rw [if_neg hheader, if_neg hver, if_neg hlen, if_neg hsize]
  rw [UInt8.lt_iff_toNat_lt, not_lt] at hlen
  have hfive : 5 ≤ h.hlen.toNat := hlen
  have hrest : h.hlen.toNat * 4 - LENGTH ≤ (b.drop 20).length := by
    rw [List.length_drop]
    unfold LENGTH
    omega
  have hdrop : (b.drop 20).drop (h.hlen.toNat * 4 - LENGTH) = b.drop (4 * h.hlen.toNat) := by
    rw [List.drop_drop]
    congr 1
    unfold LENGTH
    omega
  refine Or.inl ⟨⟨not_not.mp hver, hfive, by omega, (not_not.mp hsize).symm⟩, ?_⟩
  rw [NetParser.removePrefix_of_le hrest, hdrop]
  -- the checksum decides what the header's parser returns, and nothing else
  simp only [ne_eq, not_true_eq_false, if_false]
  split_ifs <;> rfl

/-- A header that fits announces the bytes after it. -/
theorem Fits.payloadLength_eq {h : IPv4Header} {b : Buffer} (hf : h.Fits b) :
    h.payloadLength.toNat = b.length - 4 * h.hlen.toNat := by
  have hlen := hf.len
  have hheader := hf.header
  have hbound := h.len.toNat_lt
  have hsmall := h.hlen.toNat_lt
  have hmul : (4 * h.hlen.toUInt16).toNat = 4 * h.hlen.toNat := by
    rw [UInt16.toNat_mul]
    simp only [UInt8.toNat_toUInt16]
    exact Nat.mod_eq_of_lt (by simp; omega)
  rw [payloadLength, UInt16.toNat_sub_of_le]
  · rw [hmul, hlen]
  · rw [UInt16.le_iff_toNat_le, hmul]
    omega

end IPv4Header

namespace IPv4Datagram

open IPv4Header

/-- A well-formed datagram. -/
def WellFormed (b : Buffer) : Prop :=
  20 ≤ b.length ∧ (encodedIn b).Fits b ∧ (encodedIn b).Verifies b

instance (b : Buffer) : Decidable (WellFormed b) :=
  inferInstanceAs (Decidable (_ ∧ _ ∧ _))

/-- `parse` accepts `b` exactly if it is well formed, and then reads it right. -/
def ParsesExactly (d : IPv4Datagram) (b : Buffer) : Prop :=
  ((d.parse b).1 = .noError ↔ WellFormed b) ∧
    ((d.parse b).1 = .noError →
      (d.parse b).2.header = encodedIn b ∧
        (d.parse b).2.payload.concatenate = b.drop (4 * (encodedIn b).hlen.toNat))

instance (d : IPv4Datagram) (b : Buffer) : Decidable (d.ParsesExactly b) :=
  inferInstanceAs (Decidable (_ ∧ _))

/-- The input is well formed; or too short for a header, and not as long as the payload
that the header held before announces; or its header does not fit, and does not announce
by chance a payload of the bytes after the fixed part. -/
def Unmistakable (d : IPv4Datagram) (b : Buffer) : Prop :=
  WellFormed b ∨ (b.length < 20 ∧ b.length ≠ d.header.payloadLength.toNat) ∨
    (20 ≤ b.length ∧ ¬(encodedIn b).Fits b ∧
      b.length - 20 ≠ (encodedIn b).payloadLength.toNat)

instance (d : IPv4Datagram) (b : Buffer) : Decidable (d.Unmistakable b) :=
  inferInstanceAs (Decidable (_ ∨ _ ∨ _))

theorem parse_of_short (d : IPv4Datagram) {b : Buffer} (hb : b.length < 20) :
    (d.parse b).1 = .noError ↔ b.length = d.header.payloadLength.toNat := by
  rw [parse, IPv4Header.parse_of_short d.header hb]
  simp only [BufferList.size_ofBuffer]
  split_ifs with hsize
  · simp [hsize]
  · simp [not_not.mp hsize]

/-- What is accepted of input that can hold a header, and what is then read. -/
theorem parse_of_long (d : IPv4Datagram) {b : Buffer} (hb : 20 ≤ b.length) :
    (d.parse b).2.header = encodedIn b ∧
      (((encodedIn b).Fits b ∧ (d.parse b).1 = .noError ∧
          (d.parse b).2.payload = .ofBuffer (b.drop (4 * (encodedIn b).hlen.toNat))) ∨
        (¬(encodedIn b).Fits b ∧
          ((d.parse b).1 = .noError ↔ b.length - 20 = (encodedIn b).payloadLength.toNat))) := by
  rw [parse, IPv4Header.parse_of_long d.header hb]
  rcases (encodedIn b).checkParsed_eq hb with ⟨hfits, heq⟩ | ⟨hnot, heq⟩
  · have hsize : (b.drop (4 * (encodedIn b).hlen.toNat)).length =
        (encodedIn b).payloadLength.toNat := by
      rw [hfits.payloadLength_eq, List.length_drop]
    simp only [heq, BufferList.size_ofBuffer, hsize, ne_eq, not_true_eq_false, if_false]
    exact ⟨trivial, Or.inl ⟨hfits, trivial, trivial⟩⟩
  · simp only [heq, BufferList.size_ofBuffer, List.length_drop]
    split_ifs with hsize
    · exact ⟨rfl, Or.inr ⟨hnot, by simp [hsize]⟩⟩
    · exact ⟨rfl, Or.inr ⟨hnot, by simp [not_not.mp hsize]⟩⟩

/-- **What `parse` accepts.**  It accepts exactly the well-formed datagrams, and reads
them right, on the inputs that cannot be mistaken for one, and on no others. -/
theorem parses_exactly_iff (d : IPv4Datagram) (b : Buffer) :
    d.ParsesExactly b ↔ d.Unmistakable b := by
  by_cases hb : b.length < 20
  · have hshort := d.parse_of_short hb
    have hmalformed : ¬WellFormed b := fun hw => absurd hw.1 (by omega)
    have hlong : ¬20 ≤ b.length := by omega
    simp only [ParsesExactly, Unmistakable, hshort, hmalformed, hb, hlong, iff_false, false_or,
      true_and, false_and, or_false, and_iff_left_iff_imp]
    intro hne heq
    exact absurd heq hne
  · have hlong : 20 ≤ b.length := by omega
    obtain ⟨hheader, hcase⟩ := d.parse_of_long hlong
    rw [ParsesExactly, Unmistakable, hheader]
    rcases hcase with ⟨hfits, hok, hpayload⟩ | ⟨hnot, hok⟩
    · -- the header fits: the input is accepted whatever its checksum
      simp only [hok, hpayload, hfits, hb, true_iff, not_true_eq_false, false_and, and_false,
        or_false, forall_const, true_and, and_iff_left_iff_imp]
      intro _
      simp [BufferList.ofBuffer, BufferList.concatenate]
    · have hmalformed : ¬WellFormed b := fun hw => hnot hw.2.1
      simp only [hok, hmalformed, hnot, hb, hlong, iff_false, false_and, false_or, true_and,
        not_false_eq_true, and_iff_left_iff_imp]
      intro hne heq
      exact absurd heq hne

/-- A header of twenty bytes whose checksum field is zero and should not be. -/
def badChecksumBytes : Buffer :=
  [0x45, 0, 0, 20, 0, 0, 0, 0, 64, 6, 0, 0, 10, 0, 0, 1, 10, 0, 0, 2]

/-- It is accepted. -/
theorem bad_checksum_accepted :
    (parse {} badChecksumBytes).1 = .noError ∧ ¬WellFormed badChecksumBytes ∧
      ¬ParsesExactly {} badChecksumBytes := by
  decide +kernel

/-! ## Encoding what was accepted -/

/-- What is accepted has the payload its header announces. -/
theorem payload_size_of_accepted {d : IPv4Datagram} {b : Buffer}
    (h : (d.parse b).1 = .noError) :
    (d.parse b).2.payload.size = (d.parse b).2.header.payloadLength.toNat := by
  rw [parse] at h ⊢
  generalize d.header.parse ⟨b, .noError⟩ = result at h ⊢
  obtain ⟨result, header, p⟩ := result
  by_cases hsize : (BufferList.ofBuffer p.buffer).size = header.payloadLength.toNat
  · simp only [hsize, ne_eq, not_true_eq_false, if_false]
  · simp only [ne_eq, hsize, not_false_eq_true, if_true] at h
    exact absurd h (by simp)

/-- What is accepted can be encoded again exactly if its header can. -/
theorem exists_serialize_of_accepted {d : IPv4Datagram} {b : Buffer}
    (h : (d.parse b).1 = .noError) :
    (∃ bytes, (d.parse b).2.serialize = .ok bytes) ↔ (d.parse b).2.header.Encodable := by
  rw [exists_serialize_iff, Encodable]
  simp [payload_size_of_accepted h]

/-- The bytes that a fresh object accepts. -/
def Accepted (b : Buffer) : Prop :=
  20 ≤ b.length ∧
    ((encodedIn b).Fits b ∨ b.length - 20 = (encodedIn b).payloadLength.toNat)

instance (b : Buffer) : Decidable (Accepted b) :=
  inferInstanceAs (Decidable (_ ∧ _))

theorem parse_fresh_iff (b : Buffer) : (parse {} b).1 = .noError ↔ Accepted b := by
  by_cases hb : 20 ≤ b.length
  · obtain ⟨-, hcase⟩ := parse_of_long {} hb
    rcases hcase with ⟨hfits, hok, -⟩ | ⟨hnot, hok⟩
    · simp [Accepted, hok, hb, hfits]
    · simp [Accepted, hok, hb, hnot]
  · -- the default header announces more than nineteen bytes
    have hdefault : ({} : IPv4Datagram).header.payloadLength.toNat = 65516 := by decide
    rw [parse_of_short {} (not_le.mp hb), hdefault]
    simp only [Accepted, hb, false_and, iff_false]
    omega

/-- The header that stands in the object after parsing can be encoded, or does not
announce by chance what follows the fixed part. -/
def Reencodable (d : IPv4Datagram) (b : Buffer) : Prop :=
  if b.length < 20 then b.length = d.header.payloadLength.toNat → d.header.Encodable
  else b.length - 20 = (encodedIn b).payloadLength.toNat → (encodedIn b).Encodable

/-- When `serialize` takes what `parse` accepts. -/
theorem accepted_serializes_iff (d : IPv4Datagram) (b : Buffer) :
    ((d.parse b).1 = .noError → ∃ bytes, (d.parse b).2.serialize = .ok bytes) ↔
      d.Reencodable b := by
  have hserialize : ((d.parse b).1 = .noError → ∃ bytes, (d.parse b).2.serialize = .ok bytes) ↔
      ((d.parse b).1 = .noError → (d.parse b).2.header.Encodable) :=
    forall_congr' fun h => exists_serialize_of_accepted h
  rw [hserialize, Reencodable]
  by_cases hb : b.length < 20
  · have hheader : (d.parse b).2.header = d.header := by
      rw [parse, IPv4Header.parse_of_short d.header hb]
      dsimp only
      split_ifs <;> rfl
    rw [if_pos hb, d.parse_of_short hb, hheader]
  · obtain ⟨hheader, hcase⟩ := d.parse_of_long (not_lt.mp hb)
    rw [if_neg hb, hheader]
    rcases hcase with ⟨hfits, hok, -⟩ | ⟨-, hok⟩
    · have hencodable : (encodedIn b).Encodable := ⟨hfits.ver, hfits.hlen⟩
      simp [hencodable]
    · rw [hok]

end IPv4Datagram
end Sponge

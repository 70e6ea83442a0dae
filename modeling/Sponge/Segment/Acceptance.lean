import Sponge.Segment.Codec

/-!
# Which segments are accepted

`TCPSegment::parse` drops the result of the header's parser, which reports a data offset
that is too small by its result alone.  What is accepted is compared here with what is well
formed, for every byte string, every initial sum and whatever the object held before.
-/

namespace Sponge

namespace NetParser

/-- An error stays, and asking for more than there is, is one. -/
theorem checkSize_error_ne {p : NetParser} {len : Nat}
    (h : p.error ≠ .noError ∨ p.buffer.length < len) : (p.checkSize len).error ≠ .noError := by
  rw [checkSize]
  split_ifs with hshort
  · simp
  · exact h.resolve_right hshort

theorem parseInt_error_ne {p : NetParser} {len : Nat}
    (h : p.error ≠ .noError ∨ p.buffer.length < len) : (p.parseInt len).2.error ≠ .noError := by
  have hfails := checkSize_error_ne h
  rw [parseInt, if_pos hfails]
  exact hfails

theorem removePrefix_error_ne {p : NetParser} {n : Nat}
    (h : p.error ≠ .noError ∨ p.buffer.length < n) : (p.removePrefix n).error ≠ .noError := by
  have hfails := checkSize_error_ne h
  rw [removePrefix, if_pos hfails]
  exact hfails

/-- The parser has failed, or has this much left. -/
def Left (p : NetParser) (n : Int) : Prop :=
  p.error ≠ .noError ∨ (p.buffer.length : Int) = n

theorem Left.parseInt {p : NetParser} {n : Int} (h : p.Left n) (len : Nat) :
    (p.parseInt len).2.Left (n - len) := by
  by_cases hfails : p.error ≠ .noError ∨ p.buffer.length < len
  · exact Or.inl (parseInt_error_ne hfails)
  · push Not at hfails
    obtain ⟨buffer, error⟩ := p
    obtain ⟨rfl, hlen⟩ := hfails
    have hroom : len ≤ buffer.length := hlen
    have hleft : (buffer.length : Int) = n := h.resolve_left (by simp)
    refine Or.inr ?_
    rw [parseInt_of_le hroom, List.length_drop]
    omega

theorem Left.u8 {p : NetParser} {n : Int} (h : p.Left n) : p.u8.2.Left (n - 1) := h.parseInt 1

theorem Left.u16 {p : NetParser} {n : Int} (h : p.Left n) : p.u16.2.Left (n - 2) := h.parseInt 2

theorem Left.u32 {p : NetParser} {n : Int} (h : p.Left n) : p.u32.2.Left (n - 4) := h.parseInt 4

end NetParser

namespace TCPHeader

/-- The header that the first twenty bytes encode. -/
def encodedIn (b : Buffer) : TCPHeader where
  sport := (bigEndian (bytesAt b 0 2)).toUInt16
  dport := (bigEndian (bytesAt b 2 2)).toUInt16
  seqno := ⟨(bigEndian (bytesAt b 4 4)).toUInt32⟩
  ackno := ⟨(bigEndian (bytesAt b 8 4)).toUInt32⟩
  doff := b.getD 12 0 >>> 4
  urg := b.getD 13 0 &&& 0b00100000 != 0
  ack := b.getD 13 0 &&& 0b00010000 != 0
  psh := b.getD 13 0 &&& 0b00001000 != 0
  rst := b.getD 13 0 &&& 0b00000100 != 0
  syn := b.getD 13 0 &&& 0b00000010 != 0
  fin := b.getD 13 0 &&& 0b00000001 != 0
  win := (bigEndian (bytesAt b 14 2)).toUInt16
  cksum := (bigEndian (bytesAt b 16 2)).toUInt16
  uptr := (bigEndian (bytesAt b 18 2)).toUInt16

/-- The nine reads of the fixed part take twenty bytes, or fail; what may follow is that the
options are skipped. -/
theorem exists_parse_eq (p : NetParser) {n : Int} (h : p.Left n) :
    ∃ fixed, fixed.Left (n - 20) ∧
      ((parse p).2.2 = fixed ∨ ∃ options, (parse p).2.2 = fixed.removePrefix options) := by
  rw [parse]
  have hsport := h.u16
  generalize p.u16 = read at hsport ⊢
  obtain ⟨sport, psport⟩ := read
  dsimp only at hsport ⊢
  have hdport := hsport.u16
  generalize psport.u16 = read at hdport ⊢
  obtain ⟨dport, pdport⟩ := read
  dsimp only at hdport ⊢
  have hseqno := hdport.u32
  generalize pdport.u32 = read at hseqno ⊢
  obtain ⟨seqno, pseqno⟩ := read
  dsimp only at hseqno ⊢
  have hackno := hseqno.u32
  generalize pseqno.u32 = read at hackno ⊢
  obtain ⟨ackno, packno⟩ := read
  dsimp only at hackno ⊢
  have hdoffByte := hackno.u8
  generalize packno.u8 = read at hdoffByte ⊢
  obtain ⟨doffByte, pdoffByte⟩ := read
  dsimp only at hdoffByte ⊢
  have hflB := hdoffByte.u8
  generalize pdoffByte.u8 = read at hflB ⊢
  obtain ⟨flB, pflB⟩ := read
  dsimp only at hflB ⊢
  have hwin := hflB.u16
  generalize pflB.u16 = read at hwin ⊢
  obtain ⟨win, pwin⟩ := read
  dsimp only at hwin ⊢
  have hcksum := hwin.u16
  generalize pwin.u16 = read at hcksum ⊢
  obtain ⟨cksum, pcksum⟩ := read
  dsimp only at hcksum ⊢
  have huptr := hcksum.u16
  generalize pcksum.u16 = read at huptr ⊢
  obtain ⟨uptr, puptr⟩ := read
  dsimp only at huptr ⊢
  have htotal : n - 2 - 2 - 4 - 4 - 1 - 1 - 2 - 2 - 2 = n - 20 := by omega
  rw [htotal] at huptr
  refine ⟨puptr, huptr, ?_⟩
  split_ifs
  · exact Or.inl rfl
  · exact Or.inr ⟨_, rfl⟩
  · exact Or.inr ⟨_, rfl⟩

/-- A header that is cut off is an error of the `NetParser`. -/
theorem parse_of_short {b : Buffer} (hb : b.length < 20) :
    (parse ⟨b, .noError⟩).2.2.error ≠ .noError := by
  obtain ⟨fixed, hleft, hparse⟩ := exists_parse_eq ⟨b, .noError⟩ (n := b.length) (Or.inr rfl)
  -- there cannot be less than nothing left
  have herr : fixed.error ≠ .noError := hleft.resolve_right (by omega)
  rcases hparse with heq | ⟨options, heq⟩
  · rw [heq]
    exact herr
  · rw [heq]
    exact NetParser.removePrefix_error_ne (Or.inl herr)

/-- Twenty bytes are read; then only a data offset beyond the end is an error of the
`NetParser`. -/
theorem parse_of_long {b : Buffer} (hb : 20 ≤ b.length) :
    (parse ⟨b, .noError⟩).2.1 = encodedIn b ∧
      ((5 ≤ (encodedIn b).doff.toNat ∧ 4 * (encodedIn b).doff.toNat ≤ b.length ∧
          (parse ⟨b, .noError⟩).2.2 = ⟨b.drop (4 * (encodedIn b).doff.toNat), .noError⟩) ∨
        (5 ≤ (encodedIn b).doff.toNat ∧ b.length < 4 * (encodedIn b).doff.toNat ∧
          (parse ⟨b, .noError⟩).2.2.error ≠ .noError) ∨
        ((encodedIn b).doff.toNat < 5 ∧ (parse ⟨b, .noError⟩).2.2 = ⟨b.drop 20, .noError⟩)) := by
  have hfirst : (⟨b, .noError⟩ : NetParser) = ⟨b.drop 0, .noError⟩ := rfl
  rw [hfirst, parse]
  simp (disch := omega) only [NetParser.u8_drop, NetParser.u16_drop, NetParser.u32_drop,
    Nat.zero_add, Nat.reduceAdd]
  have hdoff : (encodedIn b).doff = b.getD 12 0 >>> 4 := rfl
  rw [← hdoff]
  by_cases hfive : (encodedIn b).doff < 5
  · rw [if_pos hfive]
    rw [UInt8.lt_iff_toNat_lt] at hfive
    exact ⟨rfl, Or.inr (Or.inr ⟨hfive, rfl⟩)⟩
  · rw [if_neg hfive]
    rw [UInt8.lt_iff_toNat_lt, not_lt] at hfive
    have hcovers : 5 ≤ (encodedIn b).doff.toNat := hfive
    by_cases hend : 4 * (encodedIn b).doff.toNat ≤ b.length
    · have hrest : (encodedIn b).doff.toNat * 4 - LENGTH ≤ (b.drop 20).length := by
        rw [List.length_drop]
        unfold LENGTH
        omega
      have hdrop : (b.drop 20).drop ((encodedIn b).doff.toNat * 4 - LENGTH) =
          b.drop (4 * (encodedIn b).doff.toNat) := by
        rw [List.drop_drop]
        congr 1
        unfold LENGTH
        omega
      rw [NetParser.removePrefix_of_le hrest, hdrop]
      exact ⟨rfl, Or.inl ⟨hcovers, hend, rfl⟩⟩
    · have hbeyond : (b.drop 20).length < (encodedIn b).doff.toNat * 4 - LENGTH := by
        rw [List.length_drop]
        unfold LENGTH
        omega
      have herr := NetParser.removePrefix_error_ne (p := ⟨b.drop 20, .noError⟩) (Or.inr hbeyond)
      rw [if_pos herr]
      exact ⟨rfl, Or.inr (Or.inl ⟨hcovers, not_le.mp hend, herr⟩)⟩

end TCPHeader

namespace TCPSegment

open TCPHeader (encodedIn)

/-- The Internet checksum of the bytes, with an initial sum, is zero. -/
def Verifies (b : Buffer) (pcksum : UInt32) : Prop :=
  (InternetChecksum.add ⟨pcksum.toNat, false⟩ b).value = 0

instance (b : Buffer) (pcksum : UInt32) : Decidable (Verifies b pcksum) :=
  inferInstanceAs (Decidable (_ = _))

/-- A well-formed segment. -/
def WellFormed (b : Buffer) (pcksum : UInt32) : Prop :=
  Verifies b pcksum ∧ 20 ≤ b.length ∧ 5 ≤ (encodedIn b).doff.toNat ∧
    4 * (encodedIn b).doff.toNat ≤ b.length

instance (b : Buffer) (pcksum : UInt32) : Decidable (WellFormed b pcksum) :=
  inferInstanceAs (Decidable (_ ∧ _))

/-- `parse` accepts `b` exactly if it is well formed, and then reads it right. -/
def ParsesExactly (seg : TCPSegment) (b : Buffer) (pcksum : UInt32) : Prop :=
  ((seg.parse b pcksum).1 = .noError ↔ WellFormed b pcksum) ∧
    ((seg.parse b pcksum).1 = .noError →
      (seg.parse b pcksum).2.header = encodedIn b ∧
        (seg.parse b pcksum).2.payload = b.drop (4 * (encodedIn b).doff.toNat))

instance (seg : TCPSegment) (b : Buffer) (pcksum : UInt32) :
    Decidable (seg.ParsesExactly b pcksum) :=
  inferInstanceAs (Decidable (_ ∧ _))

/-- The bytes check out and can hold a header, but their data offset does not cover it. -/
def ShortOffset (b : Buffer) (pcksum : UInt32) : Prop :=
  Verifies b pcksum ∧ 20 ≤ b.length ∧ (encodedIn b).doff.toNat < 5

/-- **What `parse` accepts.**  It accepts exactly the well-formed segments, and reads them
right, except that a data offset that is too small is not noticed. -/
theorem parses_exactly_iff_not_shortOffset (seg : TCPSegment) (b : Buffer) (pcksum : UInt32) :
    seg.ParsesExactly b pcksum ↔ ¬ShortOffset b pcksum := by
  rw [ParsesExactly, ShortOffset, WellFormed]
  by_cases hcheck : Verifies b pcksum
  · have hparse : seg.parse b pcksum = ((TCPHeader.parse ⟨b, .noError⟩).2.2.error,
        ⟨(TCPHeader.parse ⟨b, .noError⟩).2.1, (TCPHeader.parse ⟨b, .noError⟩).2.2.buffer⟩) := by
      rw [parse]
      exact if_neg (not_not.mpr hcheck)
    rw [hparse]
    by_cases hb : 20 ≤ b.length
    · obtain ⟨hheader, ⟨hcovers, hend, heq⟩ | ⟨hcovers, hend, herr⟩ | ⟨hshort, heq⟩⟩ :=
        TCPHeader.parse_of_long hb
      · simp [hheader, heq, hcheck, hb, hcovers, hend]
      · simp [herr, hcheck, hb, hcovers, not_le.mpr hend]
      · simp [heq, hcheck, hb, hshort, not_le.mpr hshort]
    · have herr := TCPHeader.parse_of_short (b := b) (by omega)
      simp [herr, hb]
  · have hparse : seg.parse b pcksum = (.badChecksum, seg) := by
      rw [parse]
      exact if_pos hcheck
    rw [hparse]
    simp [hcheck]

/-- Twenty bytes that check out, with data offset zero. -/
def zeroOffsetBytes : Buffer :=
  0xff :: 0xff :: List.replicate 18 0

/-- They are accepted. -/
theorem zero_offset_accepted :
    (parse {} zeroOffsetBytes 0).1 = .noError ∧ ¬WellFormed zeroOffsetBytes 0 ∧
      ¬ParsesExactly {} zeroOffsetBytes 0 := by
  decide +kernel

end TCPSegment
end Sponge

import Sponge.Segment.RoundTrip

/-!
# Corrupted segments

The checksum of a segment is computed over all its bytes, so that a change of any one of
them, in the header, the options or the payload, and in either half of its 16-bit word, makes
`TCPSegment::parse` refuse the segment.
-/

namespace Sponge
namespace TCPSegment

/-- A sum that `TCPSegment` is given for the pseudo-header: that of a datagram's header, or
zero. -/
def FromDatagramLayer (pcksum : UInt32) : Prop :=
  pcksum = 0 ∨ ∃ h : IPv4Header, pcksum = h.pseudoCksum

theorem FromDatagramLayer.le {pcksum : UInt32} (h : FromDatagramLayer pcksum) :
    pcksum.toNat ≤ 6 * 65535 := by
  rcases h with rfl | ⟨header, rfl⟩
  · decide
  · exact header.pseudoCksum_le

/-- The strings have the same length and differ in exactly one byte. -/
def OneByteOff (bytes corrupted : Buffer) : Prop :=
  ∃ before x y after, x ≠ y ∧ bytes = before ++ x :: after ∧ corrupted = before ++ y :: after

/-- Bytes that check out do not any more after one of them has been changed. -/
theorem parse_of_oneByteOff {bytes corrupted : Buffer} {pcksum : UInt32}
    (hlen : bytes.length ≤ 65535) (hpcksum : pcksum.toNat ≤ 6 * 65535)
    (hgood : (InternetChecksum.add ⟨pcksum.toNat, false⟩ bytes).value = 0)
    (hoff : OneByteOff bytes corrupted) (old : TCPSegment) :
    old.parse corrupted pcksum = (.badChecksum, old) := by
  obtain ⟨before, x, y, after, hne, rfl, rfl⟩ := hoff
  rw [List.length_append, List.length_cons] at hlen
  have hbad := InternetChecksum.value_ne_zero_of_changed hne (by omega) hgood
  rw [parse]
  exact if_pos hbad

/-- **A corrupted byte is detected.**  A segment of at most 65535 bytes is encoded and read
back, except for its checksum; with any one byte of its encoding changed it is refused. -/
theorem corrupted_byte_detected {seg : TCPSegment} {pcksum : UInt32}
    (hdoff : 5 ≤ seg.header.doff.toNat ∧ seg.header.doff.toNat ≤ 15)
    (hlen : 4 * seg.header.doff.toNat + seg.payload.length ≤ 65535)
    (hpcksum : FromDatagramLayer pcksum) :
    ∃ bytes, seg.serialize pcksum = .ok bytes ∧
      (∀ old : TCPSegment, ∃ parsed, old.parse bytes.concatenate pcksum = (.noError, parsed) ∧
        parsed.header = { seg.header with cksum := parsed.header.cksum } ∧
        parsed.payload = seg.payload) ∧
      ∀ (old : TCPSegment) (corrupted : Buffer), OneByteOff bytes.concatenate corrupted →
        (old.parse corrupted pcksum).1 = .badChecksum := by
  have hle := hpcksum.le
  have hs : seg.Representable pcksum :=
    ⟨⟨hdoff.1, Nat.lt_succ_of_le hdoff.2⟩, by omega⟩
  obtain ⟨bytes, hserialize, hsize, hparse⟩ := parse_serialize hs
  refine ⟨bytes, hserialize, fun old => ⟨_, hparse old, rfl, rfl⟩, ?_⟩
  intro old corrupted hoff
  have hbytes : bytes.concatenate.length ≤ 65535 := by
    rw [BufferList.length_concatenate, hsize]
    exact hlen
  -- what is accepted has been found to check out
  have hgood : (InternetChecksum.add ⟨pcksum.toNat, false⟩ bytes.concatenate).value = 0 := by
    by_contra hbad
    have hrefused : old.parse bytes.concatenate pcksum = (.badChecksum, old) := by
      rw [parse]
      exact if_pos hbad
    rw [hparse old] at hrefused
    have hresult : ParseResult.noError = .badChecksum := congrArg Prod.fst hrefused
    contradiction
  rw [parse_of_oneByteOff hbytes hle hgood hoff old]

/-- A segment with options, a payload of odd length and a pseudo-header. -/
theorem corrupted_byte_detected_odd_payload :
    ∃ bytes, serialize { header := { doff := 6, syn := true }, payload := [1, 2, 3] }
        (IPv4Header.pseudoCksum { len := 47, src := 1, dst := 2 }) = .ok bytes ∧
      ∀ corrupted, OneByteOff bytes.concatenate corrupted →
        (parse {} corrupted (IPv4Header.pseudoCksum { len := 47, src := 1, dst := 2 })).1 =
          .badChecksum := by
  obtain ⟨bytes, hserialize, -, hdetected⟩ := @corrupted_byte_detected
    { header := { doff := 6, syn := true }, payload := [1, 2, 3] } _
    (by decide) (by decide) (Or.inr ⟨{ len := 47, src := 1, dst := 2 }, rfl⟩)
  exact ⟨bytes, hserialize, hdetected {}⟩

end TCPSegment
end Sponge

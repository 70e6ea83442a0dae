import Sponge.Datagram.RoundTrip
import Sponge.Segment.Codec

/-!
# Decoding an encoded segment

A segment whose data offset fits its four bits is written by `TCPSegment::serialize` and
read back by `TCPSegment::parse`, given the same sum of the pseudo-header at both ends.
Only the checksum is not the one the header had: it is the computed one, and it checks
out.
-/

namespace Sponge

namespace TCPHeader

open IPv4Header (resize resize_of_length_le)

theorem length_bytesBefore (h : TCPHeader) : h.bytesBefore.length = 16 := by
  simp [bytesBefore]

theorem length_fieldBytes (h : TCPHeader) : h.fieldBytes.length = LENGTH := by
  simp [fieldBytes, length_bytesBefore, LENGTH]

/-- The data offset fits its bits and covers the fixed part. -/
structure Representable (h : TCPHeader) : Prop where
  doff : 5 ≤ h.doff.toNat
  doff_lt : h.doff.toNat < 16

theorem doff_of_shifted {doff : UInt8} (h : doff.toNat < 16) : doff <<< 4 >>> 4 = doff :=
  byte_of_lt (P := fun doff => doff <<< 4 >>> 4 = doff) (by decide) h

/-- Every flag is read back from its bit. -/
theorem flags_of_flagByte (h : TCPHeader) :
    (h.flagByte &&& 0b00100000 != 0) = h.urg ∧ (h.flagByte &&& 0b00010000 != 0) = h.ack ∧
      (h.flagByte &&& 0b00001000 != 0) = h.psh ∧ (h.flagByte &&& 0b00000100 != 0) = h.rst ∧
      (h.flagByte &&& 0b00000010 != 0) = h.syn ∧ (h.flagByte &&& 0b00000001 != 0) = h.fin := by
  unfold flagByte
  generalize h.urg = urg
  generalize h.ack = ack
  generalize h.psh = psh
  generalize h.rst = rst
  generalize h.syn = syn
  generalize h.fin = fin
  revert urg ack psh rst syn fin
  decide

theorem parse_fieldBytes {h : TCPHeader} (hr : h.Representable) (rest : Buffer) :
    parse ⟨h.fieldBytes ++ (List.replicate (4 * h.doff.toNat - 20) 0 ++ rest), .noError⟩ =
      (.noError, h, ⟨rest, .noError⟩) := by
  obtain ⟨hurg, hack, hpsh, hrst, hsyn, hfin⟩ := h.flags_of_flagByte
  have hdoff := doff_of_shifted hr.doff_lt
  have hfive : ¬h.doff < 5 := by
    rw [UInt8.lt_iff_toNat_lt]
    exact not_lt.mpr hr.doff
  have hoptions : h.doff.toNat * 4 - LENGTH =
      (List.replicate (4 * h.doff.toNat - 20) (0 : Byte)).length := by
    rw [List.length_replicate, LENGTH, Nat.mul_comm]
  rw [parse]
  simp only [fieldBytes, bytesBefore, List.append_assoc, NetParser.u8_unparse,
    NetParser.u16_unparse, NetParser.u32_unparse]
  rw [hurg, hack, hpsh, hrst, hsyn, hfin, hdoff, if_neg hfive, hoptions,
    NetParser.removePrefix_of_le (by rw [List.length_append]; exact Nat.le_add_right _ _),
    List.drop_left]
  rfl

/-- The bytes of the header, the options zero. -/
def headerBytes (h : TCPHeader) : List Byte :=
  resize h.fieldBytes (4 * h.doff.toNat)

theorem serialize_of_le {h : TCPHeader} (hdoff : 5 ≤ h.doff.toNat) :
    h.serialize = .ok h.headerBytes := by
  have hfive : ¬h.doff < 5 := by
    rw [UInt8.lt_iff_toNat_lt]
    exact not_lt.mpr hdoff
  rw [serialize, if_neg hfive, headerBytes]

theorem headerBytes_eq {h : TCPHeader} (hdoff : 5 ≤ h.doff.toNat) :
    h.headerBytes = h.fieldBytes ++ List.replicate (4 * h.doff.toNat - 20) 0 := by
  have hfields : h.fieldBytes.length = 20 := h.length_fieldBytes
  rw [headerBytes, resize_of_length_le (by omega), hfields]

theorem length_headerBytes {h : TCPHeader} (hdoff : 5 ≤ h.doff.toNat) :
    h.headerBytes.length = 4 * h.doff.toNat := by
  have hfields : h.fieldBytes.length = 20 := h.length_fieldBytes
  rw [headerBytes_eq hdoff, List.length_append, hfields, List.length_replicate]
  omega

/-- The bytes around the checksum. -/
theorem headerBytes_split {h : TCPHeader} (hdoff : 5 ≤ h.doff.toNat) :
    h.headerBytes = h.bytesBefore ++ NetUnparser.u16 h.cksum ++
      (NetUnparser.u16 h.uptr ++ List.replicate (4 * h.doff.toNat - 20) 0) := by
  rw [headerBytes_eq hdoff, fieldBytes, List.append_assoc]

/-- **Round trip of a header.**  It is read back, and the options are skipped. -/
theorem parse_headerBytes {h : TCPHeader} (hr : h.Representable) (rest : Buffer) :
    parse ⟨h.headerBytes ++ rest, .noError⟩ = (.noError, h, ⟨rest, .noError⟩) := by
  rw [headerBytes_eq hr.doff, List.append_assoc]
  exact parse_fieldBytes hr rest

end TCPHeader

namespace TCPSegment

open TCPHeader (headerBytes)

/-- The checksum that `serialize` computes. -/
def checksum (seg : TCPSegment) (datagramLayerChecksum : UInt32) : UInt16 :=
  (InternetChecksum.add ⟨datagramLayerChecksum.toNat, false⟩
    (headerBytes { seg.header with cksum := 0 } ++ seg.payload)).value

/-- The segment that `serialize` writes. -/
def segmentOut (seg : TCPSegment) (datagramLayerChecksum : UInt32) : TCPSegment :=
  { seg with header := { seg.header with cksum := seg.checksum datagramLayerChecksum } }

theorem serialize_of_le {seg : TCPSegment} (hdoff : 5 ≤ seg.header.doff.toNat) (pcksum : UInt32) :
    seg.serialize pcksum =
      .ok ⟨[(seg.segmentOut pcksum).header.headerBytes, seg.payload]⟩ := by
  have hzero : TCPHeader.serialize { seg.header with cksum := 0 } =
      .ok (headerBytes { seg.header with cksum := 0 }) :=
    TCPHeader.serialize_of_le hdoff
  have hout : (seg.segmentOut pcksum).header.serialize =
      .ok (seg.segmentOut pcksum).header.headerBytes :=
    TCPHeader.serialize_of_le hdoff
  rw [segmentOut, checksum, InternetChecksum.add_append] at hout ⊢
  rw [serialize, hzero]
  change (TCPHeader.serialize _ >>= fun out => pure ((BufferList.ofBuffer out).append _)) = _
  rw [hout]
  rfl

/-- The data offset fits, and the length of the segment fits the checksum's accumulator. -/
structure Representable (seg : TCPSegment) (pcksum : UInt32) : Prop where
  header : seg.header.Representable
  fits : pcksum.toNat + 65280 * (4 * seg.header.doff.toNat + seg.payload.length) < 2 ^ 32

theorem Representable.segmentOut_header {seg : TCPSegment} {pcksum : UInt32}
    (hs : seg.Representable pcksum) : (seg.segmentOut pcksum).header.Representable :=
  ⟨hs.header.doff, hs.header.doff_lt⟩

/-- The bytes of the segment with some checksum in it. -/
theorem headerBytes_withChecksum {seg : TCPSegment} (hdoff : 5 ≤ seg.header.doff.toNat)
    (cksum : UInt16) :
    headerBytes { seg.header with cksum := cksum } ++ seg.payload =
      seg.header.bytesBefore ++ NetUnparser.u16 cksum ++
        (NetUnparser.u16 seg.header.uptr ++
          List.replicate (4 * seg.header.doff.toNat - 20) 0 ++ seg.payload) := by
  have hsplit := TCPHeader.headerBytes_split (h := { seg.header with cksum := cksum }) hdoff
  rw [hsplit, List.append_assoc]
  rfl

/-- The computed checksum checks out. -/
theorem value_segmentOut {seg : TCPSegment} {pcksum : UInt32} (hs : seg.Representable pcksum) :
    (InternetChecksum.add ⟨pcksum.toNat, false⟩
      ((seg.segmentOut pcksum).header.headerBytes ++ seg.payload)).value = 0 := by
  have hdoff := hs.header.doff
  have heven : seg.header.bytesBefore.length.bodd = false := by
    rw [TCPHeader.length_bytesBefore]
    rfl
  have hout : (seg.segmentOut pcksum).header =
      { seg.header with cksum := seg.checksum pcksum } := rfl
  -- the bytes that are summed and those that are sent differ in the checksum only
  rw [hout, checksum, headerBytes_withChecksum hdoff, headerBytes_withChecksum hdoff]
  refine InternetChecksum.value_eq_zero_of_filled heven ?_
  have hlen : seg.header.bytesBefore.length + 2 + (NetUnparser.u16 seg.header.uptr ++
      List.replicate (4 * seg.header.doff.toNat - 20) (0 : Byte) ++ seg.payload).length =
        4 * seg.header.doff.toNat + seg.payload.length := by
    simp only [TCPHeader.length_bytesBefore, List.length_append, NetUnparser.length_u16,
      List.length_replicate]
    omega
  rw [hlen]
  exact hs.fits

/-- **Round trip of a segment.** -/
theorem parse_serialize {seg : TCPSegment} {pcksum : UInt32} (hs : seg.Representable pcksum) :
    ∃ bytes, seg.serialize pcksum = .ok bytes ∧
      bytes.size = 4 * seg.header.doff.toNat + seg.payload.length ∧
      ∀ old : TCPSegment,
        old.parse bytes.concatenate pcksum = (.noError, seg.segmentOut pcksum) := by
  have hdoff := hs.header.doff
  refine ⟨_, serialize_of_le hdoff pcksum, ?_, ?_⟩
  · have hlen : (seg.segmentOut pcksum).header.headerBytes.length = 4 * seg.header.doff.toNat :=
      TCPHeader.length_headerBytes hdoff
    simp [BufferList.size, hlen]
  · intro old
    have hbytes : BufferList.concatenate
        ⟨[(seg.segmentOut pcksum).header.headerBytes, seg.payload]⟩ =
          (seg.segmentOut pcksum).header.headerBytes ++ seg.payload := by
      simp [BufferList.concatenate]
    rw [hbytes, parse, if_neg (not_not.mpr (value_segmentOut hs)),
      TCPHeader.parse_headerBytes hs.segmentOut_header]
    rfl

end TCPSegment
end Sponge

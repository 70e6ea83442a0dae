import Sponge.Datagram.Acceptance
import Sponge.Datagram.Checksum

/-!
# Decoding what was encoded

A datagram whose header fields fit their bits and announce its payload is written by
`IPv4Datagram::serialize` and read back by `IPv4Datagram::parse`, whatever the object
that parses held before.  Only the checksum is not the one the header had, and the
payload comes back in one piece.
-/

namespace Sponge

namespace IPv4Header

theorem resize_of_length_le {bytes : List Byte} {n : Nat} (h : bytes.length ≤ n) :
    resize bytes n = bytes ++ List.replicate (n - bytes.length) 0 := by
  rw [resize, List.take_of_length_le h]

theorem length_fieldBytes (h : IPv4Header) : h.fieldBytes.length = LENGTH := by
  simp [fieldBytes, LENGTH]

/-- The fields have values that their bits can hold. -/
structure Representable (h : IPv4Header) : Prop where
  ver : h.ver = 4
  hlen : 5 ≤ h.hlen.toNat
  hlen_lt : h.hlen.toNat < 16
  offset_lt : h.offset.toNat < 2 ^ 13

theorem Representable.encodable {h : IPv4Header} (hr : h.Representable) : h.Encodable :=
  ⟨hr.ver, hr.hlen⟩

/-- The two halves of the first byte. -/
theorem firstByte_halves {hlen : UInt8} (h : hlen.toNat < 16) :
    (((4 : UInt8) <<< 4) ||| (hlen &&& 0xf)) >>> 4 = 4 ∧
      (((4 : UInt8) <<< 4) ||| (hlen &&& 0xf)) &&& 0x0f = hlen :=
  byte_of_lt (P := fun hlen => (((4 : UInt8) <<< 4) ||| (hlen &&& 0xf)) >>> 4 = 4 ∧
    (((4 : UInt8) <<< 4) ||| (hlen &&& 0xf)) &&& 0x0f = hlen) (by decide) h

private theorem or_and (a b c : UInt16) : (a ||| b) &&& c = a &&& c ||| b &&& c := by
  apply UInt16.toNat_inj.mp
  simp only [UInt16.toNat_and, UInt16.toNat_or, Nat.and_or_distrib_right]

/-- The parts of the word of the flags and the fragment offset. -/
theorem foVal_parts (df mf : Bool) {offset : UInt16} (h : offset.toNat < 2 ^ 13) :
    let foVal : UInt16 :=
      (if df then 0x4000 else 0) ||| (if mf then 0x2000 else 0) ||| (offset &&& 0x1fff)
    (foVal &&& 0x4000 != 0) = df ∧ (foVal &&& 0x2000 != 0) = mf ∧ foVal &&& 0x1fff = offset := by
  have hmask : offset &&& 0x1fff = offset := by
    apply UInt16.toNat_inj.mp
    rw [UInt16.toNat_and]
    exact (Nat.and_two_pow_sub_one_eq_mod _ 13).trans (Nat.mod_eq_of_lt h)
  -- the masks of the flags have no bit in common with that of the offset
  have hdf : offset &&& 0x1fff &&& 0x4000 = 0 := by
    rw [UInt16.and_assoc]
    exact UInt16.and_zero
  have hmf : offset &&& 0x1fff &&& 0x2000 = 0 := by
    rw [UInt16.and_assoc]
    exact UInt16.and_zero
  have hoffset : offset &&& 0x1fff &&& 0x1fff = offset := by
    rw [hmask, hmask]
  simp only [or_and, hdf, hmf, hoffset]
  cases df <;> cases mf <;> exact ⟨rfl, rfl, UInt16.zero_or⟩

/-- The fixed part of the header is read back. -/
theorem encodedIn_fieldBytes {h : IPv4Header} (hr : h.Representable) (rest : Buffer) :
    encodedIn (h.fieldBytes ++ rest) = h := by
  have hlong : 20 ≤ (h.fieldBytes ++ rest).length := by
    rw [List.length_append, length_fieldBytes, LENGTH]
    omega
  have hread : (({} : IPv4Header).parse ⟨h.fieldBytes ++ rest, .noError⟩).2.1 =
      encodedIn (h.fieldBytes ++ rest) := by
    rw [parse_of_long {} hlong]
  obtain ⟨hver, hhlen⟩ := firstByte_halves hr.hlen_lt
  obtain ⟨hdf, hmf, hoffset⟩ := foVal_parts h.df h.mf hr.offset_lt
  -- the parser takes the fields off the bytes one after the other
  rw [← hread, parse, if_neg (by exact not_lt.mpr hlong)]
  simp only [fieldBytes, List.append_assoc, NetParser.u8_unparse, NetParser.u16_unparse,
    NetParser.u32_unparse]
  rw [hr.ver, hver, hhlen, hdf, hmf, hoffset, ← hr.ver]

/-- The sum of the pseudo-header is far below `2 ^ 32`: it sums six 16-bit numbers. -/
theorem pseudoCksum_le (h : IPv4Header) : h.pseudoCksum.toNat ≤ 6 * 65535 := by
  have hshift : ∀ x : UInt32, (x >>> 16).toNat ≤ 65535 := by
    intro x
    have hx := x.toNat_lt
    rw [UInt32.toNat_shiftRight, Nat.shiftRight_eq_div_pow]
    change x.toNat / 2 ^ 16 ≤ 65535
    omega
  have hmask : ∀ x : UInt32, (x &&& 0xffff).toNat ≤ 65535 := by
    intro x
    rw [UInt32.toNat_and]
    exact Nat.and_le_right
  have hproto := h.proto.toNat_lt
  have hlen := h.payloadLength.toNat_lt
  have hsrchigh := hshift h.src
  have hsrclow := hmask h.src
  have hdsthigh := hshift h.dst
  have hdstlow := hmask h.dst
  simp only [pseudoCksum, UInt32.toNat_add, UInt8.toNat_toUInt32, UInt16.toNat_toUInt32]
  omega

end IPv4Header

namespace IPv4Datagram

open IPv4Header

/-- The checksum that `serialize` computes. -/
def headerChecksum (h : IPv4Header) : UInt16 :=
  (InternetChecksum.add {} (resize { h with cksum := 0 }.fieldBytes (4 * h.hlen.toNat))).value

/-- The header that `serialize` writes. -/
def headerOut (h : IPv4Header) : IPv4Header :=
  { h with cksum := headerChecksum h }

/-- The pseudo-header does not hold the checksum of the datagram. -/
theorem pseudoCksum_headerOut (h : IPv4Header) :
    (headerOut h).pseudoCksum = h.pseudoCksum := by
  simp only [pseudoCksum, payloadLength, headerOut]

/-- The bytes of that header, the options zero. -/
def headerBytes (h : IPv4Header) : List Byte :=
  resize (headerOut h).fieldBytes (4 * h.hlen.toNat)

theorem serialize_of_encodable {d : IPv4Datagram} (hd : d.Encodable) :
    d.serialize = .ok ((BufferList.ofBuffer (headerBytes d.header)).append d.payload) := by
  obtain ⟨hsize, he⟩ := hd
  have hzero : IPv4Header.Encodable { d.header with cksum := 0 } := he
  have hout : IPv4Header.Encodable (headerOut d.header) := he
  rw [serialize, if_neg (not_not.mpr hsize), IPv4Header.serialize_of_encodable hzero]
  change ((headerOut d.header).serialize >>= fun out =>
    pure ((BufferList.ofBuffer out).append d.payload)) = _
  rw [IPv4Header.serialize_of_encodable hout]
  rfl

/-- The header fits its bits, and announces itself and the payload. -/
structure Representable (d : IPv4Datagram) : Prop where
  header : d.header.Representable
  len : d.header.len.toNat = 4 * d.header.hlen.toNat + d.payload.size

theorem headerBytes_eq {h : IPv4Header} (hlen : 5 ≤ h.hlen.toNat) :
    headerBytes h =
      (headerOut h).fieldBytes ++ List.replicate (4 * h.hlen.toNat - 20) 0 := by
  have hfields : (headerOut h).fieldBytes.length = 20 := length_fieldBytes (headerOut h)
  rw [headerBytes, resize_of_length_le (by omega), hfields]

theorem length_headerBytes {h : IPv4Header} (hlen : 5 ≤ h.hlen.toNat) :
    (headerBytes h).length = 4 * h.hlen.toNat := by
  have hfields : (headerOut h).fieldBytes.length = 20 := length_fieldBytes (headerOut h)
  rw [headerBytes_eq hlen, List.length_append, hfields, List.length_replicate]
  omega

/-- A representable datagram can be encoded, and these are its bytes. -/
theorem Representable.serialize_eq {d : IPv4Datagram} (hd : d.Representable) :
    ∃ bytes, d.serialize = .ok bytes ∧
      bytes.concatenate = headerBytes d.header ++ d.payload.concatenate := by
  have hlen := d.header.len.toNat_lt
  have hsize : d.payload.size = d.header.payloadLength.toNat := by
    have hfits : d.header.Fits (List.replicate d.header.len.toNat 0) := by
      refine ⟨hd.header.ver, hd.header.hlen, ?_, List.length_replicate.symm⟩
      rw [List.length_replicate, hd.len]
      exact Nat.le_add_right _ _
    rw [hfits.payloadLength_eq, List.length_replicate, hd.len, Nat.add_sub_cancel_left]
  exact ⟨_, serialize_of_encodable ⟨hsize, hd.header.encodable⟩, rfl⟩

/-- **Round trip of a datagram.**  What was encoded is accepted, and read back with the
checksum that was computed. -/
theorem parse_serialize {d : IPv4Datagram} (hd : d.Representable) (old : IPv4Datagram) :
    ∃ bytes, d.serialize = .ok bytes ∧ old.parse bytes.concatenate =
      (.noError, ⟨headerOut d.header, .ofBuffer d.payload.concatenate⟩) := by
  obtain ⟨bytes, hserialize, hbytes⟩ := hd.serialize_eq
  refine ⟨bytes, hserialize, ?_⟩
  have hheaderlen : (headerBytes d.header).length = 4 * d.header.hlen.toNat :=
    length_headerBytes hd.header.hlen
  have hlength : bytes.concatenate.length = d.header.len.toNat := by
    rw [hbytes, List.length_append, hheaderlen, BufferList.length_concatenate, hd.len]
  have hhlen := hd.header.hlen
  have hlong : 20 ≤ bytes.concatenate.length := by
    rw [hlength, hd.len]
    omega
  have hencoded : encodedIn bytes.concatenate = headerOut d.header := by
    have hout : (headerOut d.header).Representable :=
      ⟨hd.header.ver, hd.header.hlen, hd.header.hlen_lt, hd.header.offset_lt⟩
    rw [hbytes, headerBytes_eq hhlen, List.append_assoc]
    exact encodedIn_fieldBytes hout _
  have hfits : (encodedIn bytes.concatenate).Fits bytes.concatenate := by
    rw [hencoded]
    refine ⟨hd.header.ver, hhlen, ?_, hlength.symm⟩
    rw [hlength, hd.len]
    exact Nat.le_add_right _ _
  obtain ⟨hheader, hcase⟩ := old.parse_of_long hlong
  rcases hcase with ⟨-, hok, hpayload⟩ | ⟨hnot, -⟩
  · have hrest : bytes.concatenate.drop (4 * (encodedIn bytes.concatenate).hlen.toNat) =
        d.payload.concatenate := by
      rw [hencoded, hbytes]
      exact List.drop_left' hheaderlen
    rw [hrest] at hpayload
    rw [hencoded] at hheader
    refine Prod.ext hok ?_
    generalize (old.parse bytes.concatenate).2 = parsed at hheader hpayload
    obtain ⟨header, payload⟩ := parsed
    exact congrArg₂ IPv4Datagram.mk hheader hpayload
  · exact absurd hfits hnot

/-! ## The checksum, and encoding again -/

/-- The fields before the checksum, in wire order. -/
def bytesBefore (h : IPv4Header) : List Byte :=
  NetUnparser.u8 ((h.ver <<< 4) ||| (h.hlen &&& 0xf)) ++ NetUnparser.u8 h.tos ++
    NetUnparser.u16 h.len ++ NetUnparser.u16 h.id ++
    NetUnparser.u16 ((if h.df then 0x4000 else 0) ||| (if h.mf then 0x2000 else 0) |||
      (h.offset &&& 0x1fff)) ++ NetUnparser.u8 h.ttl ++ NetUnparser.u8 h.proto

theorem length_bytesBefore (h : IPv4Header) : (bytesBefore h).length = 10 := by
  simp [bytesBefore]

/-- The bytes of the header with some checksum in it. -/
theorem resize_withChecksum {h : IPv4Header} (hlen : 5 ≤ h.hlen.toNat) (cksum : UInt16) :
    resize { h with cksum := cksum }.fieldBytes (4 * h.hlen.toNat) =
      bytesBefore h ++ NetUnparser.u16 cksum ++
        (NetUnparser.u32 h.src ++ NetUnparser.u32 h.dst ++
          List.replicate (4 * h.hlen.toNat - 20) 0) := by
  have hfields : IPv4Header.fieldBytes { h with cksum := cksum } =
      bytesBefore h ++ NetUnparser.u16 cksum ++
        (NetUnparser.u32 h.src ++ NetUnparser.u32 h.dst) := by
    simp only [fieldBytes, bytesBefore, List.append_assoc]
  have hlength : (IPv4Header.fieldBytes { h with cksum := cksum }).length = 20 :=
    length_fieldBytes _
  rw [resize_of_length_le (by omega), hlength, hfields, List.append_assoc]

/-- The computed checksum checks out. -/
theorem value_headerBytes {h : IPv4Header} (hr : h.Representable) :
    (InternetChecksum.add {} (headerBytes h)).value = 0 := by
  have hlt := hr.hlen_lt
  have heven : (bytesBefore h).length.bodd = false := by
    rw [length_bytesBefore]
    rfl
  rw [headerBytes, headerOut, headerChecksum, resize_withChecksum hr.hlen,
    resize_withChecksum hr.hlen]
  refine InternetChecksum.value_eq_zero_of_filled heven ?_
  simp only [length_bytesBefore, List.length_append, NetUnparser.length_u32,
    List.length_replicate]
  omega

/-- What is written does not depend on the checksum the header had. -/
theorem headerBytes_headerOut (h : IPv4Header) : headerBytes (headerOut h) = headerBytes h := rfl

/-- **Decoding undoes encoding.**  A datagram whose fields fit their bits and announce its
payload can be encoded, and is read back except for its checksum, which checks out; encoded
again, it gives the same bytes. -/
theorem decode_undoes_encode {d : IPv4Datagram} (hver : d.header.ver = 4)
    (hhlen : 5 ≤ d.header.hlen.toNat ∧ d.header.hlen.toNat ≤ 15)
    (hoffset : d.header.offset.toNat < 2 ^ 13)
    (hlen : d.header.len.toNat = 4 * d.header.hlen.toNat + d.payload.size)
    (old : IPv4Datagram) :
    ∃ bytes parsed again, d.serialize = .ok bytes ∧
      old.parse bytes.concatenate = (.noError, parsed) ∧
      parsed.header = { d.header with cksum := parsed.header.cksum } ∧
      (InternetChecksum.add {} (bytes.concatenate.take (4 * parsed.header.hlen.toNat))).value = 0 ∧
      parsed.payload.concatenate = d.payload.concatenate ∧
      parsed.serialize = .ok again ∧ again.concatenate = bytes.concatenate := by
  have hd : d.Representable := ⟨⟨hver, hhlen.1, Nat.lt_succ_of_le hhlen.2, hoffset⟩, hlen⟩
  obtain ⟨bytes, hserialize, hbytes⟩ := hd.serialize_eq
  obtain ⟨bytes', hserialize', hparse⟩ := parse_serialize hd old
  rw [hserialize] at hserialize'
  cases hserialize'
  -- the parsed datagram is representable too, and its bytes are the same
  have hsame : (⟨headerOut d.header, .ofBuffer d.payload.concatenate⟩ :
      IPv4Datagram).Representable := by
    refine ⟨⟨hver, hhlen.1, Nat.lt_succ_of_le hhlen.2, hoffset⟩, ?_⟩
    rw [BufferList.size_ofBuffer, BufferList.length_concatenate]
    exact hlen
  obtain ⟨again, hagain, hagainbytes⟩ := hsame.serialize_eq
  have hpayload : (BufferList.ofBuffer d.payload.concatenate).concatenate =
      d.payload.concatenate := by
    simp [BufferList.ofBuffer, BufferList.concatenate]
  have hhead : bytes.concatenate.take (4 * (headerOut d.header).hlen.toNat) =
      headerBytes d.header := by
    rw [hbytes]
    exact List.take_left' (length_headerBytes hd.header.hlen)
  refine ⟨bytes, _, again, hserialize, hparse, rfl, ?_, hpayload, hagain, ?_⟩
  · rw [hhead]
    exact value_headerBytes hd.header
  · rw [hagainbytes, hbytes, hpayload, headerBytes_headerOut]

/-- A datagram with options, a fragment offset and a payload in two buffers. -/
def splitDatagram : IPv4Datagram where
  header := { hlen := 6, len := 27, offset := 8191, ttl := 1, src := 1, dst := 2 }
  payload := ⟨[[1, 2], [3]]⟩

/-- It comes back, its payload in one piece. -/
theorem decode_undoes_encode_splitDatagram :
    ∃ bytes parsed, splitDatagram.serialize = .ok bytes ∧
      parse {} bytes.concatenate = (.noError, parsed) ∧
      parsed.header.offset = 8191 ∧ parsed.payload.concatenate = [1, 2, 3] := by
  obtain ⟨bytes, parsed, again, hserialize, hparse, hheader, -, hpayload, -, -⟩ :=
    decode_undoes_encode (d := splitDatagram) rfl (by decide) (by decide) (by decide) {}
  refine ⟨bytes, parsed, hserialize, hparse, ?_, hpayload⟩
  rw [hheader]
  rfl

end IPv4Datagram
end Sponge

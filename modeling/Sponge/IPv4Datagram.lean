import Sponge.Parser

/-!
# Internet datagrams

`IPv4Header` (`ipv4_header.hh`) and `IPv4Datagram` (`ipv4_datagram.hh`), which
the source also calls `InternetDatagram`, with their parsers and serializers.  A parser
takes the object it is called on, since a parse that gives up early leaves fields as
they were.
-/

namespace Sponge

namespace IPv4Header

/-- Header length in bytes, without options. -/
def LENGTH : Nat := 20

def defaultTTL : UInt8 := 128

def protoTCP : UInt8 := 6

end IPv4Header

/-- The IPv4 header, with the defaults of the source. -/
structure IPv4Header where
  ver : UInt8 := 4
  hlen : UInt8 := (IPv4Header.LENGTH / 4).toUInt8
  tos : UInt8 := 0
  len : UInt16 := 0
  id : UInt16 := 0
  df : Bool := true
  mf : Bool := false
  offset : UInt16 := 0
  ttl : UInt8 := IPv4Header.defaultTTL
  proto : UInt8 := IPv4Header.protoTCP
  cksum : UInt16 := 0
  src : UInt32 := 0
  dst : UInt32 := 0
deriving DecidableEq, Repr

namespace IPv4Header

/-- `uint16_t`, so a header longer than the datagram wraps around. -/
def payloadLength (h : IPv4Header) : UInt16 :=
  h.len - 4 * h.hlen.toUInt16

/-- The sum of the pseudo-header, for the checksum of an encapsulated TCP segment. -/
def pseudoCksum (h : IPv4Header) : UInt32 :=
  let pcksum := (h.src >>> 16) + (h.src &&& 0xffff)
  let pcksum := pcksum + ((h.dst >>> 16) + (h.dst &&& 0xffff))
  let pcksum := pcksum + h.proto.toUInt32
  pcksum + h.payloadLength.toUInt32

/-- The checks `parse` makes once the fixed part has been read. -/
def checkParsed (h : IPv4Header) (original : Buffer) (p : NetParser) : ParseResult × NetParser :=
  let dataSize := original.length
  if dataSize < 4 * h.hlen.toNat then (.packetTooShort, p)
  else if h.ver ≠ 4 then (.wrongIPVersion, p)
  else if h.hlen < 5 then (.headerTooShort, p)
  else if dataSize ≠ h.len.toNat then (.truncatedPacket, p)
  else
    let p := p.removePrefix (h.hlen.toNat * 4 - LENGTH)
    if p.error ≠ .noError then (p.error, p)
    else
      let check := InternetChecksum.add {} (original.take (4 * h.hlen.toNat))
      if check.value ≠ 0 then (.badChecksum, p) else (.noError, p)

/-- `IPv4Header::parse`: the result, the header and the parser afterwards. -/
def parse (h : IPv4Header) (p : NetParser) : ParseResult × IPv4Header × NetParser :=
  let original := p.buffer
  if original.length < LENGTH then (.packetTooShort, h, p)
  else
    let (firstByte, p) := p.u8
    let (tos, p) := p.u8
    let (len, p) := p.u16
    let (id, p) := p.u16
    let (foVal, p) := p.u16
    let (ttl, p) := p.u8
    let (proto, p) := p.u8
    let (cksum, p) := p.u16
    let (src, p) := p.u32
    let (dst, p) := p.u32
    let h : IPv4Header :=
      { ver := firstByte >>> 4, hlen := firstByte &&& 0x0f, tos, len, id
        df := foVal &&& 0x4000 != 0, mf := foVal &&& 0x2000 != 0, offset := foVal &&& 0x1fff
        ttl, proto, cksum, src, dst }
    let (result, p) := h.checkParsed original p
    (result, h, p)

/-- `std::string::resize`: cut, or fill with zero bytes. -/
def resize (bytes : List Byte) (n : Nat) : List Byte :=
  bytes.take n ++ List.replicate (n - bytes.length) 0

/-- The fields in wire order, before the header is brought to its advertised size. -/
def fieldBytes (h : IPv4Header) : List Byte :=
  let firstByte := (h.ver <<< 4) ||| (h.hlen &&& 0xf)
  let foVal : UInt16 :=
    (if h.df then 0x4000 else 0) ||| (if h.mf then 0x2000 else 0) ||| (h.offset &&& 0x1fff)
  NetUnparser.u8 firstByte ++ NetUnparser.u8 h.tos ++ NetUnparser.u16 h.len ++
    NetUnparser.u16 h.id ++ NetUnparser.u16 foVal ++ NetUnparser.u8 h.ttl ++
    NetUnparser.u8 h.proto ++ NetUnparser.u16 h.cksum ++ NetUnparser.u32 h.src ++
    NetUnparser.u32 h.dst

/-- `IPv4Header::serialize`; the checksum is not recomputed. -/
def serialize (h : IPv4Header) : Except RuntimeError (List Byte) :=
  if h.ver ≠ 4 then .error ⟨"wrong IP version"⟩
  else if 4 * h.hlen.toNat < LENGTH then .error ⟨"IP header too short"⟩
  else .ok (resize h.fieldBytes (4 * h.hlen.toNat))

/-- The version and the length are all that `serialize` asks for. -/
def Encodable (h : IPv4Header) : Prop :=
  h.ver = 4 ∧ 5 ≤ h.hlen.toNat

instance (h : IPv4Header) : Decidable h.Encodable :=
  inferInstanceAs (Decidable (_ ∧ _))

theorem serialize_of_encodable {h : IPv4Header} (he : h.Encodable) :
    h.serialize = .ok (resize h.fieldBytes (4 * h.hlen.toNat)) := by
  have hlen := he.2
  rw [serialize, if_neg (not_not.mpr he.1), if_neg (by unfold LENGTH; omega)]

theorem serialize_of_not_encodable {h : IPv4Header} (he : ¬h.Encodable) :
    ∃ e, h.serialize = .error e := by
  unfold serialize LENGTH
  split_ifs with hver hlen
  · exact ⟨_, rfl⟩
  · exact ⟨_, rfl⟩
  · exact absurd ⟨not_not.mp hver, by omega⟩ he

end IPv4Header

structure IPv4Datagram where
  header : IPv4Header := {}
  payload : BufferList := {}
deriving DecidableEq, Repr

abbrev InternetDatagram := IPv4Datagram

namespace IPv4Datagram

/-- `IPv4Datagram::parse`.  What the header's parser returns is dropped; only the error
of the `NetParser` and the length of the payload count. -/
def parse (d : IPv4Datagram) (buffer : Buffer) : ParseResult × IPv4Datagram :=
  let (_, header, p) := d.header.parse ⟨buffer, .noError⟩
  let payload := BufferList.ofBuffer p.buffer
  if payload.size ≠ header.payloadLength.toNat then (.packetTooShort, ⟨header, payload⟩)
  else (p.error, ⟨header, payload⟩)

def serialize (d : IPv4Datagram) : Except RuntimeError BufferList :=
  if d.payload.size ≠ d.header.payloadLength.toNat then
    .error ⟨"IPv4Datagram::serialize: payload is wrong size"⟩
  else do
    let zero ← { d.header with cksum := 0 }.serialize
    let check := InternetChecksum.add {} zero
    let out ← { d.header with cksum := check.value }.serialize
    return (BufferList.ofBuffer out).append d.payload

/-- A datagram can be encoded if its header can and announces the payload it has. -/
def Encodable (d : IPv4Datagram) : Prop :=
  d.payload.size = d.header.payloadLength.toNat ∧ d.header.Encodable

instance (d : IPv4Datagram) : Decidable d.Encodable :=
  inferInstanceAs (Decidable (_ ∧ _))

/-- `serialize` throws exactly on the other datagrams. -/
theorem exists_serialize_iff (d : IPv4Datagram) :
    (∃ bytes, d.serialize = .ok bytes) ↔ d.Encodable := by
  unfold serialize Encodable
  by_cases hsize : d.payload.size = d.header.payloadLength.toNat
  · rw [if_neg (not_not.mpr hsize)]
    simp only [hsize, true_and]
    by_cases he : d.header.Encodable
    · -- the checksum is not one of the fields that are checked
      have hzero : IPv4Header.Encodable { d.header with cksum := 0 } := he
      rw [IPv4Header.serialize_of_encodable hzero]
      generalize IPv4Header.resize _ _ = zero
      have hout : IPv4Header.Encodable
          { d.header with cksum := (InternetChecksum.add {} zero).value } := he
      simp only [Except.bind, bind, IPv4Header.serialize_of_encodable hout, he, iff_true]
      exact ⟨_, rfl⟩
    · have hzero : ¬IPv4Header.Encodable { d.header with cksum := 0 } := he
      obtain ⟨e, herr⟩ := IPv4Header.serialize_of_not_encodable hzero
      rw [herr]
      simp [Except.bind, bind, he]
  · rw [if_pos hsize]
    simp [hsize]

end IPv4Datagram
end Sponge

import Sponge.IPv4Datagram
import Sponge.TCPSegment

/-!
# TCP segments on the wire

`parse` and `serialize` of `TCPHeader` (`tcp_header.cc`) and of `TCPSegment`
(`tcp_segment.cc`).  The header's parser assigns every field; the segment's keeps the
object as it was if the checksum is wrong.
-/

namespace Sponge

namespace TCPHeader

open IPv4Header (resize)

/-- Header length in bytes, without options. -/
def LENGTH : Nat := 20

/-- `TCPHeader::parse`: the result, the header and the parser afterwards. -/
def parse (p : NetParser) : ParseResult × TCPHeader × NetParser :=
  let (sport, p) := p.u16
  let (dport, p) := p.u16
  let (seqno, p) := p.u32
  let (ackno, p) := p.u32
  let (doffByte, p) := p.u8
  let (flB, p) := p.u8
  let (win, p) := p.u16
  let (cksum, p) := p.u16
  let (uptr, p) := p.u16
  let h : TCPHeader :=
    { sport, dport, seqno := ⟨seqno⟩, ackno := ⟨ackno⟩, doff := doffByte >>> 4
      urg := flB &&& 0b00100000 != 0, ack := flB &&& 0b00010000 != 0
      psh := flB &&& 0b00001000 != 0, rst := flB &&& 0b00000100 != 0
      syn := flB &&& 0b00000010 != 0, fin := flB &&& 0b00000001 != 0
      win, cksum, uptr }
  if h.doff < 5 then (.headerTooShort, h, p)
  else
    -- skip any options or anything extra in the header
    let p := p.removePrefix (h.doff.toNat * 4 - LENGTH)
    if p.error ≠ .noError then (p.error, h, p) else (.noError, h, p)

/-- The byte that includes the flags. -/
def flagByte (h : TCPHeader) : UInt8 :=
  (if h.urg then 0b00100000 else 0) ||| (if h.ack then 0b00010000 else 0) |||
    (if h.psh then 0b00001000 else 0) ||| (if h.rst then 0b00000100 else 0) |||
    (if h.syn then 0b00000010 else 0) ||| (if h.fin then 0b00000001 else 0)

/-- The fields before the checksum, in wire order. -/
def bytesBefore (h : TCPHeader) : List Byte :=
  NetUnparser.u16 h.sport ++ NetUnparser.u16 h.dport ++ NetUnparser.u32 h.seqno.rawValue ++
    NetUnparser.u32 h.ackno.rawValue ++ NetUnparser.u8 (h.doff <<< 4) ++
    NetUnparser.u8 h.flagByte ++ NetUnparser.u16 h.win

/-- The fields in wire order, before the header is brought to its advertised size. -/
def fieldBytes (h : TCPHeader) : List Byte :=
  h.bytesBefore ++ NetUnparser.u16 h.cksum ++ NetUnparser.u16 h.uptr

/-- `TCPHeader::serialize`; the checksum is not recomputed. -/
def serialize (h : TCPHeader) : Except RuntimeError (List Byte) :=
  if h.doff < 5 then .error ⟨"TCP header too short"⟩
  else .ok (resize h.fieldBytes (4 * h.doff.toNat))

end TCPHeader

namespace TCPSegment

/-- `TCPSegment::parse`.  What the header's parser returns is dropped; only the error of
the `NetParser` counts. -/
def parse (seg : TCPSegment) (buffer : Buffer) (datagramLayerChecksum : UInt32) :
    ParseResult × TCPSegment :=
  let check := InternetChecksum.add ⟨datagramLayerChecksum.toNat, false⟩ buffer
  if check.value ≠ 0 then (.badChecksum, seg)
  else
    let (_, header, p) := TCPHeader.parse ⟨buffer, .noError⟩
    (p.error, ⟨header, p.buffer⟩)

def serialize (seg : TCPSegment) (datagramLayerChecksum : UInt32) :
    Except RuntimeError BufferList := do
  let zero ← { seg.header with cksum := 0 }.serialize
  -- calculate checksum -- taken over entire segment
  let check := (InternetChecksum.add ⟨datagramLayerChecksum.toNat, false⟩ zero).add seg.payload
  let out ← { seg.header with cksum := check.value }.serialize
  return (BufferList.ofBuffer out).append (.ofBuffer seg.payload)

end TCPSegment
end Sponge

import Sponge.ARPMessage

/-!
# Ethernet frames on the wire

`parse` and `serialize` of `EthernetHeader` (`ethernet_header.cc`) and of `EthernetFrame`
(`ethernet_frame.cc`).  The header's parser reports a short frame by its result alone, and
the frame's parser drops that result.
-/

namespace Sponge

/-- The address in the six bytes from position `i` on. -/
def addressAt (b : Buffer) (i : Nat) : EthernetAddress :=
  #v[b.getD i 0, b.getD (i + 1) 0, b.getD (i + 2) 0, b.getD (i + 3) 0, b.getD (i + 4) 0,
    b.getD (i + 5) 0]

/-- The loop that writes the bytes of an address. -/
def NetUnparser.ethernetAddress (address : EthernetAddress) : List Byte :=
  address.toList.flatMap NetUnparser.u8

theorem NetUnparser.ethernetAddress_eq (address : EthernetAddress) :
    NetUnparser.ethernetAddress address = address.toList := by
  have hone : NetUnparser.u8 = fun byte => [byte] := funext NetUnparser.u8_eq
  rw [NetUnparser.ethernetAddress, hone, List.flatMap_singleton']

theorem NetParser.ethernetAddress_drop {b : Buffer} {i : Nat} (h : i + 6 ≤ b.length) :
    NetParser.ethernetAddress ⟨b.drop i, .noError⟩ =
      (addressAt b i, ⟨b.drop (i + 6), .noError⟩) := by
  rw [NetParser.ethernetAddress]
  simp (disch := omega) only [NetParser.u8_drop, add_assoc, Nat.reduceAdd]
  rfl

/-- An address that was written is read back, and the parser stands after it. -/
theorem NetParser.ethernetAddress_unparse (address : EthernetAddress) (rest : Buffer) :
    NetParser.ethernetAddress ⟨NetUnparser.ethernetAddress address ++ rest, .noError⟩ =
      (address, ⟨rest, .noError⟩) := by
  have hsix : address.toList.length = 6 := by simp
  have hread := NetParser.ethernetAddress_drop (b := address.toList ++ rest) (i := 0) (by simp)
  have hrest : (address.toList ++ rest).drop 6 = rest := List.drop_left' hsix
  rw [NetUnparser.ethernetAddress_eq]
  refine hread.trans ?_
  rw [Nat.zero_add, hrest]
  refine congrArg (·, _) ?_
  apply Vector.toList_inj.mp
  obtain ⟨⟨bytes⟩, hsize⟩ := address
  match bytes, hsize with
  | [_, _, _, _, _, _], _ => rfl

/-- Writing the address found in bytes gives them back. -/
theorem NetUnparser.ethernetAddress_addressAt {b : Buffer} {i : Nat} (h : i + 6 ≤ b.length) :
    NetUnparser.ethernetAddress (addressAt b i) = bytesAt b i 6 := by
  have hbytes : bytesAt b i 6 = bytesAt b i 1 ++ bytesAt b (i + 1) 1 ++ bytesAt b (i + 2) 1 ++
      bytesAt b (i + 3) 1 ++ bytesAt b (i + 4) 1 ++ bytesAt b (i + 5) 1 := by
    simp only [bytesAt_append]
  rw [NetUnparser.ethernetAddress_eq, hbytes]
  simp (disch := omega) only [bytesAt_one]
  rfl

namespace EthernetHeader

/-- Header length in bytes. -/
def LENGTH : Nat := 14

/-- `EthernetHeader::parse`: the result, the header and the parser afterwards. -/
def parse (h : EthernetHeader) (p : NetParser) : ParseResult × EthernetHeader × NetParser :=
  if p.buffer.length < LENGTH then (.packetTooShort, h, p)
  else
    let (dst, p) := p.ethernetAddress
    let (src, p) := p.ethernetAddress
    let (type, p) := p.u16
    (p.error, { dst, src, type }, p)

def serialize (h : EthernetHeader) : List Byte :=
  NetUnparser.ethernetAddress h.dst ++ NetUnparser.ethernetAddress h.src ++ NetUnparser.u16 h.type

/-- The header that the first fourteen bytes encode. -/
def encodedIn (b : Buffer) : EthernetHeader where
  dst := addressAt b 0
  src := addressAt b 6
  type := (bigEndian (bytesAt b 12 2)).toUInt16

/-- A short frame leaves everything as it was, the parser's error included. -/
theorem parse_of_short (h : EthernetHeader) {b : Buffer} (hb : b.length < 14) :
    h.parse ⟨b, .noError⟩ = (.packetTooShort, h, ⟨b, .noError⟩) := by
  rw [parse]
  exact if_pos hb

theorem parse_of_long (h : EthernetHeader) {b : Buffer} (hb : 14 ≤ b.length) :
    h.parse ⟨b, .noError⟩ = (.noError, encodedIn b, ⟨b.drop 14, .noError⟩) := by
  have hfirst : (⟨b, .noError⟩ : NetParser) = ⟨b.drop 0, .noError⟩ := rfl
  rw [hfirst, parse, if_neg (by simp [LENGTH, hb])]
  simp (disch := omega) only [NetParser.ethernetAddress_drop, NetParser.u16_drop, Nat.zero_add,
    Nat.reduceAdd]
  rfl

theorem serialize_encodedIn {b : Buffer} (hb : 14 ≤ b.length) :
    (encodedIn b).serialize = b.take 14 := by
  rw [serialize, encodedIn, NetUnparser.ethernetAddress_addressAt (by omega),
    NetUnparser.ethernetAddress_addressAt (by omega), NetUnparser.u16_bytesAt (by omega),
    bytesAt_append, bytesAt_append]
  rfl

end EthernetHeader

namespace EthernetFrame

/-- `EthernetFrame::parse`.  What the header's parser returns is dropped. -/
def parse (frame : EthernetFrame) (buffer : Buffer) : ParseResult × EthernetFrame :=
  let (_, header, p) := frame.header.parse ⟨buffer, .noError⟩
  (p.error, { header, payload := .ofBuffer p.buffer })

def serialize (frame : EthernetFrame) : BufferList :=
  (BufferList.ofBuffer frame.header.serialize).append frame.payload

/-- `parse` accepts `b` exactly if there is a header in it, and nothing of `b` is lost. -/
def ParsesExactly (frame : EthernetFrame) (b : Buffer) : Prop :=
  ((frame.parse b).1 = .noError ↔ 14 ≤ b.length) ∧
    ((frame.parse b).1 = .noError → (frame.parse b).2.serialize.concatenate = b)

instance (frame : EthernetFrame) (b : Buffer) : Decidable (frame.ParsesExactly b) :=
  inferInstanceAs (Decidable (_ ∧ _))

/-- **When a frame is decoded exactly**: when it is long enough.  A shorter one is accepted
as well, with the header that the object held before. -/
theorem parsesExactly_iff (frame : EthernetFrame) (b : Buffer) :
    frame.ParsesExactly b ↔ 14 ≤ b.length := by
  constructor
  · intro hexact
    by_contra hshort
    have haccepts : (frame.parse b).1 = .noError := by
      rw [parse, EthernetHeader.parse_of_short frame.header (by omega)]
    exact hshort (hexact.1.mp haccepts)
  · intro hlong
    have hparse : frame.parse b =
        (.noError, { header := .encodedIn b, payload := .ofBuffer (b.drop 14) }) := by
      rw [parse, EthernetHeader.parse_of_long frame.header hlong]
    rw [ParsesExactly, hparse]
    refine ⟨⟨fun _ => hlong, fun _ => rfl⟩, fun _ => ?_⟩
    show ((EthernetHeader.encodedIn b).serialize :: [b.drop 14]).flatten = b
    rw [EthernetHeader.serialize_encodedIn hlong]
    simp

/-- The empty frame is accepted. -/
theorem parse_accepts_empty : ¬ParsesExactly {} [] := by decide

end EthernetFrame
end Sponge

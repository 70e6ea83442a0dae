import Sponge.IPv4Datagram

/-!
# Ethernet frames and ARP messages

`EthernetHeader` and `EthernetFrame` (`ethernet_header.hh`, `ethernet_frame.hh`) as the
network interface builds and reads them, and `ARPMessage` (`arp_message.hh`) with its
parser and serializer.
-/

namespace Sponge

/-- `EthernetAddress`: six bytes. -/
abbrev EthernetAddress := Vector Byte 6

/-- `ETHERNET_BROADCAST`. -/
def ethernetBroadcast : EthernetAddress := Vector.replicate 6 0xff

namespace EthernetHeader

def typeIPv4 : UInt16 := 0x800

def typeARP : UInt16 := 0x806

end EthernetHeader

structure EthernetHeader where
  dst : EthernetAddress := Vector.replicate 6 0
  src : EthernetAddress := Vector.replicate 6 0
  type : UInt16 := 0
deriving DecidableEq, Repr

structure EthernetFrame where
  header : EthernetHeader := {}
  payload : BufferList := {}
deriving DecidableEq, Repr

namespace ARPMessage

/-- Message length in bytes. -/
def LENGTH : Nat := 28

def typeEthernet : UInt16 := 1

def opcodeRequest : UInt16 := 1

def opcodeReply : UInt16 := 2

end ARPMessage

/-- An ARP message, with the defaults of the source. -/
structure ARPMessage where
  hardwareType : UInt16 := ARPMessage.typeEthernet
  protocolType : UInt16 := EthernetHeader.typeIPv4
  hardwareAddressSize : UInt8 := 6
  protocolAddressSize : UInt8 := 4
  opcode : UInt16 := 0
  senderEthernetAddress : EthernetAddress := Vector.replicate 6 0
  senderIpAddress : UInt32 := 0
  targetEthernetAddress : EthernetAddress := Vector.replicate 6 0
  targetIpAddress : UInt32 := 0
deriving DecidableEq, Repr

/-- The loop that reads the bytes of an address. -/
def NetParser.ethernetAddress (p : NetParser) : EthernetAddress × NetParser :=
  let (a0, p) := p.u8
  let (a1, p) := p.u8
  let (a2, p) := p.u8
  let (a3, p) := p.u8
  let (a4, p) := p.u8
  let (a5, p) := p.u8
  (#v[a0, a1, a2, a3, a4, a5], p)

namespace ARPMessage

def supported (m : ARPMessage) : Bool :=
  m.hardwareType == typeEthernet && m.protocolType == EthernetHeader.typeIPv4 &&
    m.hardwareAddressSize == 6 && m.protocolAddressSize == 4 &&
    (m.opcode == opcodeRequest || m.opcode == opcodeReply)

/-- `ARPMessage::parse`: the result, and the message afterwards. -/
def parse (m : ARPMessage) (buffer : Buffer) : ParseResult × ARPMessage :=
  if buffer.length < LENGTH then (.packetTooShort, m)
  else
    let (hardwareType, p) := NetParser.u16 ⟨buffer, .noError⟩
    let (protocolType, p) := p.u16
    let (hardwareAddressSize, p) := p.u8
    let (protocolAddressSize, p) := p.u8
    let (opcode, p) := p.u16
    let m :=
      { m with hardwareType, protocolType, hardwareAddressSize, protocolAddressSize, opcode }
    -- an unsupported message keeps the addresses that `m` had
    if m.supported = false then (.unsupported, m)
    else
      let (senderEthernetAddress, p) := p.ethernetAddress
      let (senderIpAddress, p) := p.u32
      let (targetEthernetAddress, p) := p.ethernetAddress
      let (targetIpAddress, p) := p.u32
      (p.error, { m with
        senderEthernetAddress, senderIpAddress, targetEthernetAddress, targetIpAddress })

def serialize (m : ARPMessage) : Except RuntimeError (List Byte) :=
  if m.supported = false then
    .error ⟨"ARPMessage::serialize(): unsupported field combination (must be Ethernet/IP, " ++
      "and request or reply)"⟩
  else .ok (NetUnparser.u16 m.hardwareType ++ NetUnparser.u16 m.protocolType ++
    NetUnparser.u8 m.hardwareAddressSize ++ NetUnparser.u8 m.protocolAddressSize ++
    NetUnparser.u16 m.opcode ++ m.senderEthernetAddress.toList.flatMap NetUnparser.u8 ++
    NetUnparser.u32 m.senderIpAddress ++ m.targetEthernetAddress.toList.flatMap NetUnparser.u8 ++
    NetUnparser.u32 m.targetIpAddress)

theorem exists_serialize_of_supported {m : ARPMessage} (h : m.supported = true) :
    ∃ bytes, m.serialize = .ok bytes := by
  rw [serialize, if_neg (by simp [h])]
  exact ⟨_, rfl⟩

end ARPMessage
end Sponge

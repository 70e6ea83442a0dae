import Sponge.FileDescriptor
import Sponge.Frame.Ethernet
import Sponge.TCPOverIPv4Adapter

/-!
# Datagram adapters

What a socket needs of the adapter below it (`AdaptT` of `tcp_sponge_socket.hh`), and the
adapters of `tuntap_adapter.hh`, `tuntap_adapter.cc`, `fd_adapter.hh`, `fd_adapter.cc` and
`lossy_fd_adapter.hh`.  The kernel's side of a device is the queue of the packets that have
arrived and the record of those written.  A read of an empty queue fails here, where the
source's would wait; the loop only reads a device that `poll` has reported.
-/

namespace Sponge

/-- The system's `errno` for a call that would have to wait. -/
def eagain : Nat := 11

/-- The kernel's side of a TUN or TAP device. -/
structure PacketDevice where
  /-- the packets that wait to be read -/
  inbox : List Buffer := []
  /-- the packets written so far -/
  outbox : List Buffer := []
  /-- the `errno`s of the next writes, `none` for one that is taken -/
  refusals : List (Option Nat) := []
deriving DecidableEq, Repr

namespace PacketDevice

/-- A packet that is longer than the caller's buffer is cut. -/
def read (device : PacketDevice) (n : Nat) : SysResult (List Byte) × PacketDevice :=
  match device.inbox with
  | [] => (.fails eagain, device)
  | packet :: rest => (.returns (packet.take n), { device with inbox := rest })

/-- A write is one packet, or is refused as a whole. -/
def writev (device : PacketDevice) (buffer : BufferViewList) : SysResult Nat × PacketDevice :=
  match device.refusals.head?.join with
  | some errno => (.fails errno, { device with refusals := device.refusals.tail })
  | none =>
      (.returns buffer.size,
        { device with
          outbox := device.outbox ++ [buffer.bytes]
          refusals := device.refusals.tail })

end PacketDevice

instance : KernelFile PacketDevice where
  read := PacketDevice.read
  writev := PacketDevice.writev

/-- The kernel's side of a UDP socket: datagrams with the address they come from, or are
sent to. -/
structure DatagramQueue where
  inbox : List (Address × Buffer) := []
  outbox : List (Address × Buffer) := []
  refusals : List (Option Nat) := []
deriving DecidableEq, Repr

namespace UDPSocket

/-- The default `mtu`. -/
def mtu : Nat := 65536

/-- `recvfrom(2)` with `MSG_TRUNC`: the whole datagram counts. -/
def recvfrom (queue : DatagramQueue) : SysResult (Address × Buffer) × DatagramQueue :=
  match queue.inbox with
  | [] => (.fails eagain, queue)
  | datagram :: rest => (.returns datagram, { queue with inbox := rest })

def recv : EStateM Exception (FileDescriptor DatagramQueue) (Address × Buffer) := do
  let datagram ← FileDescriptor.sys "recvfrom" recvfrom
  if datagram.2.length > mtu then
    throw (.runtime ⟨"recvfrom (oversized datagram)"⟩)
  FileDescriptor.registerRead
  return datagram

def sendmsg (destination : Address) (payload : BufferViewList) (queue : DatagramQueue) :
    SysResult Nat × DatagramQueue :=
  match queue.refusals.head?.join with
  | some errno => (.fails errno, { queue with refusals := queue.refusals.tail })
  | none =>
      (.returns payload.size,
        { queue with
          outbox := queue.outbox ++ [(destination, payload.bytes)]
          refusals := queue.refusals.tail })

def sendto (destination : Address) (payload : BufferViewList) :
    EStateM Exception (FileDescriptor DatagramQueue) Unit := do
  let bytesSent ← FileDescriptor.sys "sendmsg" (sendmsg destination payload)
  if bytesSent ≠ payload.size then
    throw (.runtime ⟨"datagram payload too big for sendmsg()"⟩)
  FileDescriptor.registerWrite

end UDPSocket

/-- What `TCPSpongeSocket` asks of its adapter. -/
structure DatagramAdapter (α : Type) where
  fd : α → FDWrapper
  read : EStateM Exception α (Option TCPSegment)
  write : TCPSegment → EStateM Exception α Unit
  tick : Nat → EStateM Exception α Unit
  /-- assign `config_mut()` -/
  setConfig : FdAdapterConfig → α → α
  setListening : Bool → α → α

/-! ## IPv4 over TUN -/

structure TCPOverIPv4OverTunFdAdapter where
  base : TCPOverIPv4Adapter := {}
  tun : FileDescriptor PacketDevice
deriving DecidableEq, Repr

namespace TCPOverIPv4OverTunFdAdapter

/-- A program of `TCPOverIPv4Adapter`. -/
def onBase {β : Type} (m : EStateM RuntimeError TCPOverIPv4Adapter β) :
    EStateM Exception TCPOverIPv4OverTunFdAdapter β :=
  Program.zoom (fun a => a.base) (fun a base => { a with base := base }) .runtime m

/-- A program of the TUN device. -/
def onTun {β : Type} (m : EStateM Exception (FileDescriptor PacketDevice) β) :
    EStateM Exception TCPOverIPv4OverTunFdAdapter β :=
  Program.zoom (fun a => a.tun) (fun a tun => { a with tun := tun }) id m

def read (lib : AddressLibrary) :
    EStateM Exception TCPOverIPv4OverTunFdAdapter (Option TCPSegment) := do
  let bytes ← onTun (FileDescriptor.read FileDescriptor.noLimit)
  let (result, ipDgram) := IPv4Datagram.parse {} bytes
  if result ≠ .noError then
    return none
  onBase (TCPOverIPv4Adapter.unwrapTcpInIp lib ipDgram)

def write (lib : AddressLibrary) (seg : TCPSegment) :
    EStateM Exception TCPOverIPv4OverTunFdAdapter Unit := do
  let base := (← get).base
  let wrapped ← onBase (Program.call (base.wrapTcpInIp lib seg))
  let bytes ← onBase (Program.call wrapped.2.serialize)
  let _ ← onTun (FileDescriptor.write (.ofBufferList bytes) true)

end TCPOverIPv4OverTunFdAdapter

def tunAdapter (lib : AddressLibrary) : DatagramAdapter TCPOverIPv4OverTunFdAdapter where
  fd := fun a => a.tun.toFDWrapper
  read := TCPOverIPv4OverTunFdAdapter.read lib
  write := TCPOverIPv4OverTunFdAdapter.write lib
  tick := fun _ => pure ()
  setConfig := fun config a => { a with base := { a.base with config := config } }
  setListening := fun l a => { a with base := { a.base with listening := l } }

/-! ## IPv4 over Ethernet over TAP -/

structure TCPOverIPv4OverEthernetAdapter where
  base : TCPOverIPv4Adapter := {}
  tap : FileDescriptor PacketDevice
  interface : NetworkInterface
  nextHop : Address

namespace TCPOverIPv4OverEthernetAdapter

def onBase {β : Type} (m : EStateM RuntimeError TCPOverIPv4Adapter β) :
    EStateM Exception TCPOverIPv4OverEthernetAdapter β :=
  Program.zoom (fun a => a.base) (fun a base => { a with base := base }) .runtime m

def onTap {β : Type} (m : EStateM Exception (FileDescriptor PacketDevice) β) :
    EStateM Exception TCPOverIPv4OverEthernetAdapter β :=
  Program.zoom (fun a => a.tap) (fun a tap => { a with tap := tap }) id m

/-- The loop of `send_pending`, with the frames that are pending. -/
def sendFrames : List EthernetFrame → EStateM Exception TCPOverIPv4OverEthernetAdapter Unit
  | [] => pure ()
  | frame :: rest => do
      let _ ← onTap (FileDescriptor.write (.ofBufferList frame.serialize) true)
      modify fun a => { a with interface := { a.interface with framesOut := rest } }
      sendFrames rest

def sendPending : EStateM Exception TCPOverIPv4OverEthernetAdapter Unit := do
  let a ← get
  sendFrames a.interface.framesOut

/-- The constructor, once the members have been set: a dummy frame primes the device. -/
def prime : EStateM Exception TCPOverIPv4OverEthernetAdapter Unit := do
  let dummyFrame : EthernetFrame := {}
  let _ ← onTap (FileDescriptor.write (.ofBufferList dummyFrame.serialize) true)

/-- Install the interface that a call has left. -/
def setInterface (interface : NetworkInterface) :
    EStateM Exception TCPOverIPv4OverEthernetAdapter Unit :=
  modify fun a => { a with interface := interface }

def read (lib : AddressLibrary) :
    EStateM Exception TCPOverIPv4OverEthernetAdapter (Option TCPSegment) := do
  -- read Ethernet frame from the raw device
  let bytes ← onTap (FileDescriptor.read FileDescriptor.noLimit)
  let (result, frame) := EthernetFrame.parse {} bytes
  if result ≠ .noError then
    return none
  -- give the frame to the interface; get back a datagram if the frame was carrying one
  let interface := (← get).interface
  let (interface, ipDgram) ← onBase (Program.call (interface.recvFrame frame))
  setInterface interface
  -- the incoming frame may have caused the interface to send a frame
  sendPending
  -- try to interpret IPv4 datagram as TCP
  match ipDgram with
  | some ipDgram => onBase (TCPOverIPv4Adapter.unwrapTcpInIp lib ipDgram)
  | none => return none

def tick (msSinceLastTick : Nat) : EStateM Exception TCPOverIPv4OverEthernetAdapter Unit := do
  let interface := (← get).interface
  setInterface (interface.tick msSinceLastTick)
  sendPending

def write (lib : AddressLibrary) (seg : TCPSegment) :
    EStateM Exception TCPOverIPv4OverEthernetAdapter Unit := do
  let a ← get
  let wrapped ← onBase (Program.call (a.base.wrapTcpInIp lib seg))
  let interface ← onBase (Program.call (a.interface.sendDatagram wrapped.2 a.nextHop))
  setInterface interface
  sendPending

end TCPOverIPv4OverEthernetAdapter

def ethernetAdapter (lib : AddressLibrary) : DatagramAdapter TCPOverIPv4OverEthernetAdapter where
  fd := fun a => a.tap.toFDWrapper
  read := TCPOverIPv4OverEthernetAdapter.read lib
  write := TCPOverIPv4OverEthernetAdapter.write lib
  tick := TCPOverIPv4OverEthernetAdapter.tick
  setConfig := fun config a => { a with base := { a.base with config := config } }
  setListening := fun l a => { a with base := { a.base with listening := l } }

/-! ## UDP -/

structure TCPOverUDPSocketAdapter where
  config : FdAdapterConfig := {}
  listening : Bool := false
  sock : FileDescriptor DatagramQueue
deriving DecidableEq, Repr

namespace TCPOverUDPSocketAdapter

def onSock {β : Type} (m : EStateM Exception (FileDescriptor DatagramQueue) β) :
    EStateM Exception TCPOverUDPSocketAdapter β :=
  Program.zoom (fun a => a.sock) (fun a sock => { a with sock := sock }) id m

/-- A call of the system's address library. -/
def call {β : Type} (x : Except RuntimeError β) : EStateM Exception TCPOverUDPSocketAdapter β :=
  Program.call (x.mapError .runtime)

def read : EStateM Exception TCPOverUDPSocketAdapter (Option TCPSegment) := do
  let datagram ← onSock UDPSocket.recv
  let a ← get
  -- is it for us?
  if ¬ a.listening ∧ datagram.1 ≠ a.config.destination then
    return none
  -- is the payload a valid TCP segment?
  let (result, seg) := TCPSegment.parse {} datagram.2 0
  if result ≠ .noError then
    return none
  -- should we target this source in all future replies?
  if a.listening then
    if seg.header.syn ∧ ¬ seg.header.rst then
      modify fun a => { a with config := { a.config with destination := datagram.1 } }
      modify fun a => { a with listening := false }
    else
      return none
  return some seg

def write (lib : AddressLibrary) (seg : TCPSegment) :
    EStateM Exception TCPOverUDPSocketAdapter Unit := do
  let a ← get
  let sport ← call (a.config.source.port lib)
  let dport ← call (a.config.destination.port lib)
  let seg := { seg with header := { seg.header with sport := sport, dport := dport } }
  let bytes ← call (seg.serialize 0)
  onSock (UDPSocket.sendto a.config.destination (.ofBufferList bytes))

end TCPOverUDPSocketAdapter

def udpAdapter (lib : AddressLibrary) : DatagramAdapter TCPOverUDPSocketAdapter where
  fd := fun a => a.sock.toFDWrapper
  read := TCPOverUDPSocketAdapter.read
  write := TCPOverUDPSocketAdapter.write lib
  tick := fun _ => pure ()
  setConfig := fun config a => { a with config := config }
  setListening := fun l a => { a with listening := l }

/-! ## Random loss -/

/-- An adapter that drops at random; the loss rates, which the source keeps in the adapter's
configuration, and the numbers that the generator is going to draw are kept beside it. -/
structure LossyFdAdapter (α : Type) where
  adapter : α
  lossRateDn : UInt16 := 0
  lossRateUp : UInt16 := 0
  rand : List UInt16 := []
deriving DecidableEq, Repr

namespace LossyFdAdapter

variable {α : Type}

def onAdapter {β : Type} (m : EStateM Exception α β) : EStateM Exception (LossyFdAdapter α) β :=
  Program.zoom (fun a => a.adapter) (fun a adapter => { a with adapter := adapter }) id m

/-- Nothing is drawn where nothing can be lost. -/
def shouldDrop (uplink : Bool) : EStateM Exception (LossyFdAdapter α) Bool := do
  let a ← get
  let loss := if uplink then a.lossRateUp else a.lossRateDn
  if loss = 0 then
    return false
  set { a with rand := a.rand.tail }
  return decide (a.rand.headD 0 < loss)

def read (adapt : DatagramAdapter α) :
    EStateM Exception (LossyFdAdapter α) (Option TCPSegment) := do
  let ret ← onAdapter adapt.read
  if ← shouldDrop false then
    return none
  return ret

def write (adapt : DatagramAdapter α) (seg : TCPSegment) :
    EStateM Exception (LossyFdAdapter α) Unit := do
  if ← shouldDrop true then
    return
  onAdapter (adapt.write seg)

end LossyFdAdapter

def lossyAdapter {α : Type} (adapt : DatagramAdapter α) :
    DatagramAdapter (LossyFdAdapter α) where
  fd := fun a => adapt.fd a.adapter
  read := LossyFdAdapter.read adapt
  write := LossyFdAdapter.write adapt
  tick := fun ms => LossyFdAdapter.onAdapter (adapt.tick ms)
  setConfig := fun config a => { a with adapter := adapt.setConfig config a.adapter }
  setListening := fun l a => { a with adapter := adapt.setListening l a.adapter }

end Sponge

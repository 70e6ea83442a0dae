import Sponge.ARPMessage
import Sponge.Lib.QueueMap

/-!
# The network interface

`NetworkInterface` of `network_interface.hh` and `network_interface.cc`.  The
`std::unordered_map`s are association lists without repeated keys; `now_time` and the
times in the maps are `uint32_t`.  The interface's own `Address` is only read through
`ipv4_numeric`, so that number stands for it.  Nothing here takes frames from
`framesOut`, so that it also is the record of everything emitted.

The loop of `tick` erases from the map it iterates over; it is taken to visit every
entry that was there when it started once.
-/

namespace Sponge

/-- `Address`: a socket address. -/
inductive Address where
  | ipv4 (numeric : UInt32) (port : UInt16)
  /-- of another family, or of another size -/
  | other (storage : List Byte)
deriving DecidableEq, Repr

def Address.ipv4Numeric : Address → Except RuntimeError UInt32
  | .ipv4 numeric _ => .ok numeric
  | .other _ => .error ⟨"ipv4_numeric called on non-IPV4 address"⟩

structure NetworkInterface where
  ethernetAddress : EthernetAddress
  ipAddress : UInt32
  framesOut : List EthernetFrame := []
  ipAddressMap : AList fun _ : UInt32 => EthernetAddress := ∅
  mapTime : AList fun _ : UInt32 => Nat := ∅
  unsendFrame : AList fun _ : UInt32 => List EthernetFrame := ∅
  latestArpTime : AList fun _ : UInt32 => Nat := ∅
  nowTime : Nat := 0

namespace NetworkInterface

/-- The frame that carries an encoded datagram, its destination still open. -/
def datagramFrame (n : NetworkInterface) (payload : BufferList) : EthernetFrame where
  header := { src := n.ethernetAddress, type := EthernetHeader.typeIPv4 }
  payload := payload

/-- The question for the Ethernet address of `ip`. -/
def arpRequest (n : NetworkInterface) (ip : UInt32) : ARPMessage where
  opcode := ARPMessage.opcodeRequest
  senderIpAddress := n.ipAddress
  senderEthernetAddress := n.ethernetAddress
  targetIpAddress := ip

/-- The answer to a question for our Ethernet address. -/
def arpReply (n : NetworkInterface) (msg : ARPMessage) : ARPMessage where
  opcode := ARPMessage.opcodeReply
  senderIpAddress := n.ipAddress
  senderEthernetAddress := n.ethernetAddress
  targetIpAddress := msg.senderIpAddress
  targetEthernetAddress := msg.senderEthernetAddress

def arpFrame (n : NetworkInterface) (dst : EthernetAddress) (payload : List Byte) :
    EthernetFrame where
  header := { src := n.ethernetAddress, dst := dst, type := EthernetHeader.typeARP }
  payload := .ofBuffer payload

/-- The frame with its destination filled in. -/
def addressed (frame : EthernetFrame) (dst : EthernetAddress) : EthernetFrame :=
  { frame with header := { frame.header with dst := dst } }

/-- An ARP request for `ip` has been sent in the last five seconds. -/
def askedRecently (n : NetworkInterface) (ip : UInt32) : Bool :=
  match n.latestArpTime.lookup ip with
  | some time => decide (Word.sub 32 n.nowTime time < 5000)
  | none => false

/-- `unsend_frame[ip].push_back(frame)`. -/
def enqueue (n : NetworkInterface) (ip : UInt32) (frame : EthernetFrame) : NetworkInterface :=
  { n with unsendFrame := QueueMap.push n.unsendFrame ip frame }

def sendArpRequest (n : NetworkInterface) (ip : UInt32) :
    Except RuntimeError NetworkInterface := do
  let payload ← (n.arpRequest ip).serialize
  return { n with
    framesOut := n.framesOut ++ [n.arpFrame ethernetBroadcast payload]
    latestArpTime := n.latestArpTime.insert ip n.nowTime }

/-- `NetworkInterface::send_datagram`. -/
def sendDatagram (n : NetworkInterface) (dgram : InternetDatagram) (nextHop : Address) :
    Except RuntimeError NetworkInterface := do
  let payload ← dgram.serialize
  let frame := n.datagramFrame payload
  let nextHopIp ← nextHop.ipv4Numeric
  match n.ipAddressMap.lookup nextHopIp with
  | some dst => return { n with framesOut := n.framesOut ++ [addressed frame dst] }
  | none =>
      -- queued before the question is sent
      let n := n.enqueue nextHopIp frame
      if n.askedRecently nextHopIp then return n else n.sendArpRequest nextHopIp

def isEqual (a b : EthernetAddress) : Bool :=
  (List.finRange 6).all fun i => a.get i == b.get i

/-- Neither our address nor the broadcast address. -/
def notForUs (n : NetworkInterface) (frame : EthernetFrame) : Bool :=
  !isEqual frame.header.dst n.ethernetAddress && !isEqual frame.header.dst ethernetBroadcast

/-- Remember the sender of an ARP message. -/
def learn (n : NetworkInterface) (msg : ARPMessage) : NetworkInterface :=
  { n with
    ipAddressMap := n.ipAddressMap.insert msg.senderIpAddress msg.senderEthernetAddress
    mapTime := n.mapTime.insert msg.senderIpAddress n.nowTime }

/-- Send what was waiting for the sender of an ARP message. -/
def flush (n : NetworkInterface) (msg : ARPMessage) : NetworkInterface :=
  match n.unsendFrame.lookup msg.senderIpAddress with
  | some frames =>
      { n with
        framesOut :=
          n.framesOut ++ frames.map fun frame => addressed frame msg.senderEthernetAddress
        unsendFrame := n.unsendFrame.erase msg.senderIpAddress
        latestArpTime := n.latestArpTime.erase msg.senderIpAddress }
  | none => n

/-- The message asks for our Ethernet address. -/
def asksForUs (n : NetworkInterface) (msg : ARPMessage) : Bool :=
  msg.opcode == ARPMessage.opcodeRequest && msg.targetIpAddress == n.ipAddress

/-- The ARP half of `recv_frame`. -/
def recvArp (n : NetworkInterface) (msg : ARPMessage) : Except RuntimeError NetworkInterface :=
  let n := n.learn msg
  if n.asksForUs msg then do
    -- what waits for the sender is not sent on this branch
    let payload ← (n.arpReply msg).serialize
    return { n with framesOut := n.framesOut ++ [n.arpFrame msg.senderEthernetAddress payload] }
  else .ok (n.flush msg)

/-- `NetworkInterface::recv_frame`.  Every frame that is not IPv4 is taken for ARP. -/
def recvFrame (n : NetworkInterface) (frame : EthernetFrame) :
    Except RuntimeError (NetworkInterface × Option InternetDatagram) :=
  if n.notForUs frame then .ok (n, none)
  else if frame.header.type = EthernetHeader.typeIPv4 then do
    let buffer ← frame.payload.toBuffer
    let (result, ipdata) := IPv4Datagram.parse {} buffer
    if result = .noError then return (n, some ipdata) else return (n, none)
  else do
    let buffer ← frame.payload.toBuffer
    let (result, msg) := ARPMessage.parse {} buffer
    if result = .noError then
      let n ← n.recvArp msg
      return (n, none)
    else return (n, none)

/-- A mapping is dropped after thirty seconds. -/
def expire (n : NetworkInterface) (x : Σ _ : UInt32, Nat) : NetworkInterface :=
  if Word.sub 32 n.nowTime x.2 ≥ 30000 then
    { n with
      mapTime := n.mapTime.erase x.1
      ipAddressMap := n.ipAddressMap.erase x.1 }
  else n

def tick (n : NetworkInterface) (msSinceLastTick : Nat) : NetworkInterface :=
  n.mapTime.entries.foldl expire { n with nowTime := Word.add 32 n.nowTime msSinceLastTick }

/-! ## What the calls do -/

theorem isEqual_iff (a b : EthernetAddress) : isEqual a b = true ↔ a = b := by
  rw [isEqual, List.all_eq_true]
  constructor
  · intro h
    apply Vector.ext
    intro i hi
    exact beq_iff_eq.mp (h ⟨i, hi⟩ (List.mem_finRange _))
  · rintro rfl
    simp

/-- The request is one that can be sent. -/
theorem exists_sendArpRequest (n : NetworkInterface) (ip : UInt32) :
    ∃ payload, (n.arpRequest ip).serialize = .ok payload ∧ n.sendArpRequest ip = .ok { n with
      framesOut := n.framesOut ++ [n.arpFrame ethernetBroadcast payload]
      latestArpTime := n.latestArpTime.insert ip n.nowTime } := by
  obtain ⟨payload, heq⟩ := ARPMessage.exists_serialize_of_supported
    (m := n.arpRequest ip) (by rfl)
  exact ⟨payload, heq, by rw [sendArpRequest, heq]; rfl⟩

/-- A request to us is answered. -/
theorem recvArp_of_asks {n : NetworkInterface} {msg : ARPMessage}
    (hasks : n.asksForUs msg = true) :
    ∃ payload, (n.arpReply msg).serialize = .ok payload ∧ n.recvArp msg = .ok { n.learn msg with
      framesOut := n.framesOut ++ [n.arpFrame msg.senderEthernetAddress payload] } := by
  have hsame : (n.learn msg).asksForUs msg = n.asksForUs msg := rfl
  obtain ⟨payload, heq⟩ := ARPMessage.exists_serialize_of_supported
    (m := (n.learn msg).arpReply msg) (by rfl)
  refine ⟨payload, heq, ?_⟩
  rw [recvArp, hsame, hasks, if_pos rfl, heq]
  rfl

/-- Any other message has what waits for its sender sent. -/
theorem recvArp_of_not_asks {n : NetworkInterface} {msg : ARPMessage}
    (hasks : n.asksForUs msg = false) : n.recvArp msg = .ok ((n.learn msg).flush msg) := by
  have hsame : (n.learn msg).asksForUs msg = n.asksForUs msg := rfl
  rw [recvArp, hsame, hasks]
  rfl

/-- Learning answers a request to us, and flushes the queue on any other message. -/
theorem recvArp_cases (n : NetworkInterface) (msg : ARPMessage) :
    (n.asksForUs msg = true ∧ ∃ payload, n.recvArp msg = .ok { n.learn msg with
        framesOut := n.framesOut ++ [n.arpFrame msg.senderEthernetAddress payload] }) ∨
      (n.asksForUs msg = false ∧ n.recvArp msg = .ok ((n.learn msg).flush msg)) := by
  cases hask : n.asksForUs msg with
  | true =>
      obtain ⟨payload, -, heq⟩ := recvArp_of_asks hask
      exact Or.inl ⟨rfl, payload, heq⟩
  | false => exact Or.inr ⟨rfl, recvArp_of_not_asks hask⟩

/-- `send_datagram` throws if the datagram cannot be encoded or the next hop has no
number, and then has changed nothing; otherwise the frame is sent, or queued with a
request unless there has been one lately. -/
theorem sendDatagram_outcome (n : NetworkInterface) (dgram : InternetDatagram)
    (nextHop : Address) :
    ((∃ e, n.sendDatagram dgram nextHop = .error e) ∧
      ∀ payload ip, dgram.serialize = .ok payload → nextHop.ipv4Numeric ≠ .ok ip) ∨
    ∃ payload ip, dgram.serialize = .ok payload ∧ nextHop.ipv4Numeric = .ok ip ∧
      ((∃ dst, n.ipAddressMap.lookup ip = some dst ∧ n.sendDatagram dgram nextHop = .ok { n with
          framesOut := n.framesOut ++ [addressed (n.datagramFrame payload) dst] }) ∨
        (n.ipAddressMap.lookup ip = none ∧ n.askedRecently ip = true ∧
          n.sendDatagram dgram nextHop = .ok (n.enqueue ip (n.datagramFrame payload))) ∨
        (n.ipAddressMap.lookup ip = none ∧ n.askedRecently ip = false ∧
          ∃ bytes, (n.arpRequest ip).serialize = .ok bytes ∧
            n.sendDatagram dgram nextHop = .ok { n.enqueue ip (n.datagramFrame payload) with
              framesOut := n.framesOut ++ [n.arpFrame ethernetBroadcast bytes]
              latestArpTime := n.latestArpTime.insert ip n.nowTime })) := by
  cases hser : dgram.serialize with
  | error e =>
      refine Or.inl ⟨⟨e, by rw [sendDatagram, hser]; rfl⟩, ?_⟩
      intro payload ip hok
      exact absurd hok (by simp)
  | ok payload =>
      cases hnum : nextHop.ipv4Numeric with
      | error e =>
          refine Or.inl ⟨⟨e, by rw [sendDatagram, hser, hnum]; rfl⟩, ?_⟩
          intro payload ip _ hok
          exact absurd hok (by simp)
      | ok ip =>
          refine Or.inr ⟨payload, ip, rfl, rfl, ?_⟩
          cases hlook : n.ipAddressMap.lookup ip with
          | some dst =>
              refine Or.inl ⟨dst, rfl, ?_⟩
              rw [sendDatagram, hser, hnum]
              simp only [bind, Except.bind, hlook]
              rfl
          | none =>
              refine Or.inr ?_
              rw [sendDatagram, hser, hnum]
              simp only [bind, Except.bind, hlook]
              -- queueing the frame does not change when the last request was
              have hsame : (n.enqueue ip (n.datagramFrame payload)).askedRecently ip =
                  n.askedRecently ip := rfl
              rw [hsame]
              cases hasked : n.askedRecently ip with
              | true => exact Or.inl ⟨trivial, rfl, rfl⟩
              | false =>
                  obtain ⟨bytes, hbytes, heq⟩ :=
                    (n.enqueue ip (n.datagramFrame payload)).exists_sendArpRequest ip
                  exact Or.inr ⟨trivial, rfl, bytes, hbytes, heq⟩

/-- The outcome of `send_datagram`, whether or not a request goes with the frame. -/
theorem sendDatagram_cases (n : NetworkInterface) (dgram : InternetDatagram) (nextHop : Address) :
    ((∃ e, n.sendDatagram dgram nextHop = .error e) ∧
      ∀ payload ip, dgram.serialize = .ok payload → nextHop.ipv4Numeric ≠ .ok ip) ∨
    ∃ payload ip, dgram.serialize = .ok payload ∧ nextHop.ipv4Numeric = .ok ip ∧
      ((∃ dst, n.ipAddressMap.lookup ip = some dst ∧ n.sendDatagram dgram nextHop = .ok { n with
          framesOut := n.framesOut ++ [addressed (n.datagramFrame payload) dst] }) ∨
        (n.ipAddressMap.lookup ip = none ∧ ∃ arp times,
          (arp = [] ∨ ∃ bytes, arp = [n.arpFrame ethernetBroadcast bytes]) ∧
          n.sendDatagram dgram nextHop = .ok { n.enqueue ip (n.datagramFrame payload) with
            framesOut := n.framesOut ++ arp, latestArpTime := times })) := by
  rcases n.sendDatagram_outcome dgram nextHop with
    hthrows | ⟨payload, ip, hser, hnum, hknown | ⟨hunknown, -, heq⟩ |
      ⟨hunknown, -, bytes, -, heq⟩⟩
  · exact Or.inl hthrows
  · exact Or.inr ⟨payload, ip, hser, hnum, Or.inl hknown⟩
  · refine Or.inr ⟨payload, ip, hser, hnum, Or.inr ⟨hunknown, [], n.latestArpTime, Or.inl rfl, ?_⟩⟩
    rw [heq, List.append_nil]
    rfl
  · exact Or.inr ⟨payload, ip, hser, hnum, Or.inr ⟨hunknown, _, _, Or.inr ⟨bytes, rfl⟩, heq⟩⟩

/-- `tick` only forgets mappings. -/
structure Forgets (n n' : NetworkInterface) : Prop where
  ethernetAddress : n'.ethernetAddress = n.ethernetAddress
  ipAddress : n'.ipAddress = n.ipAddress
  framesOut : n'.framesOut = n.framesOut
  unsendFrame : n'.unsendFrame = n.unsendFrame
  lookup : ∀ ip dst, n'.ipAddressMap.lookup ip = some dst → n.ipAddressMap.lookup ip = some dst

theorem Forgets.trans {n n' n'' : NetworkInterface} (h : Forgets n n') (h' : Forgets n' n'') :
    Forgets n n'' where
  ethernetAddress := h'.ethernetAddress.trans h.ethernetAddress
  ipAddress := h'.ipAddress.trans h.ipAddress
  framesOut := h'.framesOut.trans h.framesOut
  unsendFrame := h'.unsendFrame.trans h.unsendFrame
  lookup := fun ip dst hlook => h.lookup ip dst (h'.lookup ip dst hlook)

theorem expire_forgets (n : NetworkInterface) (x : Σ _ : UInt32, Nat) : Forgets n (n.expire x) := by
  unfold expire
  split_ifs
  · refine ⟨rfl, rfl, rfl, rfl, ?_⟩
    intro ip dst hlook
    by_cases hip : ip = x.1
    · subst hip
      rw [AList.lookup_erase] at hlook
      exact absurd hlook (by simp)
    · rw [AList.lookup_erase_ne hip] at hlook
      exact hlook
  · exact ⟨rfl, rfl, rfl, rfl, fun _ _ hlook => hlook⟩

theorem tick_forgets (n : NetworkInterface) (ms : Nat) : Forgets n (n.tick ms) := by
  have hloop : ∀ (entries : List (Σ _ : UInt32, Nat)) (m : NetworkInterface),
      Forgets m (entries.foldl expire m) := by
    intro entries
    induction entries with
    | nil => exact fun m => ⟨rfl, rfl, rfl, rfl, fun _ _ hlook => hlook⟩
    | cons x rest ih => exact fun m => (m.expire_forgets x).trans (ih _)
  have hclock : Forgets n { n with nowTime := Word.add 32 n.nowTime ms } :=
    ⟨rfl, rfl, rfl, rfl, fun _ _ hlook => hlook⟩
  exact hclock.trans (hloop _ _)

end NetworkInterface
end Sponge

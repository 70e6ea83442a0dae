import Sponge.Lib.Run
import Sponge.NetworkInterface

/-!
# Runs of a network interface

`InterfaceRun` is an interface with the history of its run: the datagrams submitted, the
Ethernet addresses learned by ARP, and the IPv4 frames emitted, each with the next hop it
was sent to.  `Effect` lists what a call can do, once and for all; the properties of runs
are proved case by case along it.
-/

namespace Sponge

/-- What can happen to an interface. -/
inductive InterfaceOp where
  | send (dgram : InternetDatagram) (nextHop : Address)
  | recv (frame : EthernetFrame)
  | tick (msSinceLastTick : Nat)
deriving DecidableEq, Repr

/-- An emitted IPv4 frame, the next hop it is meant for, and the Ethernet address that was
learned last for that hop when the frame was emitted. -/
structure SentFrame where
  hop : UInt32
  known : Option EthernetAddress
  frame : EthernetFrame
deriving DecidableEq, Repr

structure InterfaceRun where
  interface : NetworkInterface
  /-- the datagrams submitted, each with its next hop -/
  submitted : List (UInt32 × InternetDatagram) := []
  /-- the addresses learned by ARP, the latest first -/
  learned : List (UInt32 × EthernetAddress) := []
  sent : List SentFrame := []

namespace InterfaceRun

open NetworkInterface

def start (ethernetAddress : EthernetAddress) (ipAddress : UInt32) : InterfaceRun where
  interface := { ethernetAddress, ipAddress }

/-- The address learned last for `ip`. -/
def latest (r : InterfaceRun) (ip : UInt32) : Option EthernetAddress :=
  (r.learned.find? fun x => x.1 = ip).map Prod.snd

/-- The frame carries a datagram. -/
def isIPv4 (frame : EthernetFrame) : Bool :=
  frame.header.type == EthernetHeader.typeIPv4

/-- The IPv4 frames a call has emitted. -/
def newFrames (before after : NetworkInterface) : List EthernetFrame :=
  (after.framesOut.drop before.framesOut.length).filter isIPv4

/-- The ARP message that `recv_frame` finds in a frame. -/
def arpMessage (n : NetworkInterface) (frame : EthernetFrame) : Option ARPMessage :=
  if n.notForUs frame || isIPv4 frame then none
  else
    match frame.payload.toBuffer with
    | .ok buffer =>
        if (ARPMessage.parse {} buffer).1 = .noError then some (ARPMessage.parse {} buffer).2
        else none
    | .error _ => none

/-- Put the frames a call has emitted on record, as sent to `hop`. -/
def record (r : InterfaceRun) (after : NetworkInterface) (hop : UInt32) : InterfaceRun :=
  { r with
    interface := after
    sent := r.sent ++ (newFrames r.interface after).map fun frame => ⟨hop, r.latest hop, frame⟩ }

/-- A call that throws changes nothing and submits nothing. -/
def step (r : InterfaceRun) : InterfaceOp → InterfaceRun
  | .send dgram nextHop =>
      match r.interface.sendDatagram dgram nextHop, nextHop.ipv4Numeric with
      | .ok after, .ok ip => { r with submitted := r.submitted ++ [(ip, dgram)] }.record after ip
      | _, _ => r
  | .recv frame =>
      match r.interface.recvFrame frame, arpMessage r.interface frame with
      | .ok (after, _), some msg =>
          { r with
            learned := (msg.senderIpAddress, msg.senderEthernetAddress) :: r.learned }.record
              after msg.senderIpAddress
      | .ok (after, _), none => { r with interface := after }
      | .error _, _ => r
  | .tick ms => { r with interface := r.interface.tick ms }

/-- The states reached by any sequence of calls. -/
abbrev Reached (ethernetAddress : EthernetAddress) (ipAddress : UInt32) (r : InterfaceRun) : Prop :=
  Run.Reach step (fun _ _ => True) (start ethernetAddress ipAddress) r

/-- The run with the address of an ARP message on record. -/
def learns (r : InterfaceRun) (msg : ARPMessage) : InterfaceRun :=
  { r with
    interface := r.interface.learn msg
    learned := (msg.senderIpAddress, msg.senderEthernetAddress) :: r.learned }

/-- Everything a call can do. -/
inductive Effect (r : InterfaceRun) : InterfaceOp → InterfaceRun → Prop
  /-- the datagram or its next hop cannot be used: `send_datagram` throws -/
  | refused (dgram : InternetDatagram) (nextHop : Address) : Effect r (.send dgram nextHop) r
  /-- the frame carries no ARP message to us -/
  | ignored {frame : EthernetFrame} (hmsg : arpMessage r.interface frame = none) :
      Effect r (.recv frame) r
  | direct {dgram : InternetDatagram} {nextHop : Address} {ip : UInt32} {payload : BufferList}
      {dst : EthernetAddress} (hip : nextHop.ipv4Numeric = .ok ip)
      (hpayload : dgram.serialize = .ok payload)
      (hknown : r.interface.ipAddressMap.lookup ip = some dst) :
      Effect r (.send dgram nextHop)
        { r with
          interface := { r.interface with framesOut :=
            r.interface.framesOut ++ [addressed (r.interface.datagramFrame payload) dst] }
          submitted := r.submitted ++ [(ip, dgram)]
          sent := r.sent ++
            [⟨ip, r.latest ip, addressed (r.interface.datagramFrame payload) dst⟩] }
  /-- the datagram waits; perhaps an ARP request is sent -/
  | queued {dgram : InternetDatagram} {nextHop : Address} {ip : UInt32} {payload : BufferList}
      {arp : List EthernetFrame} {times : AList fun _ : UInt32 => Nat}
      (hip : nextHop.ipv4Numeric = .ok ip) (hpayload : dgram.serialize = .ok payload)
      (hunknown : r.interface.ipAddressMap.lookup ip = none) (harp : arp.filter isIPv4 = []) :
      Effect r (.send dgram nextHop)
        { r with
          interface := { r.interface.enqueue ip (r.interface.datagramFrame payload) with
            framesOut := r.interface.framesOut ++ arp, latestArpTime := times }
          submitted := r.submitted ++ [(ip, dgram)] }
  /-- an ARP request to us: the answer is sent, and what waits for the sender stays -/
  | answered {frame reply : EthernetFrame} {msg : ARPMessage}
      (hmsg : arpMessage r.interface frame = some msg)
      (hasks : r.interface.asksForUs msg = true) (hreply : isIPv4 reply = false) :
      Effect r (.recv frame)
        { r.learns msg with
          interface := { r.interface.learn msg with
            framesOut := r.interface.framesOut ++ [reply] } }
  /-- any other ARP message: what waits for the sender is sent -/
  | flushed {frame : EthernetFrame} {msg : ARPMessage} {times : AList fun _ : UInt32 => Nat}
      (hmsg : arpMessage r.interface frame = some msg)
      (hasks : r.interface.asksForUs msg = false) :
      Effect r (.recv frame)
        { r.learns msg with
          interface := { r.interface.learn msg with
            framesOut := r.interface.framesOut ++
              (QueueMap.queue r.interface.unsendFrame msg.senderIpAddress).map fun frame =>
                addressed frame msg.senderEthernetAddress
            unsendFrame := r.interface.unsendFrame.erase msg.senderIpAddress
            latestArpTime := times }
          sent := r.sent ++
            (((QueueMap.queue r.interface.unsendFrame msg.senderIpAddress).map fun frame =>
              addressed frame msg.senderEthernetAddress).filter isIPv4).map fun frame =>
                ⟨msg.senderIpAddress, some msg.senderEthernetAddress, frame⟩ }
  | ticked (ms : Nat) : Effect r (.tick ms) { r with interface := r.interface.tick ms }

/-- What `recv_frame` does depends on the ARP message in the frame alone. -/
theorem recvFrame_cases (n : NetworkInterface) (frame : EthernetFrame) :
    (arpMessage n frame = none ∧
      ((∃ e, n.recvFrame frame = .error e) ∨ ∃ dgram, n.recvFrame frame = .ok (n, dgram))) ∨
    ∃ msg, arpMessage n frame = some msg ∧
      n.recvFrame frame = (n.recvArp msg).map fun after => (after, none) := by
  rw [arpMessage, recvFrame]
  by_cases hus : n.notForUs frame = true
  · simp only [hus, Bool.true_or, if_true]
    exact Or.inl ⟨trivial, Or.inr ⟨none, rfl⟩⟩
  by_cases htype : frame.header.type = EthernetHeader.typeIPv4
  · have hfour : isIPv4 frame = true := beq_iff_eq.mpr htype
    rw [if_neg hus, if_pos htype, hfour, Bool.or_true, if_pos rfl]
    refine Or.inl ⟨rfl, ?_⟩
    cases frame.payload.toBuffer with
    | error e => exact Or.inl ⟨e, rfl⟩
    | ok buffer =>
        refine Or.inr ?_
        simp only [bind, Except.bind]
        split_ifs
        · exact ⟨_, rfl⟩
        · exact ⟨_, rfl⟩
  · have hfour : isIPv4 frame = false := beq_eq_false_iff_ne.mpr htype
    have hno : n.notForUs frame = false := by simpa using hus
    rw [if_neg hus, if_neg htype, hfour, hno]
    simp only [Bool.or_false, Bool.false_eq_true, if_false]
    cases frame.payload.toBuffer with
    | error e => exact Or.inl ⟨rfl, Or.inl ⟨e, rfl⟩⟩
    | ok buffer =>
        simp only [bind, Except.bind]
        split_ifs with hok
        · refine Or.inr ⟨_, rfl, ?_⟩
          cases n.recvArp (ARPMessage.parse {} buffer).2 with
          | error e => rfl
          | ok after => rfl
        · exact Or.inl ⟨rfl, Or.inr ⟨none, rfl⟩⟩

@[simp] theorem newFrames_append {n after : NetworkInterface} {frames : List EthernetFrame}
    (h : after.framesOut = n.framesOut ++ frames) : newFrames n after = frames.filter isIPv4 := by
  rw [newFrames, h, List.drop_left]

theorem latest_learns (r : InterfaceRun) (msg : ARPMessage) :
    (r.learns msg).latest msg.senderIpAddress = some msg.senderEthernetAddress := by
  simp [latest, learns]

theorem latest_learns_ne (r : InterfaceRun) (msg : ARPMessage) {ip : UInt32}
    (h : ip ≠ msg.senderIpAddress) : (r.learns msg).latest ip = r.latest ip := by
  simp [latest, learns, h.symm]

@[simp] theorem isIPv4_addressed (frame : EthernetFrame) (dst : EthernetAddress) :
    isIPv4 (addressed frame dst) = isIPv4 frame := rfl

@[simp] theorem isIPv4_datagramFrame (n : NetworkInterface) (payload : BufferList) :
    isIPv4 (n.datagramFrame payload) = true := rfl

@[simp] theorem isIPv4_arpFrame (n : NetworkInterface) (dst : EthernetAddress)
    (payload : List Byte) : isIPv4 (n.arpFrame dst payload) = false := rfl

/-- Flushing, whether or not something waits. -/
theorem flush_eq (n : NetworkInterface) (msg : ARPMessage) :
    ∃ times, n.flush msg = { n with
      framesOut := n.framesOut ++ (QueueMap.queue n.unsendFrame msg.senderIpAddress).map
        fun frame => addressed frame msg.senderEthernetAddress
      unsendFrame := n.unsendFrame.erase msg.senderIpAddress
      latestArpTime := times } := by
  rw [flush, QueueMap.queue]
  cases hlook : n.unsendFrame.lookup msg.senderIpAddress with
  | some frames => exact ⟨_, rfl⟩
  | none =>
      -- nothing waits, and erasing changes nothing
      have hsame : n.unsendFrame.erase msg.senderIpAddress = n.unsendFrame :=
        AList.ext (List.kerase_of_notMem_keys (AList.lookup_eq_none.mp hlook))
      refine ⟨n.latestArpTime, ?_⟩
      rw [hsame]
      simp

/-- **What a call does.** -/
theorem effect_step (r : InterfaceRun) (op : InterfaceOp) : Effect r op (r.step op) := by
  cases op with
  | tick ms => exact .ticked ms
  | send dgram nextHop =>
      rw [step]
      rcases r.interface.sendDatagram_cases dgram nextHop with
        ⟨⟨e, herr⟩, -⟩ | ⟨payload, ip, hser, hnum, hcase⟩
      · rw [herr]
        exact .refused _ _
      · rw [hnum]
        rcases hcase with ⟨dst, hknown, heq⟩ | ⟨hunknown, arp, times, harp, heq⟩
        · rw [heq]
          simp only [record]
          rw [newFrames_append rfl]
          exact .direct hnum hser hknown
        -- the request that may go with it is no IPv4 frame
        · have hnone : arp.filter isIPv4 = [] := by
            rcases harp with rfl | ⟨bytes, rfl⟩
            · rfl
            · simp
          rw [heq]
          simp only [record]
          rw [newFrames_append rfl, hnone]
          simp only [List.map_nil, List.append_nil]
          exact .queued hnum hser hunknown hnone
  | recv frame =>
      rw [step]
      rcases recvFrame_cases r.interface frame with ⟨hnone, hcase⟩ | ⟨msg, hmsg, heq⟩
      · rw [hnone]
        rcases hcase with ⟨e, herr⟩ | ⟨dgram, hok⟩
        · rw [herr]
          exact .ignored hnone
        · rw [hok]
          exact .ignored hnone
      · rw [heq, hmsg]
        -- the address is on record before the frames that waited for it are
        have hlatest := r.latest_learns msg
        rcases r.interface.recvArp_cases msg with ⟨hasks, bytes, hok⟩ | ⟨hasks, hok⟩
        · rw [hok]
          simp only [Except.map, record]
          rw [newFrames_append rfl]
          simp only [List.filter_cons, isIPv4_arpFrame, Bool.false_eq_true, if_false,
            List.filter_nil, List.map_nil, List.append_nil]
          exact .answered hmsg hasks rfl
        · obtain ⟨times, hflush⟩ := flush_eq (r.interface.learn msg) msg
          rw [hok, hflush]
          simp only [Except.map, record]
          rw [newFrames_append rfl]
          rw [latest] at hlatest ⊢
          rw [show (r.learns msg).learned = (msg.senderIpAddress, msg.senderEthernetAddress) ::
            r.learned from rfl] at hlatest
          simp only [hlatest]
          exact .flushed hmsg hasks

end InterfaceRun
end Sponge

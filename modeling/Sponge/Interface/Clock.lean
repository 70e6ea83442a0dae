import Sponge.Frame.Arp
import Sponge.Interface.Runs

/-!
# An interface and the true time

The interface keeps its time in 32 bits.  `TimedRun` is an interface with the true time of
its run, in milliseconds of ticks, and with what happened when: the ARP messages that were
accepted and the ARP requests that were emitted, read off the emitted frames.  `Happens`
lists what a call can do to the clock, the cache and the records of requests.
-/

namespace Sponge

structure TimedRun where
  interface : NetworkInterface
  now : Nat := 0
  /-- the ARP messages accepted, with the time, the latest first -/
  accepted : List (Nat × ARPMessage) := []
  /-- the targets of the ARP requests emitted, with the time, the latest first -/
  asked : List (Nat × UInt32) := []

namespace TimedRun

open NetworkInterface
open InterfaceRun (arpMessage isIPv4)

def start (ethernetAddress : EthernetAddress) (ipAddress : UInt32) : TimedRun where
  interface := { ethernetAddress, ipAddress }

/-- The address that a frame asks for, if it is an ARP request. -/
def requestTarget (frame : EthernetFrame) : Option UInt32 :=
  if frame.header.type = EthernetHeader.typeARP then
    match frame.payload.toBuffer with
    | .ok buffer =>
        if (ARPMessage.parse {} buffer).1 = .noError ∧
            (ARPMessage.parse {} buffer).2.opcode = ARPMessage.opcodeRequest then
          some (ARPMessage.parse {} buffer).2.targetIpAddress
        else none
    | .error _ => none
  else none

/-- The requests among the frames that a call has emitted. -/
def newRequests (before after : NetworkInterface) : List UInt32 :=
  (after.framesOut.drop before.framesOut.length).filterMap requestTarget

/-- Put the requests that a call has emitted on record. -/
def observe (r : TimedRun) (after : NetworkInterface) : TimedRun :=
  { r with
    interface := after
    asked := (newRequests r.interface after).map (fun ip => (r.now, ip)) ++ r.asked }

/-- A call that throws changes nothing. -/
def step (r : TimedRun) : InterfaceOp → TimedRun
  | .send dgram nextHop =>
      match r.interface.sendDatagram dgram nextHop with
      | .ok after => r.observe after
      | .error _ => r
  | .recv frame =>
      match r.interface.recvFrame frame with
      | .ok (after, _) =>
          { r.observe after with
            accepted := (arpMessage r.interface frame).toList.map (fun msg => (r.now, msg)) ++
              r.accepted }
      | .error _ => r
  | .tick ms => { r.observe (r.interface.tick ms) with now := r.now + ms }

/-! ## The frames that are no requests -/

/-- An ARP frame is a request if its message is. -/
theorem requestTarget_arpFrame (n : NetworkInterface) (dst : EthernetAddress) {msg : ARPMessage}
    (h : msg.supported = true) :
    requestTarget (n.arpFrame dst msg.fieldBytes) =
      if msg.opcode = ARPMessage.opcodeRequest then some msg.targetIpAddress else none := by
  have hparse : ARPMessage.parse {} msg.fieldBytes = (.noError, msg) := by
    have hread := ARPMessage.parse_fieldBytes {} h []
    rwa [List.append_nil] at hread
  have htype : (n.arpFrame dst msg.fieldBytes).header.type = EthernetHeader.typeARP := rfl
  have hbuffer : (n.arpFrame dst msg.fieldBytes).payload.toBuffer = .ok msg.fieldBytes := rfl
  rw [requestTarget, if_pos htype, hbuffer]
  simp only [hparse, true_and]

theorem requestTarget_of_isIPv4 {frame : EthernetFrame} (h : isIPv4 frame = true) :
    requestTarget frame = none := by
  have htype : frame.header.type = EthernetHeader.typeIPv4 := beq_iff_eq.mp h
  rw [requestTarget, if_neg]
  rw [htype]
  decide

theorem newRequests_append {n after : NetworkInterface} {frames : List EthernetFrame}
    (h : after.framesOut = n.framesOut ++ frames) :
    newRequests n after = frames.filterMap requestTarget := by
  rw [newRequests, h, List.drop_left]

theorem newRequests_of_eq {n after : NetworkInterface} (h : after.framesOut = n.framesOut) :
    newRequests n after = [] := by
  rw [newRequests, h, List.drop_length]
  rfl

/-- What waits in the queues are IPv4 frames. -/
def QueuesIPv4 (n : NetworkInterface) : Prop :=
  ∀ ip, ∀ frame ∈ QueueMap.queue n.unsendFrame ip, isIPv4 frame = true

/-! ## What a tick forgets -/

/-- The mapping of `ip` is too old after a tick. -/
def Expires (n : NetworkInterface) (ms : Nat) (ip : UInt32) : Prop :=
  ∃ time, n.mapTime.lookup ip = some time ∧
    30000 ≤ Word.sub 32 (Word.add 32 n.nowTime ms) time

/-- The loop of `tick` over some of the entries. -/
theorem foldl_expire (ip : UInt32) (entries : List (Σ _ : UInt32, Nat)) (n : NetworkInterface) :
    (entries.foldl expire n).nowTime = n.nowTime ∧
    (entries.foldl expire n).latestArpTime = n.latestArpTime ∧
    ((∃ time, ⟨ip, time⟩ ∈ entries ∧ 30000 ≤ Word.sub 32 n.nowTime time) →
      (entries.foldl expire n).mapTime.lookup ip = none ∧
        (entries.foldl expire n).ipAddressMap.lookup ip = none) ∧
    ((¬∃ time, ⟨ip, time⟩ ∈ entries ∧ 30000 ≤ Word.sub 32 n.nowTime time) →
      (entries.foldl expire n).mapTime.lookup ip = n.mapTime.lookup ip ∧
        (entries.foldl expire n).ipAddressMap.lookup ip = n.ipAddressMap.lookup ip) := by
  induction entries generalizing n with
  | nil => simp
  | cons x rest ih =>
      obtain ⟨hclock, harp, hgone, hkept⟩ := ih (n.expire x)
      have hnow : (n.expire x).nowTime = n.nowTime := by
        rw [expire]
        split_ifs
        · rfl
        · rfl
      have hrecord : (n.expire x).latestArpTime = n.latestArpTime := by
        rw [expire]
        split_ifs
        · rfl
        · rfl
      rw [hnow] at hclock hgone hkept
      rw [hrecord] at harp
      refine ⟨hclock, harp, ?_, ?_⟩
      · rintro ⟨time, hmem, hold⟩
        by_cases hrest : ∃ time, ⟨ip, time⟩ ∈ rest ∧ 30000 ≤ Word.sub 32 n.nowTime time
        · exact hgone hrest
        -- the entry is this one: it is erased here, and nothing puts it back
        · have hx : x = ⟨ip, time⟩ := by
            rcases List.mem_cons.mp hmem with heq | hlater
            · exact heq.symm
            · exact absurd ⟨time, hlater, hold⟩ hrest
          obtain ⟨htimes, haddresses⟩ := hkept hrest
          rw [List.foldl_cons, htimes, haddresses, expire, hx, if_pos hold]
          simp
      · intro hnone
        have hrest : ¬∃ time, ⟨ip, time⟩ ∈ rest ∧ 30000 ≤ Word.sub 32 n.nowTime time := by
          rintro ⟨time, hmem, hold⟩
          exact hnone ⟨time, List.mem_cons_of_mem _ hmem, hold⟩
        obtain ⟨htimes, haddresses⟩ := hkept hrest
        rw [List.foldl_cons, htimes, haddresses, expire]
        split_ifs with hold
        · have hne : ip ≠ x.1 := by
            rintro rfl
            exact hnone ⟨x.2, List.mem_cons_self, hold⟩
          exact ⟨AList.lookup_erase_ne hne, AList.lookup_erase_ne hne⟩
        · exact ⟨rfl, rfl⟩

/-- What `tick` does to the clock, the records of requests and one mapping. -/
theorem tick_spec (n : NetworkInterface) (ms : Nat) (ip : UInt32) :
    (n.tick ms).nowTime = Word.add 32 n.nowTime ms ∧
    (n.tick ms).latestArpTime = n.latestArpTime ∧
    (Expires n ms ip → (n.tick ms).mapTime.lookup ip = none ∧
      (n.tick ms).ipAddressMap.lookup ip = none) ∧
    (¬Expires n ms ip → (n.tick ms).mapTime.lookup ip = n.mapTime.lookup ip ∧
      (n.tick ms).ipAddressMap.lookup ip = n.ipAddressMap.lookup ip) := by
  obtain ⟨hclock, harp, hgone, hkept⟩ := foldl_expire ip n.mapTime.entries
    { n with nowTime := Word.add 32 n.nowTime ms }
  have hentries : Expires n ms ip ↔ ∃ time, ⟨ip, time⟩ ∈ n.mapTime.entries ∧
      30000 ≤ Word.sub 32 (Word.add 32 n.nowTime ms) time := by
    refine exists_congr fun time => and_congr_left fun _ => ?_
    exact AList.mem_lookup_iff
  exact ⟨hclock, harp, fun h => hgone (hentries.mp h), fun h => hkept fun h' => h (hentries.mpr h')⟩

/-! ## What a call does -/

/-- The clock and the cache of `after` are those of `n`. -/
structure SameCache (n after : NetworkInterface) : Prop where
  nowTime : after.nowTime = n.nowTime
  ipAddressMap : after.ipAddressMap = n.ipAddressMap
  mapTime : after.mapTime = n.mapTime

/-- `after` has learned the sender of an ARP message. -/
structure Learned (n : NetworkInterface) (msg : ARPMessage) (after : NetworkInterface) : Prop where
  nowTime : after.nowTime = n.nowTime
  ipAddressMap :
    after.ipAddressMap = n.ipAddressMap.insert msg.senderIpAddress msg.senderEthernetAddress
  mapTime : after.mapTime = n.mapTime.insert msg.senderIpAddress n.nowTime
  /-- the record of the last request to the sender may be erased, no other -/
  latestArpTime : ∀ ip, ip ≠ msg.senderIpAddress →
    after.latestArpTime.lookup ip = n.latestArpTime.lookup ip

/-- Everything a call can do to the clock, the cache and the records of requests. -/
inductive Happens (r : TimedRun) : InterfaceOp → TimedRun → Prop
  | nothing {op : InterfaceOp} {after : NetworkInterface} (hsame : SameCache r.interface after)
      (hrecords : after.latestArpTime = r.interface.latestArpTime) :
      Happens r op { r with interface := after }
  | asks {op : InterfaceOp} {after : NetworkInterface} {ip : UInt32}
      (hunknown : r.interface.ipAddressMap.lookup ip = none)
      (hlong : r.interface.askedRecently ip = false) (hsame : SameCache r.interface after)
      (hrecords : after.latestArpTime =
        r.interface.latestArpTime.insert ip r.interface.nowTime) :
      Happens r op { r with interface := after, asked := (r.now, ip) :: r.asked }
  | learns {op : InterfaceOp} {after : NetworkInterface} {msg : ARPMessage}
      (hlearned : Learned r.interface msg after) :
      Happens r op { r with interface := after, accepted := (r.now, msg) :: r.accepted }
  | ticks (ms : Nat) :
      Happens r (.tick ms) { r with interface := r.interface.tick ms, now := r.now + ms }

theorem happens_send (r : TimedRun) (dgram : InternetDatagram) (nextHop : Address) :
    Happens r (.send dgram nextHop) (r.step (.send dgram nextHop)) := by
  rw [step]
  rcases r.interface.sendDatagram_outcome dgram nextHop with
    ⟨⟨e, herr⟩, -⟩ | ⟨payload, ip, -, -, ⟨dst, -, hok⟩ | ⟨-, -, hok⟩ |
      ⟨hunknown, hlong, bytes, hbytes, hok⟩⟩
  · rw [herr]
    exact .nothing ⟨rfl, rfl, rfl⟩ rfl
  · rw [hok]
    simp only [observe]
    rw [newRequests_append rfl]
    exact .nothing ⟨rfl, rfl, rfl⟩ rfl
  · have hframes : (r.interface.enqueue ip (r.interface.datagramFrame payload)).framesOut =
        r.interface.framesOut := rfl
    rw [hok]
    simp only [observe]
    rw [newRequests_of_eq hframes]
    exact .nothing ⟨rfl, rfl, rfl⟩ rfl
  · have hfields : bytes = (r.interface.arpRequest ip).fieldBytes := by
      rw [ARPMessage.serialize_of_supported (by rfl)] at hbytes
      exact (Except.ok.inj hbytes).symm
    have htarget : requestTarget (r.interface.arpFrame ethernetBroadcast bytes) = some ip := by
      rw [hfields, requestTarget_arpFrame _ _ (by rfl)]
      exact if_pos rfl
    rw [hok]
    simp only [observe]
    rw [newRequests_append rfl, List.filterMap_cons_some htarget]
    exact .asks hunknown hlong ⟨rfl, rfl, rfl⟩ rfl

/-- Flushing erases at most the record of the last request to the sender. -/
theorem flush_lookup (n : NetworkInterface) (msg : ARPMessage) {ip : UInt32}
    (hip : ip ≠ msg.senderIpAddress) :
    (n.flush msg).latestArpTime.lookup ip = n.latestArpTime.lookup ip := by
  rw [flush]
  cases n.unsendFrame.lookup msg.senderIpAddress with
  | none => rfl
  | some frames => exact AList.lookup_erase_ne hip

theorem happens_recv {r : TimedRun} (hqueues : QueuesIPv4 r.interface) (frame : EthernetFrame) :
    Happens r (.recv frame) (r.step (.recv frame)) := by
  rw [step]
  rcases InterfaceRun.recvFrame_cases r.interface frame with ⟨hnone, hcase⟩ | ⟨msg, hmsg, heq⟩
  · rcases hcase with ⟨e, herr⟩ | ⟨dgram, hok⟩
    · rw [herr]
      exact .nothing ⟨rfl, rfl, rfl⟩ rfl
    · rw [hok, hnone]
      simp only [observe]
      rw [newRequests_of_eq rfl]
      exact .nothing ⟨rfl, rfl, rfl⟩ rfl
  · rw [heq, hmsg]
    cases hasks : r.interface.asksForUs msg with
    | true =>
        obtain ⟨bytes, hbytes, hok⟩ := recvArp_of_asks hasks
        have hfields : bytes = (r.interface.arpReply msg).fieldBytes := by
          rw [ARPMessage.serialize_of_supported (by rfl)] at hbytes
          exact (Except.ok.inj hbytes).symm
        -- the answer is no request
        have htarget : requestTarget
            (r.interface.arpFrame msg.senderEthernetAddress bytes) = none := by
          have hreply : (r.interface.arpReply msg).opcode ≠ ARPMessage.opcodeRequest := by
            show ARPMessage.opcodeReply ≠ ARPMessage.opcodeRequest
            decide
          rw [hfields, requestTarget_arpFrame _ _ (by rfl), if_neg hreply]
        rw [hok]
        simp only [Except.map, observe]
        rw [newRequests_append rfl, List.filterMap_cons_none htarget]
        exact .learns ⟨rfl, rfl, rfl, fun _ _ => rfl⟩
    | false =>
        rw [recvArp_of_not_asks hasks]
        obtain ⟨times, hflush⟩ := InterfaceRun.flush_eq (r.interface.learn msg) msg
        -- what has waited for the sender are no requests either
        have hnone : ((QueueMap.queue r.interface.unsendFrame msg.senderIpAddress).map fun frame =>
            addressed frame msg.senderEthernetAddress).filterMap requestTarget = [] := by
          rw [List.filterMap_eq_nil_iff]
          intro f hf
          obtain ⟨g, hg, rfl⟩ := List.mem_map.mp hf
          exact requestTarget_of_isIPv4 (hqueues _ g hg)
        have hframes : ((r.interface.learn msg).flush msg).framesOut =
            r.interface.framesOut ++ (QueueMap.queue r.interface.unsendFrame
              msg.senderIpAddress).map fun frame =>
                addressed frame msg.senderEthernetAddress := by
          rw [hflush]
          rfl
        simp only [Except.map, observe]
        rw [newRequests_append hframes, hnone]
        refine .learns ⟨?_, ?_, ?_, fun ip hip => flush_lookup _ msg hip⟩
        · rw [hflush]
          rfl
        · rw [hflush]
          rfl
        · rw [hflush]
          rfl

/-- **What a call does.** -/
theorem happens_step {r : TimedRun} (hqueues : QueuesIPv4 r.interface) (op : InterfaceOp) :
    Happens r op (r.step op) := by
  cases op with
  | send dgram nextHop => exact happens_send r dgram nextHop
  | recv frame => exact happens_recv hqueues frame
  | tick ms =>
      simp only [step, observe]
      rw [newRequests_of_eq (tick_forgets r.interface ms).framesOut]
      exact .ticks ms

/-! ## The clock -/

/-- What the interface shows of the true time, and that it holds back IPv4 frames only. -/
structure Timed (r : TimedRun) : Prop where
  clock : r.interface.nowTime = r.now % 2 ^ 32
  queues : QueuesIPv4 r.interface

theorem timed_start (ethernetAddress : EthernetAddress) (ipAddress : UInt32) :
    (start ethernetAddress ipAddress).Timed where
  clock := rfl
  queues := by simp [start, QueuesIPv4]

theorem queuesIPv4_step {r : TimedRun} (hqueues : QueuesIPv4 r.interface) (op : InterfaceOp) :
    QueuesIPv4 (r.step op).interface := by
  cases op with
  | tick ms =>
      show QueuesIPv4 (r.interface.tick ms)
      intro ip
      rw [(tick_forgets r.interface ms).unsendFrame]
      exact hqueues ip
  | send dgram nextHop =>
      -- what is put into a queue is the frame of a datagram
      have hpush : ∀ ip payload after, after.unsendFrame = QueueMap.push r.interface.unsendFrame ip
          (r.interface.datagramFrame payload) → QueuesIPv4 after := by
        intro ip payload after hafter ip' frame hframe
        rw [hafter] at hframe
        rcases QueueMap.mem_queue_push hframe with hold | rfl
        · exact hqueues ip' frame hold
        · rfl
      rw [step]
      rcases r.interface.sendDatagram_cases dgram nextHop with
        ⟨⟨e, herr⟩, -⟩ | ⟨payload, ip, -, -, ⟨dst, -, hok⟩ | ⟨-, arp, times, -, hok⟩⟩
      · rw [herr]
        exact hqueues
      · rw [hok]
        exact hqueues
      · rw [hok]
        exact hpush ip payload _ rfl
  | recv frame =>
      rw [step]
      rcases InterfaceRun.recvFrame_cases r.interface frame with ⟨-, hcase⟩ | ⟨msg, -, heq⟩
      · rcases hcase with ⟨e, herr⟩ | ⟨dgram, hok⟩
        · rw [herr]
          exact hqueues
        · rw [hok]
          exact hqueues
      · rw [heq]
        rcases r.interface.recvArp_cases msg with ⟨-, bytes, hok⟩ | ⟨-, hok⟩
        · rw [hok]
          exact hqueues
        · obtain ⟨times, hflush⟩ := InterfaceRun.flush_eq (r.interface.learn msg) msg
          rw [hok, hflush]
          exact fun ip frame hframe => hqueues ip frame (QueueMap.mem_queue_of_mem_erase hframe)

theorem clock_of_happens {r r' : TimedRun} {op : InterfaceOp}
    (hclock : r.interface.nowTime = r.now % 2 ^ 32) (h : Happens r op r') :
    r'.interface.nowTime = r'.now % 2 ^ 32 := by
  cases h with
  | nothing hsame _ => exact hsame.nowTime.trans hclock
  | asks _ _ hsame _ => exact hsame.nowTime.trans hclock
  | learns hlearned => exact hlearned.nowTime.trans hclock
  | ticks ms =>
      show (r.interface.tick ms).nowTime = (r.now + ms) % 2 ^ 32
      rw [(tick_spec r.interface ms 0).1, hclock, Word.add_mod_left]

theorem Timed.step {r : TimedRun} (h : r.Timed) (op : InterfaceOp) : (r.step op).Timed :=
  ⟨clock_of_happens h.clock (happens_step h.queues op), queuesIPv4_step h.queues op⟩

end TimedRun
end Sponge

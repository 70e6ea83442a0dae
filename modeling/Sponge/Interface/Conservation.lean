import Sponge.Interface.Runs

/-!
# No datagram is lost, duplicated or misaddressed

Datagrams move from the caller to the outbound queue, at once or through the queue of
their next hop.  In every run, the datagrams submitted are those in the emitted IPv4
frames and those still waiting, each counted as often as it was submitted, and every
emitted frame bears the address last learned for its next hop.
-/

namespace Sponge
namespace InterfaceRun

open NetworkInterface

/-- The datagrams submitted, encoded, each with its next hop. -/
def submittedLoad (r : InterfaceRun) : List (UInt32 × Except RuntimeError BufferList) :=
  r.submitted.map fun x => (x.1, x.2.serialize)

/-- The datagrams carried by the emitted IPv4 frames. -/
def sentLoad (r : InterfaceRun) : List (UInt32 × Except RuntimeError BufferList) :=
  r.sent.map fun x => (x.hop, .ok x.frame.payload)

/-- The datagrams still in `unsend_frame`. -/
def waitingLoad (r : InterfaceRun) : List (UInt32 × Except RuntimeError BufferList) :=
  (QueueMap.contents r.interface.unsendFrame).map fun x => (x.1, .ok x.2.payload)

/-- Every datagram submitted has been emitted or waits, and every emitted IPv4 frame has
our address as source and the address last learned for its hop as destination. -/
structure Accounted (r : InterfaceRun) : Prop where
  emitted : r.sent.map SentFrame.frame = r.interface.framesOut.filter isIPv4
  balance : r.submittedLoad.Perm (r.sentLoad ++ r.waitingLoad)
  addressed : ∀ x ∈ r.sent, x.frame.header.src = r.interface.ethernetAddress ∧
    x.known = some x.frame.header.dst

/-- The run's invariant. -/
structure Conserved (r : InterfaceRun) : Prop extends r.Accounted where
  cache : ∀ ip dst, r.interface.ipAddressMap.lookup ip = some dst → r.latest ip = some dst
  waiting : ∀ ip, ∀ frame ∈ QueueMap.queue r.interface.unsendFrame ip,
    isIPv4 frame = true ∧ frame.header.src = r.interface.ethernetAddress

theorem conserved_start (ethernetAddress : EthernetAddress) (ipAddress : UInt32) :
    (start ethernetAddress ipAddress).Conserved where
  emitted := rfl
  balance := List.Perm.refl _
  addressed := by simp [start]
  cache := by simp [start]
  waiting := by simp [start]

section Step

variable {r : InterfaceRun}

/-- What waits for a hop is IPv4, with or without its destination. -/
theorem Conserved.filter_queue (hc : r.Conserved) (ip : UInt32) (dst : EthernetAddress) :
    ((QueueMap.queue r.interface.unsendFrame ip).map fun frame =>
      NetworkInterface.addressed frame dst).filter isIPv4 =
      (QueueMap.queue r.interface.unsendFrame ip).map fun frame =>
        NetworkInterface.addressed frame dst := by
  rw [List.filter_eq_self]
  intro frame hframe
  obtain ⟨old, hold, rfl⟩ := List.mem_map.mp hframe
  exact (hc.waiting ip old hold).1

/-- Learning keeps the cache in step with the record. -/
theorem Conserved.cache_learns (hc : r.Conserved) (msg : ARPMessage) {ip : UInt32}
    {dst : EthernetAddress}
    (hlook : (r.interface.learn msg).ipAddressMap.lookup ip = some dst) :
    (r.learns msg).latest ip = some dst := by
  by_cases hip : ip = msg.senderIpAddress
  · subst hip
    rw [learn, AList.lookup_insert] at hlook
    rw [latest_learns, hlook]
  · rw [learn, AList.lookup_insert_ne hip] at hlook
    rw [latest_learns_ne r msg hip]
    exact hc.cache ip dst hlook

/-- **One call keeps the account.** -/
theorem Conserved.effect (hc : r.Conserved) {op : InterfaceOp} {r' : InterfaceRun}
    (heffect : Effect r op r') : r'.Conserved := by
  have hemitted := hc.emitted
  have hbalance := hc.balance
  cases heffect with
  | refused dgram nextHop => exact hc
  | ignored hmsg => exact hc
  | @direct dgram nextHop ip payload dst hip hpayload hknown =>
      refine ⟨⟨?_, ?_, ?_⟩, hc.cache, hc.waiting⟩
      · rw [List.map_append, List.filter_append, hemitted]
        rfl
      · simp only [submittedLoad, sentLoad, waitingLoad, List.map_append, List.map_cons,
          List.map_nil, hpayload] at hbalance ⊢
        refine (hbalance.append_right _).trans ?_
        rw [List.append_assoc, List.append_assoc]
        exact List.Perm.append_left _ List.perm_append_comm
      · intro x hx
        cases List.mem_append.mp hx with
        | inl hold => exact hc.addressed x hold
        | inr hnew =>
            rw [List.mem_singleton.mp hnew]
            exact ⟨rfl, hc.cache ip dst hknown⟩
  | @queued dgram nextHop ip payload arp times hip hpayload hunknown harp =>
      refine ⟨⟨?_, ?_, hc.addressed⟩, hc.cache, ?_⟩
      · rw [List.filter_append, harp, List.append_nil]
        exact hemitted
      -- from the caller to the queue of its hop
      · have hpush := (QueueMap.contents_push_perm r.interface.unsendFrame ip
          (r.interface.datagramFrame payload)).map
            fun x => ((x.1, .ok x.2.payload) : UInt32 × Except RuntimeError BufferList)
        simp only [submittedLoad, sentLoad, waitingLoad, List.map_append, List.map_cons,
          List.map_nil, hpayload] at hbalance hpush ⊢
        refine (hbalance.append_right _).trans ?_
        rw [List.append_assoc]
        exact List.Perm.append_left _ hpush.symm
      · intro k frame hframe
        cases QueueMap.mem_queue_push hframe with
        | inl hold => exact hc.waiting k frame hold
        | inr hnew =>
            rw [hnew]
            exact ⟨rfl, rfl⟩
  | @answered frame reply msg hmsg hasks hreply =>
      refine ⟨⟨?_, hbalance, hc.addressed⟩, fun ip dst => hc.cache_learns msg, hc.waiting⟩
      simp [hemitted, hreply, learns]
  | @flushed frame msg times hmsg hasks =>
      have hall := hc.filter_queue msg.senderIpAddress msg.senderEthernetAddress
      refine ⟨⟨?_, ?_, ?_⟩, fun ip dst => hc.cache_learns msg, ?_⟩
      · rw [hall, List.filter_append, hall, List.map_append, hemitted, List.map_map]
        congr 1
        exact List.map_id _
      -- the whole queue of the sender moves to the frames sent
      · have herase := (QueueMap.contents_perm_erase r.interface.unsendFrame
          msg.senderIpAddress).map
            fun x => ((x.1, .ok x.2.payload) : UInt32 × Except RuntimeError BufferList)
        simp only [submittedLoad, sentLoad, waitingLoad, List.map_append, List.map_map]
          at hbalance herase ⊢
        rw [hall, List.map_map]
        refine hbalance.trans ?_
        rw [List.append_assoc]
        exact List.Perm.append_left _ herase
      · intro x hx
        cases List.mem_append.mp hx with
        | inl hold => exact hc.addressed x hold
        | inr hnew =>
            rw [hall] at hnew
            obtain ⟨sent, hsent, rfl⟩ := List.mem_map.mp hnew
            obtain ⟨old, hold, rfl⟩ := List.mem_map.mp hsent
            exact ⟨(hc.waiting _ old hold).2, rfl⟩
      · intro k frame hframe
        exact hc.waiting k frame (QueueMap.mem_queue_of_mem_erase hframe)
  | ticked ms =>
      have hforgets := r.interface.tick_forgets ms
      refine ⟨⟨?_, ?_, ?_⟩, ?_, ?_⟩
      · rw [hforgets.framesOut]
        exact hemitted
      · rw [waitingLoad, hforgets.unsendFrame]
        exact hbalance
      · rw [hforgets.ethernetAddress]
        exact hc.addressed
      · intro ip dst hlook
        exact hc.cache ip dst (hforgets.lookup ip dst hlook)
      · rw [hforgets.unsendFrame, hforgets.ethernetAddress]
        exact hc.waiting

/-- What can be sent is submitted. -/
theorem step_submitted (r : InterfaceRun) {dgram : InternetDatagram} {nextHop : Address}
    {payload : BufferList} {ip : UInt32} (hpayload : dgram.serialize = .ok payload)
    (hip : nextHop.ipv4Numeric = .ok ip) :
    (r.step (.send dgram nextHop)).submitted = r.submitted ++ [(ip, dgram)] := by
  rcases r.interface.sendDatagram_cases dgram nextHop with
    ⟨-, hthrows⟩ | ⟨payload', ip', -, hnum, hcase⟩
  · exact absurd hip (hthrows payload ip hpayload)
  · rw [step, hip]
    rcases hcase with ⟨dst, -, heq⟩ | ⟨-, arp, times, -, heq⟩
    · rw [heq]
      rfl
    · rw [heq]
      rfl

end Step

theorem Reached.conserved {ethernetAddress : EthernetAddress} {ipAddress : UInt32}
    {r : InterfaceRun} (hr : Reached ethernetAddress ipAddress r) : r.Conserved :=
  Run.Reach.invariant (P := Conserved) hr (conserved_start ethernetAddress ipAddress)
    fun r op _ hc => hc.effect (r.effect_step op)

theorem Reached.ethernetAddress_eq {ethernetAddress : EthernetAddress} {ipAddress : UInt32}
    {r : InterfaceRun} (hr : Reached ethernetAddress ipAddress r) :
    r.interface.ethernetAddress = ethernetAddress := by
  refine Run.Reach.invariant (P := fun r => r.interface.ethernetAddress = ethernetAddress) hr rfl
    fun r op _ hsame => ?_
  have heffect := r.effect_step op
  generalize r.step op = r' at heffect ⊢
  cases heffect with
  | ticked ms => exact (r.interface.tick_forgets ms).ethernetAddress.trans hsame
  | _ => exact hsame

end InterfaceRun

/-- **No datagram is lost, duplicated or misaddressed.**  In every run of an interface,
the datagrams submitted are those emitted and those still waiting, and every emitted IPv4
frame has the interface's address as source and the address last learned for its next
hop as destination.  Every datagram that can be encoded is submitted, whatever IPv4
address its hop has. -/
theorem datagrams_accounted_for {ethernetAddress : EthernetAddress} {ipAddress : UInt32}
    {r : InterfaceRun} (hr : InterfaceRun.Reached ethernetAddress ipAddress r) :
    r.Accounted ∧ r.interface.ethernetAddress = ethernetAddress ∧
      ∀ dgram nextHop payload ip, dgram.serialize = .ok payload →
        nextHop.ipv4Numeric = .ok ip →
        (r.step (.send dgram nextHop)).submitted = r.submitted ++ [(ip, dgram)] :=
  ⟨hr.conserved.toAccounted, hr.ethernetAddress_eq,
    fun _ _ _ _ hpayload hip => r.step_submitted hpayload hip⟩

/-- A datagram without payload, marked by its identification number. -/
def emptyDatagram (id : UInt16) : InternetDatagram where
  header := { len := 20, id := id }

/-- An ARP message for the interface `4.3.2.1` from the neighbour `10.0.0.1`. -/
def neighbourArp (opcode : Byte) : EthernetFrame where
  header :=
    { dst := ethernetBroadcast, src := #v[2, 0, 0, 0, 0, 2], type := EthernetHeader.typeARP }
  payload := .ofBuffer [0, 1, 8, 0, 6, 4, 0, opcode, 2, 0, 0, 0, 0, 2, 10, 0, 0, 1,
    0, 0, 0, 0, 0, 0, 4, 3, 2, 1]

/-- A datagram waits and is sent when the neighbour answers, a second one is sent at
once, and a third one waits after the mapping has expired. -/
def neighbourRun : List InterfaceOp :=
  [.send (emptyDatagram 1) (.ipv4 0x0a000001 0), .recv (neighbourArp 2),
    .send (emptyDatagram 2) (.ipv4 0x0a000001 0), .tick 30000,
    .send (emptyDatagram 3) (.ipv4 0x0a000001 0)]

theorem datagrams_accounted_for_neighbour :
    (Run.exec InterfaceRun.step (InterfaceRun.start #v[2, 0, 0, 0, 0, 1] 0x04030201)
      neighbourRun).sent.length = 2 ∧
    (Run.exec InterfaceRun.step (InterfaceRun.start #v[2, 0, 0, 0, 0, 1] 0x04030201)
      neighbourRun).waitingLoad.length = 1 ∧
    (Run.exec InterfaceRun.step (InterfaceRun.start #v[2, 0, 0, 0, 0, 1] 0x04030201)
      neighbourRun).Accounted :=
  ⟨by decide +kernel, by decide +kernel, (datagrams_accounted_for
    (Run.Reach.exec .start (Run.Admitted.of_forall (fun _ _ => trivial) _ neighbourRun))).1⟩

end Sponge

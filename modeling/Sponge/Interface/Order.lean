import Sponge.Interface.Conservation

/-!
# What waits, and in which order it leaves

A datagram should wait only while the address of its next hop is unknown.  An ARP request
for the interface's own address is answered, and its sender's address learned, without
sending what waits for the sender.  In the runs without such a request nothing waits for
a known address, and the datagrams of one next hop leave in the order in which they were
submitted.
-/

namespace Sponge
namespace InterfaceRun

open NetworkInterface

/-- Nothing waits for an address that is known. -/
def NoneWaiting (r : InterfaceRun) : Prop :=
  ∀ ip, (r.interface.ipAddressMap.lookup ip).isSome = true →
    QueueMap.queue r.interface.unsendFrame ip = []

/-- What has been sent to a hop, followed by what waits for it, is what was submitted for
it, in this order. -/
def InOrder (r : InterfaceRun) : Prop :=
  ∀ ip, ((r.sent.filter fun x => x.hop = ip).map fun x =>
      (Except.ok x.frame.payload : Except RuntimeError BufferList)) ++
      (QueueMap.queue r.interface.unsendFrame ip).map (fun frame => .ok frame.payload) =
    (r.submitted.filter fun x => x.1 = ip).map fun x => x.2.serialize

/-- A frame is no ARP request for our address from somebody for whom a datagram waits. -/
def NoAskerAwaited (r : InterfaceRun) : InterfaceOp → Prop
  | .recv frame => ∀ msg ∈ arpMessage r.interface frame, r.interface.asksForUs msg = true →
      QueueMap.queue r.interface.unsendFrame msg.senderIpAddress = []
  | _ => True

instance (r : InterfaceRun) : ∀ op, Decidable (r.NoAskerAwaited op)
  | .recv _ => inferInstanceAs (Decidable (∀ msg ∈ _, _))
  | .send _ _ => isTrue trivial
  | .tick _ => isTrue trivial

theorem noneWaiting_start (ethernetAddress : EthernetAddress) (ipAddress : UInt32) :
    (start ethernetAddress ipAddress).NoneWaiting := by
  intro ip hknown
  simp [start] at hknown

theorem inOrder_start (ethernetAddress : EthernetAddress) (ipAddress : UInt32) :
    (start ethernetAddress ipAddress).InOrder := by
  intro ip
  simp [start]

section Step

variable {r r' : InterfaceRun} {op : InterfaceOp}

/-- After learning from `msg`, only the sender of `msg` is newly known. -/
theorem isSome_lookup_learn (n : NetworkInterface) (msg : ARPMessage) (ip : UInt32) :
    ((n.learn msg).ipAddressMap.lookup ip).isSome = true ↔
      ip = msg.senderIpAddress ∨ (n.ipAddressMap.lookup ip).isSome = true := by
  by_cases hip : ip = msg.senderIpAddress
  · subst hip
    simp [learn]
  · simp [learn, AList.lookup_insert_ne hip, hip]

/-- A call leaves nothing waiting for a known address exactly if it brings no request
from somebody for whom a datagram waits. -/
theorem NoneWaiting.effect_iff (hw : r.NoneWaiting) (heffect : Effect r op r') :
    r'.NoneWaiting ↔ r.NoAskerAwaited op := by
  cases heffect with
  | refused dgram nextHop => exact ⟨fun _ => trivial, fun _ => hw⟩
  | ignored hmsg =>
      refine ⟨fun _ => ?_, fun _ => hw⟩
      simp [NoAskerAwaited, hmsg]
  | direct hip hpayload hknown => exact ⟨fun _ => trivial, fun _ => hw⟩
  | @queued dgram nextHop ip payload arp times hip hpayload hunknown harp =>
      refine ⟨fun _ => trivial, fun _ => ?_⟩
      intro k hknown
      by_cases hk : k = ip
      · -- a datagram is queued only for an unknown address
        subst hk
        have hknown : (r.interface.ipAddressMap.lookup k).isSome = true := hknown
        rw [hunknown] at hknown
        exact absurd hknown (by simp)
      · rw [enqueue, QueueMap.queue_push_ne _ _ _ _ hk]
        exact hw k hknown
  | @answered frame reply msg hmsg hasks hreply =>
      simp only [NoAskerAwaited, hmsg, Option.mem_def, Option.some.injEq, forall_eq', hasks,
        forall_const]
      constructor
      · intro hnone
        exact hnone msg.senderIpAddress
          ((isSome_lookup_learn r.interface msg _).mpr (Or.inl rfl))
      · intro hempty ip hknown
        cases (isSome_lookup_learn r.interface msg ip).mp hknown with
        | inl hsender =>
            rw [hsender]
            exact hempty
        | inr hold => exact hw ip hold
  | @flushed frame msg times hmsg hasks =>
      simp only [NoAskerAwaited, hmsg, Option.mem_def, Option.some.injEq, forall_eq', hasks,
        Bool.false_eq_true, false_implies, iff_true]
      intro ip hknown
      by_cases hip : ip = msg.senderIpAddress
      · rw [hip]
        exact QueueMap.queue_erase_self _ _
      · show QueueMap.queue (r.interface.unsendFrame.erase msg.senderIpAddress) ip = []
        rw [QueueMap.queue_erase_ne _ _ _ hip]
        exact hw ip (((isSome_lookup_learn r.interface msg ip).mp hknown).resolve_left hip)
  | ticked ms =>
      have hforgets := r.interface.tick_forgets ms
      refine ⟨fun _ => trivial, fun _ => ?_⟩
      intro ip hknown
      obtain ⟨dst, hdst⟩ := Option.isSome_iff_exists.mp hknown
      show QueueMap.queue (r.interface.tick ms).unsendFrame ip = []
      rw [hforgets.unsendFrame]
      exact hw ip (by rw [hforgets.lookup ip dst hdst]; rfl)

/-- Frames sent to one hop, seen from another. -/
theorem filter_sent_to (hop k : UInt32) (known : Option EthernetAddress)
    (frames : List EthernetFrame) :
    ((frames.map fun frame => (⟨hop, known, frame⟩ : SentFrame)).filter fun x => x.hop = k) =
      if hop = k then frames.map fun frame => ⟨hop, known, frame⟩ else [] := by
  split_ifs with hsame
  · exact List.filter_eq_self.mpr (by simp [hsame])
  · exact List.filter_eq_nil_iff.mpr (by simp [hsame])

/-- As long as nothing waits for a known address, the order is kept. -/
theorem InOrder.effect (ho : r.InOrder) (hw : r.NoneWaiting) (hc : r.Conserved)
    (heffect : Effect r op r') : r'.InOrder := by
  cases heffect with
  | refused dgram nextHop => exact ho
  | ignored hmsg => exact ho
  | @direct dgram nextHop ip payload dst hip hpayload hknown =>
      intro k
      have hk := ho k
      by_cases hsame : ip = k
      · -- nothing waits for this hop, so the frame comes last
        subst hsame
        have hempty := hw ip (by rw [hknown]; rfl)
        simp only [hempty, List.map_nil, List.append_nil] at hk
        simp [hempty, List.filter_append, hk, hpayload, addressed, datagramFrame]
      · simpa [List.filter_append, hsame] using hk
  | @queued dgram nextHop ip payload arp times hip hpayload hunknown harp =>
      intro k
      have hk := ho k
      by_cases hsame : ip = k
      · subst hsame
        simp only [enqueue, QueueMap.queue_push_self, List.filter_append, List.map_append]
        rw [← List.append_assoc, hk]
        simp [hpayload, datagramFrame]
      · have hne : k ≠ ip := fun h => hsame h.symm
        simpa [List.filter_append, hsame, enqueue, QueueMap.queue_push_ne _ _ _ _ hne] using hk
  | @answered frame reply msg hmsg hasks hreply => exact ho
  | @flushed frame msg times hmsg hasks =>
      have hall := hc.filter_queue msg.senderIpAddress msg.senderEthernetAddress
      intro k
      have hk := ho k
      rw [hall]
      simp only [List.filter_append, List.map_append, filter_sent_to]
      by_cases hsame : msg.senderIpAddress = k
      · -- what waited for the sender has left, in its order
        subst hsame
        rw [if_pos rfl, QueueMap.queue_erase_self, List.map_nil, List.append_nil]
        simpa [List.map_map, Function.comp_def, addressed, learns] using hk
      · have hne : k ≠ msg.senderIpAddress := fun h => hsame h.symm
        rw [if_neg hsame, QueueMap.queue_erase_ne _ _ _ hne, List.map_nil, List.append_nil]
        exact hk
  | ticked ms =>
      intro k
      show _ ++ (QueueMap.queue (r.interface.tick ms).unsendFrame k).map _ = _
      rw [(r.interface.tick_forgets ms).unsendFrame]
      exact ho k

end Step

end InterfaceRun

/-- **Nothing waits for a known address, and the order is kept.**  In every run in which
no frame is an ARP request for our address from somebody for whom a datagram waits,
nothing waits for a known address and the datagrams of each next hop leave in the order
in which they were submitted; and the next call keeps it so exactly if it is no such
frame either. -/
theorem none_waiting_for_known_address {ethernetAddress : EthernetAddress} {ipAddress : UInt32}
    {r : InterfaceRun}
    (hr : Run.Reach InterfaceRun.step InterfaceRun.NoAskerAwaited
      (InterfaceRun.start ethernetAddress ipAddress) r) :
    r.NoneWaiting ∧ r.InOrder ∧ ∀ op, (r.step op).NoneWaiting ↔ r.NoAskerAwaited op := by
  have hall : r.NoneWaiting ∧ r.InOrder ∧ r.Conserved := by
    refine hr.invariant (P := fun r => r.NoneWaiting ∧ r.InOrder ∧ r.Conserved)
      ⟨InterfaceRun.noneWaiting_start _ _, InterfaceRun.inOrder_start _ _,
        InterfaceRun.conserved_start _ _⟩ ?_
    intro r op hop ⟨hw, ho, hc⟩
    have heffect := r.effect_step op
    exact ⟨(hw.effect_iff heffect).mpr hop, ho.effect hw hc heffect, hc.effect heffect⟩
  exact ⟨hall.1, hall.2.1, fun op => hall.1.effect_iff (r.effect_step op)⟩

/-- A datagram waits and is sent when the neighbour answers; then the neighbour asks for
our address. -/
theorem none_waiting_after_answer :
    (Run.exec InterfaceRun.step (InterfaceRun.start #v[2, 0, 0, 0, 0, 1] 0x04030201)
      [.send (emptyDatagram 1) (.ipv4 0x0a000001 0), .recv (neighbourArp 2),
        .recv (neighbourArp 1)]).NoneWaiting :=
  (none_waiting_for_known_address (Run.Reach.exec .start (by decide +kernel))).1

/-- The neighbour asks for our address before it answers: its address is known, and the
datagram still waits; the next one overtakes it. -/
theorem datagram_waits_for_known_address :
    ¬ (Run.exec InterfaceRun.step (InterfaceRun.start #v[2, 0, 0, 0, 0, 1] 0x04030201)
        [.send (emptyDatagram 1) (.ipv4 0x0a000001 0), .recv (neighbourArp 1)]).NoneWaiting ∧
      ¬ (Run.exec InterfaceRun.step (InterfaceRun.start #v[2, 0, 0, 0, 0, 1] 0x04030201)
        [.send (emptyDatagram 1) (.ipv4 0x0a000001 0), .recv (neighbourArp 1),
          .send (emptyDatagram 2) (.ipv4 0x0a000001 0)]).InOrder := by
  constructor
  · intro hnone
    exact absurd (hnone 0x0a000001 (by decide +kernel)) (by decide +kernel)
  · intro horder
    exact absurd (horder 0x0a000001) (by decide +kernel)

end Sponge

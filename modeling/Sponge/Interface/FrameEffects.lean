import Sponge.NetworkInterface

/-!
# Which frames have an effect

`recv_frame` asks whether a frame is IPv4 and takes every other frame for ARP.  What it
should leave alone is compared here with what it does, for every state of the interface
and every frame.
-/

namespace Sponge
namespace NetworkInterface

/-- `after` has emitted nothing since `n`, and its maps hold what those of `n` hold. -/
structure SameState (n after : NetworkInterface) : Prop where
  framesOut : after.framesOut = n.framesOut
  ipAddressMap : ∀ ip, after.ipAddressMap.lookup ip = n.ipAddressMap.lookup ip
  mapTime : ∀ ip, after.mapTime.lookup ip = n.mapTime.lookup ip
  unsendFrame : ∀ ip, after.unsendFrame.lookup ip = n.unsendFrame.lookup ip
  latestArpTime : ∀ ip, after.latestArpTime.lookup ip = n.latestArpTime.lookup ip

theorem SameState.refl (n : NetworkInterface) : SameState n n :=
  ⟨rfl, fun _ => rfl, fun _ => rfl, fun _ => rfl, fun _ => rfl⟩

/-- The frame is not for us, or neither IPv4 nor ARP, or its payload does not parse as an
ARP message. -/
def Ineffective (n : NetworkInterface) (frame : EthernetFrame) : Prop :=
  n.notForUs frame = true ∨
    (frame.header.type ≠ EthernetHeader.typeIPv4 ∧ frame.header.type ≠ EthernetHeader.typeARP) ∨
    (frame.header.type = EthernetHeader.typeARP ∧
      ∃ buffer, frame.payload.toBuffer = .ok buffer ∧ (ARPMessage.parse {} buffer).1 ≠ .noError)

/-- Frames that should have no effect have none, and an IPv4 frame changes no state,
whatever is in it. -/
def EffectsConfined (n : NetworkInterface) (frame : EthernetFrame) : Prop :=
  (n.Ineffective frame →
      ∃ after, n.recvFrame frame = .ok (after, none) ∧ SameState n after) ∧
    (n.notForUs frame = false → frame.header.type = EthernetHeader.typeIPv4 →
      ∀ after dgram, n.recvFrame frame = .ok (after, dgram) → SameState n after)

/-- The message asks nothing of us, nothing waits for its sender, and its sender is known
by this address since this moment. -/
def Redundant (n : NetworkInterface) (msg : ARPMessage) : Prop :=
  n.asksForUs msg = false ∧ n.unsendFrame.lookup msg.senderIpAddress = none ∧
    n.ipAddressMap.lookup msg.senderIpAddress = some msg.senderEthernetAddress ∧
    n.mapTime.lookup msg.senderIpAddress = some n.nowTime

/-- The frame is not for us, or IPv4 or ARP; or it is in one buffer, and taken for ARP it
says nothing new. -/
def Confinable (n : NetworkInterface) (frame : EthernetFrame) : Prop :=
  n.notForUs frame = true ∨ frame.header.type = EthernetHeader.typeIPv4 ∨
    frame.header.type = EthernetHeader.typeARP ∨
    ∃ buffer, frame.payload.toBuffer = .ok buffer ∧
      ((ARPMessage.parse {} buffer).1 ≠ .noError ∨ n.Redundant (ARPMessage.parse {} buffer).2)

theorem flush_of_none {n : NetworkInterface} {msg : ARPMessage}
    (h : n.unsendFrame.lookup msg.senderIpAddress = none) : n.flush msg = n := by
  rw [flush, h]

/-- An ARP message changes nothing exactly if it is redundant. -/
theorem recvArp_same_iff (n : NetworkInterface) (msg : ARPMessage) :
    (∃ after, n.recvArp msg = .ok after ∧ SameState n after) ↔ n.Redundant msg := by
  rcases n.recvArp_cases msg with ⟨hasks, payload, hok⟩ | ⟨hasks, hok⟩
  · -- the answer is emitted
    constructor
    · rintro ⟨after, heq, hsame⟩
      rw [hok] at heq
      cases heq
      have hframes := congrArg List.length hsame.framesOut
      simp at hframes
    · rintro ⟨hno, -⟩
      rw [hasks] at hno
      contradiction
  · rw [hok, Redundant]
    constructor
    · rintro ⟨after, heq, hsame⟩
      cases heq
      have hempty : n.unsendFrame.lookup msg.senderIpAddress = none := by
        have hqueue := hsame.unsendFrame msg.senderIpAddress
        rw [flush] at hqueue
        cases hlook : (n.learn msg).unsendFrame.lookup msg.senderIpAddress with
        | none => exact hlook
        | some frames =>
            rw [hlook] at hqueue
            simpa using hqueue.symm
      have hflush : (n.learn msg).flush msg = n.learn msg := flush_of_none hempty
      rw [hflush] at hsame
      refine ⟨hasks, hempty, ?_, ?_⟩
      · rw [← hsame.ipAddressMap msg.senderIpAddress]
        exact AList.lookup_insert _
      · rw [← hsame.mapTime msg.senderIpAddress]
        exact AList.lookup_insert _
    · rintro ⟨-, hempty, hknown, hnow⟩
      have hflush : (n.learn msg).flush msg = n.learn msg := flush_of_none hempty
      refine ⟨n.learn msg, by rw [hflush], rfl, ?_, ?_, fun _ => rfl, fun _ => rfl⟩
      · intro ip
        by_cases hip : ip = msg.senderIpAddress
        · rw [hip, hknown]
          exact AList.lookup_insert _
        · exact AList.lookup_insert_ne hip
      · intro ip
        by_cases hip : ip = msg.senderIpAddress
        · rw [hip, hnow]
          exact AList.lookup_insert _
        · exact AList.lookup_insert_ne hip

/-- A frame to us that is not IPv4 is read as an ARP message. -/
theorem recvFrame_of_not_ipv4 {n : NetworkInterface} {frame : EthernetFrame} {buffer : Buffer}
    (hus : n.notForUs frame = false) (htype : frame.header.type ≠ EthernetHeader.typeIPv4)
    (hbuffer : frame.payload.toBuffer = .ok buffer) :
    n.recvFrame frame =
      if (ARPMessage.parse {} buffer).1 = .noError then
        (n.recvArp (ARPMessage.parse {} buffer).2).map fun after => (after, none)
      else .ok (n, none) := by
  rw [recvFrame, if_neg (by simp [hus]), if_neg htype, hbuffer]
  simp only [bind, Except.bind]
  split_ifs with hparse
  · cases n.recvArp (ARPMessage.parse {} buffer).2 with
    | error e => rfl
    | ok after => rfl
  · rfl

/-- Taken for ARP, a frame has no effect exactly if it is no ARP message or a redundant one. -/
theorem recvFrame_same_iff {n : NetworkInterface} {frame : EthernetFrame} {buffer : Buffer}
    (hus : n.notForUs frame = false) (htype : frame.header.type ≠ EthernetHeader.typeIPv4)
    (hbuffer : frame.payload.toBuffer = .ok buffer) :
    (∃ after, n.recvFrame frame = .ok (after, none) ∧ SameState n after) ↔
      (ARPMessage.parse {} buffer).1 ≠ .noError ∨
        n.Redundant (ARPMessage.parse {} buffer).2 := by
  rw [recvFrame_of_not_ipv4 hus htype hbuffer]
  by_cases hparse : (ARPMessage.parse {} buffer).1 = .noError
  · rw [if_pos hparse, ← recvArp_same_iff]
    simp only [hparse, ne_eq, not_true_eq_false, false_or]
    cases n.recvArp (ARPMessage.parse {} buffer).2 with
    | error e => simp [Except.map]
    | ok after => simp [Except.map]
  · rw [if_neg hparse]
    exact ⟨fun _ => Or.inl hparse, fun _ => ⟨n, rfl, .refl n⟩⟩

/-- A frame that is not for us is dropped. -/
theorem effectsConfined_of_notForUs {n : NetworkInterface} {frame : EthernetFrame}
    (hnot : n.notForUs frame = true) : n.EffectsConfined frame := by
  have hrecv : n.recvFrame frame = .ok (n, none) := by
    rw [recvFrame, if_pos hnot]
  refine ⟨fun _ => ⟨n, hrecv, .refl n⟩, ?_⟩
  intro hus
  rw [hnot] at hus
  contradiction

/-- An IPv4 frame is not among the ineffective ones, and is read without touching the
state. -/
theorem effectsConfined_of_ipv4 {n : NetworkInterface} {frame : EthernetFrame}
    (hus : n.notForUs frame = false) (htype : frame.header.type = EthernetHeader.typeIPv4) :
    n.EffectsConfined frame := by
  have hother : frame.header.type ≠ EthernetHeader.typeARP := by
    rw [htype]
    decide
  constructor
  · rintro (hnot | ⟨hnot, -⟩ | ⟨harp, -⟩)
    · rw [hus] at hnot
      contradiction
    · exact absurd htype hnot
    · exact absurd harp hother
  · intro _ _ after dgram hrecv
    rw [recvFrame, if_neg (by simp [hus]), if_pos htype] at hrecv
    cases hbuffer : frame.payload.toBuffer with
    | error e =>
        rw [hbuffer] at hrecv
        contradiction
    | ok buffer =>
        rw [hbuffer] at hrecv
        simp only [bind, Except.bind] at hrecv
        split_ifs at hrecv
        · cases hrecv
          exact .refl n
        · cases hrecv
          exact .refl n

theorem effectsConfined_of_arp {n : NetworkInterface} {frame : EthernetFrame}
    (hus : n.notForUs frame = false) (htype : frame.header.type = EthernetHeader.typeARP) :
    n.EffectsConfined frame := by
  have hother : frame.header.type ≠ EthernetHeader.typeIPv4 := by
    rw [htype]
    decide
  refine ⟨?_, fun _ hfour => absurd hfour hother⟩
  rintro (hnot | ⟨-, hnot⟩ | ⟨-, buffer, hbuffer, hparse⟩)
  · rw [hus] at hnot
    contradiction
  · exact absurd htype hnot
  · exact (recvFrame_same_iff hus hother hbuffer).mpr (Or.inl hparse)

/-- A frame of another protocol should have no effect, and is taken for ARP. -/
theorem effectsConfined_iff_of_other {n : NetworkInterface} {frame : EthernetFrame}
    (hus : n.notForUs frame = false) (hfour : frame.header.type ≠ EthernetHeader.typeIPv4)
    (harp : frame.header.type ≠ EthernetHeader.typeARP) :
    n.EffectsConfined frame ↔ ∃ buffer, frame.payload.toBuffer = .ok buffer ∧
      ((ARPMessage.parse {} buffer).1 ≠ .noError ∨
        n.Redundant (ARPMessage.parse {} buffer).2) := by
  constructor
  · rintro ⟨hnone, -⟩
    obtain ⟨after, hrecv, hsame⟩ := hnone (Or.inr (Or.inl ⟨hfour, harp⟩))
    cases hbuffer : frame.payload.toBuffer with
    | error e =>
        rw [recvFrame, if_neg (by simp [hus]), if_neg hfour, hbuffer] at hrecv
        contradiction
    | ok buffer =>
        exact ⟨buffer, rfl, (recvFrame_same_iff hus hfour hbuffer).mp ⟨after, hrecv, hsame⟩⟩
  · rintro ⟨buffer, hbuffer, hfine⟩
    exact ⟨fun _ => (recvFrame_same_iff hus hfour hbuffer).mpr hfine,
      fun _ hipv4 => absurd hipv4 hfour⟩

/-- **Which frames are confined in their effects**: those that are not for us, IPv4 frames,
ARP frames, and of the others those that look like nothing the interface could use. -/
theorem effectsConfined_iff (n : NetworkInterface) (frame : EthernetFrame) :
    n.EffectsConfined frame ↔ n.Confinable frame := by
  by_cases hnot : n.notForUs frame = true
  · exact iff_of_true (effectsConfined_of_notForUs hnot) (Or.inl hnot)
  have hus : n.notForUs frame = false := by simpa using hnot
  by_cases hfour : frame.header.type = EthernetHeader.typeIPv4
  · exact iff_of_true (effectsConfined_of_ipv4 hus hfour) (Or.inr (Or.inl hfour))
  by_cases harp : frame.header.type = EthernetHeader.typeARP
  · exact iff_of_true (effectsConfined_of_arp hus harp) (Or.inr (Or.inr (Or.inl harp)))
  rw [effectsConfined_iff_of_other hus hfour harp, Confinable]
  simp only [hus, hfour, harp, Bool.false_eq_true, false_or]

/-- A broadcast IPv6 frame whose payload reads as the ARP reply of 10.0.0.9. -/
def ipv6Frame : EthernetFrame where
  header := { dst := ethernetBroadcast, src := Vector.replicate 6 3, type := 0x86dd }
  payload := .ofBuffer
    [0, 1, 8, 0, 6, 4, 0, 2, 3, 3, 3, 3, 3, 3, 10, 0, 0, 9, 2, 2, 2, 2, 2, 2, 10, 0, 0, 1]

/-- It teaches a new interface an address. -/
theorem ipv6Frame_learned :
    ¬EffectsConfined { ethernetAddress := Vector.replicate 6 2, ipAddress := 0x0a000001 }
      ipv6Frame := by
  rintro ⟨hnone, -⟩
  obtain ⟨after, hrecv, hsame⟩ := hnone (Or.inr (Or.inl (by decide)))
  have hlearned : (recvFrame { ethernetAddress := Vector.replicate 6 2, ipAddress := 0x0a000001 }
      ipv6Frame).map (fun x => x.1.ipAddressMap.lookup 0x0a000009) =
        .ok (some (Vector.replicate 6 3)) := by
    decide +kernel
  rw [hrecv] at hlearned
  have hcache := hsame.ipAddressMap 0x0a000009
  simp only [Except.map, Except.ok.injEq] at hlearned
  rw [hlearned] at hcache
  exact absurd hcache (by decide)

end NetworkInterface
end Sponge

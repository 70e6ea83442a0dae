import Sponge.Frame.Arp
import Sponge.Interface.Runs

/-!
# What an interface holds

A condition on frames that does not depend on their destination, and that holds of every
ARP frame, holds of all the frames that are pending or waiting, if it holds of the frames
the interface is asked to send.
-/

namespace Sponge

namespace ARPMessage

theorem length_of_serialize {m : ARPMessage} {bytes : List Byte} (h : m.serialize = .ok bytes) :
    bytes.length = LENGTH := by
  rw [serialize] at h
  split at h
  · exact absurd h (by simp)
  · rw [← Except.ok.inj h]
    have hone : NetUnparser.u8 = fun byte => [byte] := funext NetUnparser.u8_eq
    simp [hone, LENGTH]

end ARPMessage

namespace NetworkInterface

/-- A condition that is independent of the destination, and holds of ARP frames. -/
structure Impartial (P : EthernetFrame → Prop) : Prop where
  addressed : ∀ frame dst, P frame → P (addressed frame dst)
  arp : ∀ (n : NetworkInterface) dst bytes, bytes.length = ARPMessage.LENGTH →
    P (n.arpFrame dst bytes)

/-- All frames that are pending or waiting satisfy the condition. -/
structure Holding (P : EthernetFrame → Prop) (n : NetworkInterface) : Prop where
  pending : ∀ frame ∈ n.framesOut, P frame
  waiting : ∀ ip, ∀ frame ∈ QueueMap.queue n.unsendFrame ip, P frame

variable {P Q : EthernetFrame → Prop} {n : NetworkInterface}

theorem Holding.mono (h : n.Holding P) (hmore : ∀ frame, P frame → Q frame) : n.Holding Q :=
  ⟨fun frame hf => hmore frame (h.pending frame hf),
    fun ip frame hf => hmore frame (h.waiting ip frame hf)⟩

theorem holding_start (ethernetAddress : EthernetAddress) (ipAddress : UInt32) :
    Holding P { ethernetAddress := ethernetAddress, ipAddress := ipAddress } :=
  ⟨by simp, by simp⟩

/-- Frames that are pending are sent one by one. -/
theorem Holding.pop (h : n.Holding P) {rest : List EthernetFrame}
    (hrest : ∀ frame ∈ rest, frame ∈ n.framesOut) :
    Holding P { n with framesOut := rest } :=
  ⟨fun frame hf => h.pending frame (hrest frame hf), h.waiting⟩

theorem Holding.tick (h : n.Holding P) (ms : Nat) : (n.tick ms).Holding P := by
  have hforgets := n.tick_forgets ms
  refine ⟨?_, ?_⟩
  · rw [hforgets.framesOut]
    exact h.pending
  · rw [hforgets.unsendFrame]
    exact h.waiting

/-- More frames are pending. -/
private theorem pending_append {frames more : List EthernetFrame} (h : ∀ frame ∈ frames, P frame)
    (hmore : ∀ frame ∈ more, P frame) : ∀ frame ∈ frames ++ more, P frame := by
  intro frame hf
  cases List.mem_append.mp hf with
  | inl hold => exact h frame hold
  | inr hnew => exact hmore frame hnew

/-- A datagram that can be encoded, for a next hop that has a number. -/
theorem Holding.sendDatagram (h : n.Holding P) (hP : Impartial P) {dgram : InternetDatagram}
    {payload : BufferList} {nextHop : Address} {ip : UInt32}
    (hserialize : dgram.serialize = .ok payload) (hip : nextHop.ipv4Numeric = .ok ip)
    (hframe : P (n.datagramFrame payload)) :
    ∃ n', n.sendDatagram dgram nextHop = .ok n' ∧ n'.Holding P := by
  have hwaiting : ∀ ip', ∀ frame ∈ QueueMap.queue
      (n.enqueue ip (n.datagramFrame payload)).unsendFrame ip', P frame := by
    intro ip' frame hf
    rcases QueueMap.mem_queue_push hf with hold | rfl
    · exact h.waiting ip' frame hold
    · exact hframe
  rcases n.sendDatagram_outcome dgram nextHop with ⟨-, hno⟩ | ⟨payload', ip', hser, hnum, hcase⟩
  · exact absurd hip (hno payload ip hserialize)
  obtain rfl := Except.ok.inj (hserialize.symm.trans hser)
  obtain rfl := Except.ok.inj (hip.symm.trans hnum)
  rcases hcase with ⟨dst, -, heq⟩ | ⟨-, -, heq⟩ | ⟨-, -, bytes, hbytes, heq⟩
  · refine ⟨_, heq, pending_append h.pending ?_, h.waiting⟩
    intro frame hf
    rw [List.mem_singleton.mp hf]
    exact hP.addressed _ dst hframe
  · exact ⟨_, heq, h.pending, hwaiting⟩
  · refine ⟨_, heq, pending_append h.pending ?_, hwaiting⟩
    intro frame hf
    rw [List.mem_singleton.mp hf]
    exact hP.arp n ethernetBroadcast bytes (ARPMessage.length_of_serialize hbytes)

theorem Holding.recvArp (h : n.Holding P) (hP : Impartial P) (msg : ARPMessage) :
    ∃ n', n.recvArp msg = .ok n' ∧ n'.Holding P := by
  cases hasks : n.asksForUs msg with
  | true =>
      obtain ⟨payload, hpayload, heq⟩ := recvArp_of_asks hasks
      refine ⟨_, heq, pending_append h.pending ?_, h.waiting⟩
      intro frame hf
      rw [List.mem_singleton.mp hf]
      exact hP.arp n msg.senderEthernetAddress payload (ARPMessage.length_of_serialize hpayload)
  | false =>
      obtain ⟨times, hflush⟩ := InterfaceRun.flush_eq (n.learn msg) msg
      refine ⟨_, recvArp_of_not_asks hasks, ?_⟩
      rw [hflush]
      refine ⟨pending_append h.pending ?_, ?_⟩
      · intro frame hf
        obtain ⟨waiting, hwaiting, rfl⟩ := List.mem_map.mp hf
        exact hP.addressed _ _ (h.waiting _ waiting hwaiting)
      · exact fun ip frame hf => h.waiting ip frame (QueueMap.mem_queue_of_mem_erase hf)

/-- A frame whose payload lies in one buffer is dealt with, and a datagram that is returned is
the one in it. -/
theorem Holding.recvFrame (h : n.Holding P) (hP : Impartial P) {frame : EthernetFrame}
    {buffer : Buffer} (hbuffer : frame.payload = .ofBuffer buffer) :
    ∃ n' r, n.recvFrame frame = .ok (n', r) ∧ n'.Holding P ∧
      ∀ d, r = some d → frame.header.type = EthernetHeader.typeIPv4 ∧
        IPv4Datagram.parse {} buffer = (.noError, d) := by
  have hto : frame.payload.toBuffer = .ok buffer := by
    rw [hbuffer]
    exact BufferList.toBuffer_ofBuffer buffer
  rw [NetworkInterface.recvFrame]
  by_cases hus : n.notForUs frame = true
  · rw [if_pos hus]
    exact ⟨n, none, rfl, h, by simp⟩
  rw [if_neg hus, hto]
  by_cases htype : frame.header.type = EthernetHeader.typeIPv4
  · rw [if_pos htype]
    simp only [bind, Except.bind]
    cases hparse : IPv4Datagram.parse {} buffer with
    | mk result d =>
        by_cases hok : result = .noError
        · subst hok
          refine ⟨n, some d, by simp; rfl, h, fun d' hd => ⟨htype, ?_⟩⟩
          rw [Option.some.inj hd]
        · exact ⟨n, none, by simp [hok]; rfl, h, by simp⟩
  · rw [if_neg htype]
    simp only [bind, Except.bind]
    cases hparse : ARPMessage.parse {} buffer with
    | mk result msg =>
        by_cases hok : result = .noError
        · obtain ⟨n', heq, hholding⟩ := h.recvArp hP msg
          exact ⟨n', none, by simp [hok, heq]; rfl, hholding, by simp⟩
        · exact ⟨n, none, by simp [hok]; rfl, h, by simp⟩

end NetworkInterface
end Sponge

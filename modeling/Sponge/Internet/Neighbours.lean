import Sponge.Frame.Arp
import Sponge.Interface.Runs
import Sponge.Internet

/-!
# An interface among honest neighbours

On a wire where ARP messages tell the truth, an interface maps every IP address to a
neighbour that has it, and puts on the wire only such messages and the datagrams it was
asked to send, each addressed to a neighbour that is the hop it is for.
-/

namespace Sponge

/-- What is read where the datagram arrives. -/
def IPv4Datagram.ReadAs (dgram received : IPv4Datagram) : Prop :=
  ∃ payload, dgram.serialize = .ok payload ∧
    IPv4Datagram.parse {} payload.concatenate = (.noError, received)

namespace NetworkInterface

/-- A frame with a datagram for a hop, addressed to a neighbour that is this hop, or with an
ARP message that tells the addresses of a neighbour. -/
inductive Genuine (neighbour : UInt32 → EthernetAddress → Prop)
    (asked : UInt32 → InternetDatagram → Prop) (frame : EthernetFrame) : Prop
  | datagram (hop : UInt32) (dgram : InternetDatagram)
      (htype : frame.header.type = EthernetHeader.typeIPv4)
      (hdst : neighbour hop frame.header.dst) (hasked : asked hop dgram)
      (hpayload : dgram.serialize = .ok frame.payload)
  | arp (msg : ARPMessage) (bytes : List Byte)
      (htype : frame.header.type = EthernetHeader.typeARP)
      (hsender : neighbour msg.senderIpAddress msg.senderEthernetAddress)
      (hbytes : msg.serialize = .ok bytes) (hpayload : frame.payload = .ofBuffer bytes)

/-- A frame that waits for the address of a hop. -/
def WaitsFor (asked : UInt32 → InternetDatagram → Prop) (hop : UInt32)
    (frame : EthernetFrame) : Prop :=
  frame.header.type = EthernetHeader.typeIPv4 ∧
    ∃ dgram, asked hop dgram ∧ dgram.serialize = .ok frame.payload

/-- What an interface keeps among honest neighbours, of which it is one. -/
structure Truthful (neighbour : UInt32 → EthernetAddress → Prop)
    (asked : UInt32 → InternetDatagram → Prop) (own : InterfaceAddress)
    (n : NetworkInterface) : Prop where
  ethernetAddress : n.ethernetAddress = own.ethernetAddress
  ipAddress : n.ipAddress = own.ipAddress
  self : neighbour own.ipAddress own.ethernetAddress
  cache : ∀ ip dst, n.ipAddressMap.lookup ip = some dst → neighbour ip dst
  pending : ∀ frame ∈ n.framesOut, Genuine neighbour asked frame
  waiting : ∀ hop, ∀ frame ∈ QueueMap.queue n.unsendFrame hop, WaitsFor asked hop frame

variable {neighbour : UInt32 → EthernetAddress → Prop}
  {asked asked' : UInt32 → InternetDatagram → Prop} {own : InterfaceAddress}
  {n : NetworkInterface}

theorem Genuine.mono {frame : EthernetFrame} (h : Genuine neighbour asked frame)
    (hmore : ∀ hop dgram, asked hop dgram → asked' hop dgram) :
    Genuine neighbour asked' frame := by
  cases h with
  | datagram hop dgram htype hdst hasked hpayload =>
      exact .datagram hop dgram htype hdst (hmore hop dgram hasked) hpayload
  | arp msg bytes htype hsender hbytes hpayload =>
      exact .arp msg bytes htype hsender hbytes hpayload

theorem Truthful.mono (h : n.Truthful neighbour asked own)
    (hmore : ∀ hop dgram, asked hop dgram → asked' hop dgram) :
    n.Truthful neighbour asked' own where
  ethernetAddress := h.ethernetAddress
  ipAddress := h.ipAddress
  self := h.self
  cache := h.cache
  pending := fun frame hframe => (h.pending frame hframe).mono hmore
  waiting := by
    intro hop frame hframe
    obtain ⟨htype, dgram, hasked, hpayload⟩ := h.waiting hop frame hframe
    exact ⟨htype, dgram, hmore hop dgram hasked, hpayload⟩

theorem truthful_new (hself : neighbour own.ipAddress own.ethernetAddress) :
    (AsyncNetworkInterface.new own).interface.Truthful neighbour asked own where
  ethernetAddress := rfl
  ipAddress := rfl
  self := hself
  cache := by simp [AsyncNetworkInterface.new]
  pending := by simp [AsyncNetworkInterface.new]
  waiting := by simp [AsyncNetworkInterface.new]

theorem Truthful.tick (h : n.Truthful neighbour asked own) (ms : Nat) :
    (n.tick ms).Truthful neighbour asked own := by
  have hforgets := n.tick_forgets ms
  exact {
    ethernetAddress := hforgets.ethernetAddress.trans h.ethernetAddress
    ipAddress := hforgets.ipAddress.trans h.ipAddress
    self := h.self
    cache := fun ip dst hlook => h.cache ip dst (hforgets.lookup ip dst hlook)
    pending := by
      rw [hforgets.framesOut]
      exact h.pending
    waiting := by
      rw [hforgets.unsendFrame]
      exact h.waiting }

/-- More genuine frames are pending. -/
private theorem genuine_append {frames more : List EthernetFrame}
    (h : ∀ frame ∈ frames, Genuine neighbour asked frame)
    (hmore : ∀ frame ∈ more, Genuine neighbour asked frame) :
    ∀ frame ∈ frames ++ more, Genuine neighbour asked frame := by
  intro frame hframe
  cases List.mem_append.mp hframe with
  | inl hold => exact h frame hold
  | inr hnew => exact hmore frame hnew

/-- A message in which the interface tells its own addresses. -/
theorem Truthful.genuine_arpFrame (h : n.Truthful neighbour asked own) (msg : ARPMessage)
    {bytes : List Byte} (hip : msg.senderIpAddress = n.ipAddress)
    (hethernet : msg.senderEthernetAddress = n.ethernetAddress)
    (hbytes : msg.serialize = .ok bytes) (dst : EthernetAddress) :
    Genuine neighbour asked (n.arpFrame dst bytes) := by
  have hsender : neighbour msg.senderIpAddress msg.senderEthernetAddress := by
    rw [hip, hethernet, h.ipAddress, h.ethernetAddress]
    exact h.self
  exact .arp msg bytes rfl hsender hbytes rfl

/-- A datagram that can be encoded, for a next hop that has a number. -/
theorem Truthful.sendDatagram (h : n.Truthful neighbour asked own) {dgram : InternetDatagram}
    {payload : BufferList} {nextHop : Address} {hop : UInt32}
    (hserialize : dgram.serialize = .ok payload) (hhop : nextHop.ipv4Numeric = .ok hop)
    (hasked : asked hop dgram) :
    ∃ n', n.sendDatagram dgram nextHop = .ok n' ∧ n'.Truthful neighbour asked own := by
  -- the datagram is put behind those that wait already
  have hwaiting : ∀ hop', ∀ frame ∈ QueueMap.queue
      (n.enqueue hop (n.datagramFrame payload)).unsendFrame hop', WaitsFor asked hop' frame := by
    intro hop' frame hframe
    by_cases heq : hop' = hop
    · subst heq
      rw [enqueue, QueueMap.queue_push_self] at hframe
      cases List.mem_append.mp hframe with
      | inl hold => exact h.waiting hop' frame hold
      | inr hnew =>
          rw [List.mem_singleton.mp hnew]
          exact ⟨rfl, dgram, hasked, hserialize⟩
    · rw [enqueue, QueueMap.queue_push_ne _ _ _ _ heq] at hframe
      exact h.waiting hop' frame hframe
  rcases n.sendDatagram_outcome dgram nextHop with ⟨-, hno⟩ | ⟨payload', hop', hser, hnum, hcase⟩
  · exact absurd hhop (hno payload hop hserialize)
  obtain rfl := Except.ok.inj (hserialize.symm.trans hser)
  obtain rfl := Except.ok.inj (hhop.symm.trans hnum)
  rcases hcase with ⟨dst, hknown, heq⟩ | ⟨-, -, heq⟩ | ⟨-, -, bytes, hbytes, heq⟩
  · have hframe : Genuine neighbour asked (addressed (n.datagramFrame payload) dst) :=
      .datagram hop dgram rfl (h.cache hop dst hknown) hasked hserialize
    have hpending := genuine_append h.pending (List.forall_mem_singleton.mpr hframe)
    exact ⟨_, heq, h.ethernetAddress, h.ipAddress, h.self, h.cache, hpending, h.waiting⟩
  · exact ⟨_, heq, h.ethernetAddress, h.ipAddress, h.self, h.cache, h.pending, hwaiting⟩
  · have hframe := h.genuine_arpFrame (n.arpRequest hop) rfl rfl hbytes ethernetBroadcast
    have hpending := genuine_append h.pending (List.forall_mem_singleton.mpr hframe)
    exact ⟨_, heq, h.ethernetAddress, h.ipAddress, h.self, h.cache, hpending, hwaiting⟩

/-- A message of a neighbour. -/
theorem Truthful.learn (h : n.Truthful neighbour asked own) {msg : ARPMessage}
    (hsender : neighbour msg.senderIpAddress msg.senderEthernetAddress) :
    (n.learn msg).Truthful neighbour asked own where
  ethernetAddress := h.ethernetAddress
  ipAddress := h.ipAddress
  self := h.self
  cache := by
    intro ip dst hlook
    by_cases hip : ip = msg.senderIpAddress
    · subst hip
      rw [NetworkInterface.learn, AList.lookup_insert] at hlook
      rw [← Option.some.inj hlook]
      exact hsender
    · rw [NetworkInterface.learn, AList.lookup_insert_ne hip] at hlook
      exact h.cache ip dst hlook
  pending := h.pending
  waiting := h.waiting

theorem Truthful.recvArp (h : n.Truthful neighbour asked own) {msg : ARPMessage}
    (hsender : neighbour msg.senderIpAddress msg.senderEthernetAddress) :
    ∃ n', n.recvArp msg = .ok n' ∧ n'.Truthful neighbour asked own := by
  have hlearned := h.learn hsender
  cases hasks : n.asksForUs msg with
  | true =>
      obtain ⟨payload, hpayload, heq⟩ := recvArp_of_asks hasks
      have hframe := h.genuine_arpFrame (n.arpReply msg) rfl rfl hpayload
        msg.senderEthernetAddress
      have hpending := genuine_append h.pending (List.forall_mem_singleton.mpr hframe)
      exact ⟨_, heq, h.ethernetAddress, h.ipAddress, h.self, hlearned.cache, hpending, h.waiting⟩
  | false =>
      obtain ⟨times, hflush⟩ := InterfaceRun.flush_eq (n.learn msg) msg
      -- what waited for the sender is addressed to it
      have hflushed : ∀ frame ∈ (QueueMap.queue n.unsendFrame msg.senderIpAddress).map
          fun frame => addressed frame msg.senderEthernetAddress,
          Genuine neighbour asked frame := by
        intro frame hframe
        obtain ⟨waiting, hwaiting, rfl⟩ := List.mem_map.mp hframe
        obtain ⟨htype, dgram, hasked, hpayload⟩ := h.waiting _ waiting hwaiting
        exact .datagram msg.senderIpAddress dgram htype hsender hasked hpayload
      have hpending := genuine_append h.pending hflushed
      have hwaiting : ∀ hop, ∀ frame ∈
          QueueMap.queue (n.unsendFrame.erase msg.senderIpAddress) hop,
          WaitsFor asked hop frame :=
        fun hop frame hframe => h.waiting hop frame (QueueMap.mem_queue_of_mem_erase hframe)
      have hdone := recvArp_of_not_asks hasks
      rw [hflush] at hdone
      exact ⟨_, hdone, h.ethernetAddress, h.ipAddress, h.self, hlearned.cache, hpending, hwaiting⟩

/-- **A frame of an honest neighbour.**  It is dealt with, and a datagram that is handed up is
one that a neighbour was asked to send to a hop with the address the frame is for. -/
theorem Truthful.recvFrame (h : n.Truthful neighbour asked own) {frame : EthernetFrame}
    (hframe : Genuine neighbour asked' frame) :
    ∃ n' r, n.recvFrame (Internet.onePiece frame) = .ok (n', r) ∧
      n'.Truthful neighbour asked own ∧
      ∀ received, r = some received → ∃ hop dgram, asked' hop dgram ∧
        neighbour hop frame.header.dst ∧ dgram.ReadAs received ∧
        (frame.header.dst = own.ethernetAddress ∨ frame.header.dst = ethernetBroadcast) := by
  have hto : (Internet.onePiece frame).payload.toBuffer = .ok frame.payload.concatenate :=
    BufferList.toBuffer_ofBuffer _
  rw [NetworkInterface.recvFrame]
  by_cases hus : n.notForUs (Internet.onePiece frame) = true
  · rw [if_pos hus]
    exact ⟨n, none, rfl, h, by simp⟩
  rw [if_neg hus, hto]
  cases hframe with
  | datagram hop dgram htype hdst hasked hpayload =>
      have htype' : (Internet.onePiece frame).header.type = EthernetHeader.typeIPv4 := htype
      rw [if_pos htype']
      simp only [bind, Except.bind]
      cases hparse : IPv4Datagram.parse {} frame.payload.concatenate with
      | mk result received =>
          by_cases hok : result = .noError
          · subst hok
            have hours : frame.header.dst = own.ethernetAddress ∨
                frame.header.dst = ethernetBroadcast := by
              rw [← h.ethernetAddress, ← isEqual_iff, ← isEqual_iff]
              simp only [notForUs, Bool.and_eq_true, Bool.not_eq_true', not_and,
                Bool.not_eq_false] at hus
              by_cases hown : isEqual frame.header.dst n.ethernetAddress = true
              · exact Or.inl hown
              · exact Or.inr (hus (Bool.eq_false_iff.mpr hown))
            refine ⟨n, some received, by simp; rfl, h, ?_⟩
            intro received' hsome
            rw [← Option.some.inj hsome]
            exact ⟨hop, dgram, hasked, hdst, ⟨_, hpayload, hparse⟩, hours⟩
          · exact ⟨n, none, by simp [hok]; rfl, h, by simp⟩
  | arp msg bytes htype hsender hbytes hpayload =>
      have harp : EthernetHeader.typeARP ≠ EthernetHeader.typeIPv4 := by decide
      have htype' : (Internet.onePiece frame).header.type ≠ EthernetHeader.typeIPv4 := by
        show frame.header.type ≠ EthernetHeader.typeIPv4
        rw [htype]
        exact harp
      have hread : ARPMessage.parse {} frame.payload.concatenate = (.noError, msg) := by
        have hsupported : msg.supported = true := by
          cases hsup : msg.supported with
          | true => rfl
          | false =>
              obtain ⟨e, herr⟩ := ARPMessage.serialize_of_unsupported hsup
              rw [herr] at hbytes
              cases hbytes
        rw [ARPMessage.serialize_of_supported hsupported] at hbytes
        have hone : frame.payload.concatenate = msg.fieldBytes ++ [] := by
          rw [hpayload, ← Except.ok.inj hbytes]
          simp [BufferList.ofBuffer, BufferList.concatenate]
        rw [hone]
        exact ARPMessage.parse_fieldBytes {} hsupported []
      obtain ⟨n', heq, hkept⟩ := h.recvArp hsender
      rw [if_neg htype']
      simp only [bind, Except.bind, hread, if_true, heq]
      exact ⟨n', none, rfl, hkept, by simp⟩

end NetworkInterface
end Sponge

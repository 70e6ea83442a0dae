import Sponge.Adapter.Device
import Sponge.Interface.Holding
import Sponge.Socket.Tun

/-!
# Two sockets over Ethernet

Each adapter has an interface of its own, which resolves the address of the next hop.  The
frames that one side has written may reach the other in any order, any number of times or
never, as they are or after routers have put their datagrams into other frames; in between
come frames of strangers, ARP messages that say anything, and the kernel may refuse a write.
-/

namespace Sponge

open Program

namespace EthernetFrame

/-- A frame that was written is read back, with its payload in one piece. -/
theorem parse_serialize (old frame : EthernetFrame) :
    old.parse frame.serialize.concatenate =
      (.noError, { header := frame.header, payload := .ofBuffer frame.payload.concatenate }) := by
  have hbytes : frame.serialize.concatenate =
      frame.header.serialize ++ frame.payload.concatenate := rfl
  have hlong : ¬(frame.header.serialize ++ frame.payload.concatenate).length <
      EthernetHeader.LENGTH := by
    simp [EthernetHeader.serialize, NetUnparser.ethernetAddress_eq, EthernetHeader.LENGTH]
    omega
  rw [parse, hbytes, EthernetHeader.parse, if_neg hlong, EthernetHeader.serialize]
  simp only [List.append_assoc, NetParser.ethernetAddress_unparse, NetParser.u16_unparse]

end EthernetFrame

namespace Link

/-- A datagram that the frame holds may arrive at this side. -/
def Bears (link : Link) (side : Side) (arrives : TCPSegment → Prop) (frame : EthernetFrame) :
    Prop :=
  frame.header.type = EthernetHeader.typeIPv4 →
    ∀ d, IPv4Datagram.parse {} frame.payload.concatenate = (.noError, d) →
      link.MayArrive side arrives d

/-- What an interface may send to this side. -/
def Sendable (link : Link) (side : Side) (arrives : TCPSegment → Prop) (frame : EthernetFrame) :
    Prop :=
  frame.payload.concatenate.length ≤ 65535 ∧ link.Bears side arrives frame

/-- What may be read from the device at this side. -/
structure Frame (link : Link) (side : Side) (arrives : TCPSegment → Prop) (bytes : Buffer) :
    Prop where
  some : bytes ≠ []
  short : bytes.length ≤ 65549
  bears : link.Bears side arrives (EthernetFrame.parse {} bytes).2

variable {link : Link} {side : Side} {arrives arrives' : TCPSegment → Prop}

theorem Bears.mono {frame : EthernetFrame} (hmore : ∀ seg, arrives seg → arrives' seg)
    (h : link.Bears side arrives frame) : link.Bears side arrives' frame :=
  fun htype d hd => (h htype d hd).mono hmore

theorem Frame.mono {bytes : Buffer} (hmore : ∀ seg, arrives seg → arrives' seg)
    (h : link.Frame side arrives bytes) : link.Frame side arrives' bytes :=
  ⟨h.some, h.short, h.bears.mono hmore⟩

theorem sendable_impartial : NetworkInterface.Impartial (link.Sendable side arrives) where
  addressed := fun _ _ h => h
  arp := by
    intro n dst bytes hlength
    have harp : EthernetHeader.typeARP ≠ EthernetHeader.typeIPv4 := by decide
    refine ⟨?_, fun htype => absurd htype harp⟩
    have hone : (n.arpFrame dst bytes).payload.concatenate = bytes := by
      simp [NetworkInterface.arpFrame, BufferList.ofBuffer, BufferList.concatenate]
    rw [hone, hlength, ARPMessage.LENGTH]
    norm_num

/-- What is sent may be read. -/
theorem Sendable.frame {frame : EthernetFrame} (h : link.Sendable side arrives frame) :
    link.Frame side arrives frame.serialize.concatenate := by
  have hheader : frame.header.serialize.length = 14 := by
    simp [EthernetHeader.serialize, NetUnparser.ethernetAddress_eq]
  have hsize : frame.serialize.concatenate.length = 14 + frame.payload.concatenate.length := by
    show (frame.header.serialize ++ frame.payload.concatenate).length = _
    rw [List.length_append, hheader]
  have hlength := h.1
  refine ⟨List.ne_nil_of_length_pos (by omega), by omega, ?_⟩
  rw [EthernetFrame.parse_serialize]
  intro htype d hd
  have hone : (BufferList.ofBuffer frame.payload.concatenate).concatenate =
      frame.payload.concatenate := by
    simp [BufferList.ofBuffer, BufferList.concatenate]
  rw [hone] at hd
  exact h.2 htype d hd

/-- The second frame has the datagram of the first, but for its TTL and checksum. -/
def Reframed (bytes bytes' : Buffer) : Prop :=
  let frame := (EthernetFrame.parse {} bytes).2
  let dgram := IPv4Datagram.parse {} frame.payload.concatenate
  let dgram' := IPv4Datagram.parse {} (EthernetFrame.parse {} bytes').2.payload.concatenate
  bytes' ≠ [] ∧ bytes'.length ≤ 65549 ∧ frame.header.type = EthernetHeader.typeIPv4 ∧ dgram.1 = .noError ∧
    dgram'.2.header = { dgram.2.header with
      ttl := dgram'.2.header.ttl, cksum := dgram'.2.header.cksum } ∧
    dgram'.2.payload.concatenate = dgram.2.payload.concatenate

instance (bytes bytes' : Buffer) : Decidable (Reframed bytes bytes') :=
  inferInstanceAs (Decidable (_ ∧ _ ∧ _ ∧ _ ∧ _ ∧ _))

/-- Neither the TTL nor the checksum of the header counts. -/
theorem MayArrive.reframed {d d' : InternetDatagram} (h : link.MayArrive side arrives d)
    (hheader : d'.header = { d.header with ttl := d'.header.ttl, cksum := d'.header.cksum })
    (hpayload : d'.payload.concatenate = d.payload.concatenate) :
    link.MayArrive side arrives d' := by
  have hsrc : d'.header.src = d.header.src := by rw [hheader]
  have hdst : d'.header.dst = d.header.dst := by rw [hheader]
  have hproto : d'.header.proto = d.header.proto := by rw [hheader]
  have hpseudo : d'.header.pseudoCksum = d.header.pseudoCksum := by
    rw [hheader]
    rfl
  have hcarries : ∀ seg, TCPOverIPv4Adapter.Carries d' seg ↔ TCPOverIPv4Adapter.Carries d seg := by
    intro seg
    rw [TCPOverIPv4Adapter.Carries, TCPOverIPv4Adapter.Carries, hproto, hpayload, hpseudo]
  rcases h with ⟨orig, horig, hcarried⟩ | hstranger
  · obtain ⟨seg, hseg, hcore, hports⟩ := hcarried.segment
    exact Or.inl ⟨orig, horig, hsrc.trans hcarried.src, hdst.trans hcarried.dst, seg,
      (hcarries seg).mpr hseg, hcore, hports⟩
  · refine Or.inr fun seg hseg hdport => ?_
    rw [hsrc]
    exact hstranger seg ((hcarries seg).mp hseg) hdport

theorem Frame.reframed {bytes bytes' : Buffer} (h : link.Frame side arrives bytes)
    (hre : Reframed bytes bytes') : link.Frame side arrives bytes' := by
  obtain ⟨hsome, hlength, htype, hok, hheader, hpayload⟩ := hre
  refine ⟨hsome, hlength, fun _ d' hd' => ?_⟩
  have hd : IPv4Datagram.parse {} (EthernetFrame.parse {} bytes).2.payload.concatenate =
      (.noError, (IPv4Datagram.parse {}
        (EthernetFrame.parse {} bytes).2.payload.concatenate).2) := Prod.ext hok rfl
  rw [hd'] at hheader hpayload
  exact (h.bears htype _ hd).reframed hheader hpayload

end Link
namespace TCPOverIPv4OverEthernetAdapter

/-- What the adapter at this side keeps once it has been given `sent`. -/
structure Keeps (link : Link) (side : Side) (arrives : TCPSegment → Prop)
    (sent : List TCPSegment) (a : TCPOverIPv4OverEthernetAdapter) : Prop where
  holds : link.Holds side a.base
  nextHop : ∃ numeric port, a.nextHop = .ipv4 numeric port
  interface : a.interface.Holding (link.Sendable side.other fun seg => seg ∈ sent)
  inbox : ∀ bytes ∈ a.tap.file.inbox, link.Frame side arrives bytes
  outbox : ∀ bytes ∈ a.tap.file.outbox, link.Frame side.other (fun seg => seg ∈ sent) bytes
  opened : a.tap.eof = false ∧ a.tap.closed = false

variable {lib : AddressLibrary} {link : Link} {side : Side} {arrives : TCPSegment → Prop}
  {sent : List TCPSegment} {a : TCPOverIPv4OverEthernetAdapter}

/-- More has been given. -/
theorem Keeps.grow (h : Keeps link side arrives sent a) (seg : TCPSegment) :
    Keeps link side arrives (sent ++ [seg]) a where
  holds := h.holds
  nextHop := h.nextHop
  interface := h.interface.mono fun _ hf =>
    ⟨hf.1, hf.2.mono fun _ hmem => List.mem_append_left _ hmem⟩
  inbox := h.inbox
  outbox := fun bytes hb => (h.outbox bytes hb).mono fun _ hmem => List.mem_append_left _ hmem
  opened := h.opened

/-- The loop of `send_pending` writes what is pending, up to the first write that fails. -/
theorem sendFrames_spec {frames : List EthernetFrame} (h : Keeps link side arrives sent a)
    (hframes : a.interface.framesOut = frames) :
    Yields (sendFrames frames) a
      (fun _ a' => Keeps link side arrives sent a' ∧ a'.tap.readCount = a.tap.readCount)
      (fun e a' => SystemFailure e ∧ Keeps link side arrives sent a') := by
  induction frames generalizing a with
  | nil => exact ⟨h, rfl⟩
  | cons frame rest ih =>
      have hframe : frame ∈ a.interface.framesOut := by
        rw [hframes]
        exact List.mem_cons_self
      have hrest : ∀ frame' ∈ rest, frame' ∈ a.interface.framesOut := by
        rw [hframes]
        exact fun _ hf => List.mem_cons_of_mem _ hf
      simp only [sendFrames, onTap, yields_bind, yields_zoom, yields_modify]
      refine (packetWrite_spec a.tap (.ofBufferList frame.serialize)).mono ?_ ?_
      · rintro - tap ⟨houtbox, hinbox, hcount, heof, hclosed⟩
        have hnext : Keeps link side arrives sent
            { a with tap := tap, interface := { a.interface with framesOut := rest } } := {
          holds := h.holds
          nextHop := h.nextHop
          interface := h.interface.pop hrest
          inbox := by
            rw [hinbox]
            exact h.inbox
          outbox := by
            rw [houtbox]
            intro bytes hb
            cases List.mem_append.mp hb with
            | inl hold => exact h.outbox bytes hold
            | inr hlast =>
                rw [List.mem_singleton.mp hlast]
                exact (h.interface.pending frame hframe).frame
          opened := ⟨heof.trans h.opened.1, hclosed.trans h.opened.2⟩ }
        refine (ih hnext rfl).mono ?_ fun _ _ he => he
        rintro - a' ⟨hkept, hcount'⟩
        exact ⟨hkept, hcount'.trans hcount⟩
      · rintro e tap ⟨⟨errno, rfl⟩, houtbox, hinbox, -, heof, hclosed⟩
        exact ⟨Or.inl ⟨_, _, rfl⟩, h.holds, h.nextHop, h.interface, by rw [hinbox]; exact h.inbox,
          by rw [houtbox]; exact h.outbox, heof.trans h.opened.1, hclosed.trans h.opened.2⟩

/-- Another state of the interface is installed, and what is pending is sent. -/
theorem setInterface_spec (h : Keeps link side arrives sent a) {n : NetworkInterface}
    (hn : n.Holding (link.Sendable side.other fun seg => seg ∈ sent)) :
    Yields (setInterface n >>= fun _ => sendPending) a
      (fun _ a' => Keeps link side arrives sent a' ∧ a'.tap.readCount = a.tap.readCount)
      (fun e a' => SystemFailure e ∧ Keeps link side arrives sent a') := by
  have hset : Keeps link side arrives sent { a with interface := n } :=
    ⟨h.holds, h.nextHop, hn, h.inbox, h.outbox, h.opened⟩
  simp only [setInterface, sendPending, yields_bind, yields_modify, yields_get]
  exact sendFrames_spec hset rfl

theorem read_spec (hlib : lib.Inverse) (h : Keeps link side arrives sent a) :
    Yields (read lib) a
      (fun r a' => Keeps link side arrives sent a' ∧ a'.tap.readCount = a.tap.readCount + 1 ∧
        ∀ seg, r = some seg → ∃ orig, arrives orig ∧ seg.core = orig.core)
      (fun e a' => SystemFailure e ∧ Keeps link side arrives sent a') := by
  have hsized : ∀ bytes ∈ a.tap.file.inbox, bytes ≠ [] ∧ bytes.length ≤ 1048576 :=
    fun bytes hb => ⟨(h.inbox bytes hb).some, (h.inbox bytes hb).short.trans (by norm_num)⟩
  rw [read, onTap, yields_bind, yields_zoom]
  refine (packetRead_spec a.tap hsized).mono ?_ ?_
  case refine_2 =>
    rintro e tap ⟨rfl, rfl⟩
    exact ⟨Or.inl ⟨_, _, rfl⟩, h⟩
  rintro bytes tap ⟨hinbox, houtbox, hcount, heof, hclosed⟩
  have hbytes : link.Frame side arrives bytes := h.inbox bytes (by rw [hinbox]; simp)
  have hkept : Keeps link side arrives sent { a with tap := tap } := by
    refine ⟨h.holds, h.nextHop, h.interface, fun bytes' hb => h.inbox bytes' ?_, ?_,
      heof.trans h.opened.1, hclosed.trans h.opened.2⟩
    · rw [hinbox]
      exact List.mem_cons_of_mem _ hb
    · rw [houtbox]
      exact h.outbox
  cases hparse : EthernetFrame.parse {} bytes with
  | mk result frame =>
  have hbears : link.Bears side arrives frame := by
    have hframe := hbytes.bears
    rw [hparse] at hframe
    exact hframe
  obtain ⟨buffer, hbuffer⟩ : ∃ buffer, frame.payload = .ofBuffer buffer := by
    have hframe : frame = (EthernetFrame.parse {} bytes).2 := by rw [hparse]
    rw [hframe]
    exact ⟨_, rfl⟩
  obtain ⟨n, ipDgram, hrecv, hholding, hdgram⟩ :=
    hkept.interface.recvFrame Link.sendable_impartial hbuffer
  have hrecv' : a.interface.recvFrame frame = .ok (n, ipDgram) := hrecv
  simp only [yields_ite, yields_pure]
  split
  · exact ⟨hkept, hcount, by simp⟩
  simp only [onBase, yields_bind, yields_get, yields_zoom, hrecv', yields_call_ok]
  have hset := setInterface_spec hkept hholding
  rw [yields_bind] at hset
  refine hset.mono ?_ fun _ _ he => he
  intro _ a₁ hsend
  refine hsend.mono ?_ fun _ _ he => he
  rintro - a' ⟨hkept', hcount'⟩
  have hread : a'.tap.readCount = a.tap.readCount + 1 := hcount'.trans hcount
  cases ipDgram with
  | none => exact ⟨hkept', hread, by simp⟩
  | some d =>
      obtain ⟨htype, hd⟩ := hdgram d rfl
      have hpayload : frame.payload.concatenate = buffer := by
        rw [hbuffer]
        simp [BufferList.ofBuffer, BufferList.concatenate]
      have harrive : link.MayArrive side arrives d := hbears htype d (by rw [hpayload]; exact hd)
      simp only [yields_zoom]
      refine (Link.unwrap_spec hlib hkept'.holds (IPv4Datagram.contiguous_of_parse hd)
        harrive).mono ?_ fun _ _ hfalse => hfalse.elim
      rintro r base ⟨hholds, hseg⟩
      exact ⟨⟨hholds, hkept'.nextHop, hkept'.interface, hkept'.inbox, hkept'.outbox,
        hkept'.opened⟩, hread, hseg⟩

theorem write_spec (h : Keeps link side arrives sent a) (hport : link.port side.other ≠ 0)
    {seg : TCPSegment} (hseg : seg.Sized) :
    Yields (write lib seg) a (fun _ => Keeps link side arrives (sent ++ [seg]))
      (fun e a' => SystemFailure e ∧ Keeps link side arrives (sent ++ [seg]) a') := by
  obtain ⟨wrapped, dgram, payload, hwrap, hpayload, hlength, hparse⟩ :=
    Link.wrap_spec lib h.holds hport hseg
  obtain ⟨numeric, port, hhop⟩ := h.nextHop
  have hip : a.nextHop.ipv4Numeric = .ok numeric := by rw [hhop]; rfl
  have hgrown := h.grow seg
  have hframe : link.Sendable side.other (fun seg' => seg' ∈ sent ++ [seg])
      (a.interface.datagramFrame payload) := by
    refine ⟨hlength, fun _ d hd => ?_⟩
    obtain ⟨d', hd', harrive⟩ := hparse {}
    obtain rfl : d = d' := (Prod.mk.inj (hd.symm.trans hd')).2
    exact harrive.mono fun seg' heq => by
      rw [heq]
      exact List.mem_append_right _ List.mem_cons_self
  obtain ⟨n, hsent, hholding⟩ :=
    hgrown.interface.sendDatagram Link.sendable_impartial hpayload hip hframe
  simp only [write, onBase, yields_bind, yields_get, yields_zoom, hwrap, hsent, yields_call_ok]
  have hset := setInterface_spec hgrown hholding
  rw [yields_bind] at hset
  refine hset.mono ?_ fun _ _ he => he
  intro _ a₁ hsend
  exact hsend.mono (fun _ _ hkept => hkept.1) fun _ _ he => he

theorem tick_spec (h : Keeps link side arrives sent a) (ms : Nat) :
    Yields (tick ms) a (fun _ => Keeps link side arrives sent)
      (fun e a' => SystemFailure e ∧ Keeps link side arrives sent a') := by
  simp only [tick, yields_bind, yields_get]
  have hset := setInterface_spec h (h.interface.tick ms)
  rw [yields_bind] at hset
  refine hset.mono ?_ fun _ _ he => he
  intro _ a₁ hsend
  exact hsend.mono (fun _ _ hkept => hkept.1) fun _ _ he => he

theorem lawful (hlib : lib.Inverse) (hport : link.port side.other ≠ 0) :
    (ethernetAdapter lib).Lawful (Keeps link side arrives) arrives where
  read := fun _ _ h => read_spec hlib h
  write := fun _ _ _ h hseg => write_spec h hport hseg
  tick := fun _ _ ms h => tick_spec h ms

theorem staysOpen : (ethernetAdapter lib).StaysOpen (Keeps link side arrives) :=
  fun _ _ h => h.opened

/-- What happens at a device between the calls. -/
inductive Event where
  /-- the `i`-th frame that the other side has written arrives -/
  | deliver (i : Nat)
  /-- these bytes arrive, if they are what routers have made of that frame -/
  | forward (i : Nat) (bytes : Buffer)
  | arrive (bytes : Buffer)
  /-- what the kernel is going to answer to the next writes -/
  | refuse (refusals : List (Option Nat))
deriving DecidableEq, Repr

def occur (event : Event) (other a : TCPOverIPv4OverEthernetAdapter) :
    TCPOverIPv4OverEthernetAdapter :=
  let file := a.tap.file
  let file' : PacketDevice :=
    match event with
    | .deliver i => { file with inbox := file.inbox ++ other.tap.file.outbox[i]?.toList }
    | .forward i bytes =>
        let origin := other.tap.file.outbox[i]?.toList.filter fun frame =>
          Link.Reframed frame bytes
        { file with inbox := file.inbox ++ origin.map fun _ => bytes }
    | .arrive bytes => { file with inbox := file.inbox ++ [bytes] }
    | .refuse refusals => { file with refusals := refusals }
  { a with tap := { a.tap with file := file' } }

/-- The frames that arrive on their own come from strangers. -/
def Admitted (link : Link) (side : Side) : Event → Prop
  | .arrive bytes => link.Frame side (fun _ => False) bytes
  | .deliver _ => True
  | .forward _ _ => True
  | .refuse _ => True

theorem Keeps.occur {arrives' : TCPSegment → Prop} {sent' : List TCPSegment} {event : Event}
    {other : TCPOverIPv4OverEthernetAdapter} (hevent : Admitted link side event)
    (hsent : ∀ seg ∈ sent', arrives seg) (hother : Keeps link side.other arrives' sent' other)
    (h : Keeps link side arrives sent a) :
    Keeps link side arrives sent (TCPOverIPv4OverEthernetAdapter.occur event other a) := by
  have houtbox : ∀ bytes ∈ other.tap.file.outbox, link.Frame side arrives bytes := by
    intro bytes hb
    have hframe := hother.outbox bytes hb
    rw [Side.other_other] at hframe
    exact hframe.mono hsent
  cases event with
  | refuse refusals => exact ⟨h.holds, h.nextHop, h.interface, h.inbox, h.outbox, h.opened⟩
  | arrive bytes =>
      refine ⟨h.holds, h.nextHop, h.interface, fun b hb => ?_, h.outbox, h.opened⟩
      cases List.mem_append.mp hb with
      | inl hold => exact h.inbox b hold
      | inr hnew =>
          rw [List.mem_singleton.mp hnew]
          exact hevent.mono fun _ => False.elim
  | deliver i =>
      refine ⟨h.holds, h.nextHop, h.interface, fun b hb => ?_, h.outbox, h.opened⟩
      cases List.mem_append.mp hb with
      | inl hold => exact h.inbox b hold
      | inr hnew => exact houtbox b (List.mem_of_getElem? (Option.mem_toList.mp hnew))
  | forward i bytes =>
      refine ⟨h.holds, h.nextHop, h.interface, fun b hb => ?_, h.outbox, h.opened⟩
      cases List.mem_append.mp hb with
      | inl hold => exact h.inbox b hold
      | inr hnew =>
          obtain ⟨frame, hframe, rfl⟩ := List.mem_map.mp hnew
          obtain ⟨hget, hre⟩ := List.mem_filter.mp hframe
          exact (houtbox frame (List.mem_of_getElem? (Option.mem_toList.mp hget))).reframed
            (of_decide_eq_true hre)

end TCPOverIPv4OverEthernetAdapter

/-- Two TAP devices and what lies between them. -/
def ethernetMedium (lib : AddressLibrary) (hlib : lib.Inverse) (link : Link)
    (hport : ∀ side, link.port side ≠ 0) : Medium (ethernetAdapter lib) where
  Event := TCPOverIPv4OverEthernetAdapter.Event
  occur := fun _ => TCPOverIPv4OverEthernetAdapter.occur
  Admitted := TCPOverIPv4OverEthernetAdapter.Admitted link
  inv := TCPOverIPv4OverEthernetAdapter.Keeps link
  lawful := fun side _ => TCPOverIPv4OverEthernetAdapter.lawful hlib (hport side.other)
  mono := fun hmore h => ⟨h.holds, h.nextHop, h.interface,
    fun bytes hb => (h.inbox bytes hb).mono hmore, h.outbox, h.opened⟩
  carries := TCPOverIPv4OverEthernetAdapter.Keeps.occur

/-- What each side's adapter is constructed with. -/
structure Station where
  ethernetAddress : EthernetAddress
  ipAddress : UInt32
  nextHop : UInt32

namespace Station

/-- The adapter once its members have been set. -/
def fresh (station : Station) (tapFd : Nat) : TCPOverIPv4OverEthernetAdapter where
  tap := { fd := tapFd, file := {} }
  interface := { ethernetAddress := station.ethernetAddress, ipAddress := station.ipAddress }
  nextHop := .ipv4 station.nextHop 0

/-- The adapter that the constructor leaves. -/
def adapter (station : Station) (tapFd : Nat) : TCPOverIPv4OverEthernetAdapter :=
  match TCPOverIPv4OverEthernetAdapter.prime.run (station.fresh tapFd) with
  | .ok _ a => a
  | .error _ a => a

/-- The device after the constructor has tried to write its frame, which bears nothing. -/
structure Primed (tap : FileDescriptor PacketDevice) : Prop where
  inbox : tap.file.inbox = []
  outbox : ∀ bytes ∈ tap.file.outbox, bytes = (EthernetFrame.serialize {}).concatenate
  opened : tap.eof = false ∧ tap.closed = false

theorem exists_adapter_eq (station : Station) (tapFd : Nat) :
    ∃ tap, station.adapter tapFd = { station.fresh tapFd with tap := tap } ∧ Primed tap := by
  have hprime : Yields TCPOverIPv4OverEthernetAdapter.prime (station.fresh tapFd)
      (fun _ a => ∃ tap, a = { station.fresh tapFd with tap := tap } ∧ Primed tap)
      (fun _ a => ∃ tap, a = { station.fresh tapFd with tap := tap } ∧ Primed tap) := by
    simp only [TCPOverIPv4OverEthernetAdapter.prime, TCPOverIPv4OverEthernetAdapter.onTap,
      yields_bind, yields_zoom, yields_pure]
    refine (packetWrite_spec (station.fresh tapFd).tap _).mono ?_ ?_
    · rintro - tap ⟨houtbox, hinbox, -, hopened⟩
      refine ⟨tap, rfl, hinbox, fun bytes hb => ?_, hopened⟩
      rw [houtbox] at hb
      exact List.mem_singleton.mp hb
    · rintro e tap ⟨-, houtbox, hinbox, -, hopened⟩
      refine ⟨tap, rfl, hinbox, fun bytes hb => ?_, hopened⟩
      rw [houtbox] at hb
      exact absurd hb List.not_mem_nil
  rw [adapter]
  cases hrun : TCPOverIPv4OverEthernetAdapter.prime.run (station.fresh tapFd) with
  | ok u a => exact (yields_of_ok hrun).mp hprime
  | error e a => exact (yields_of_error hrun).mp hprime

theorem adapter_keeps (station : Station) (tapFd : Nat) {link : Link} {side : Side}
    {arrives : TCPSegment → Prop} {base : TCPOverIPv4Adapter} (hholds : link.Holds side base) :
    TCPOverIPv4OverEthernetAdapter.Keeps link side arrives []
      { station.adapter tapFd with base := base } := by
  have hdummy : link.Frame side.other (fun seg => seg ∈ [])
      (EthernetFrame.serialize {}).concatenate := by
    refine ⟨by decide, by decide, fun htype => ?_⟩
    rw [EthernetFrame.parse_serialize] at htype
    exact absurd htype (by decide)
  obtain ⟨tap, heq, hprimed⟩ := station.exists_adapter_eq tapFd
  rw [heq]
  refine ⟨hholds, ⟨_, _, rfl⟩, NetworkInterface.holding_start _ _, fun bytes hb => ?_,
    fun bytes hb => ?_, hprimed.opened⟩
  · rw [hprimed.inbox] at hb
    exact absurd hb List.not_mem_nil
  · rw [hprimed.outbox bytes hb]
    exact hdummy

end Station

def Link.ethernetSetup (link : Link) (cfg : Side → TCPConfig) (fd tapFd : Side → Nat)
    (station : Side → Station) : Side → Setup TCPOverIPv4OverEthernetAdapter :=
  link.setup cfg fd fun side => (station side).adapter (tapFd side)

theorem Link.ethernetSetup_ready (lib : AddressLibrary) (link : Link) (cfg : Side → TCPConfig)
    (fd tapFd : Side → Nat) (station : Side → Station) (side : Side) :
    TCPOverIPv4OverEthernetAdapter.Keeps link side (fun _ => False) []
      ((link.ethernetSetup cfg fd tapFd station side).configured (ethernetAdapter lib)) := by
  cases hlistens : link.listens side with
  | true =>
      have hconfigured : (link.ethernetSetup cfg fd tapFd station side).configured
          (ethernetAdapter lib) = { (station side).adapter (tapFd side) with
            base := { config := { source := .ipv4 0 (link.port side) }, listening := true } } := by
        simp [Setup.configured, Link.ethernetSetup, Link.setup, hlistens, ethernetAdapter]
      rw [hconfigured]
      exact (station side).adapter_keeps (tapFd side) (Or.inr ⟨rfl, hlistens, 0, rfl⟩)
  | false =>
      have hbase : ((station side).adapter (tapFd side)).base = {} := by
        obtain ⟨tap, heq, -⟩ := (station side).exists_adapter_eq (tapFd side)
        rw [heq]
        rfl
      have hconfigured : (link.ethernetSetup cfg fd tapFd station side).configured
          (ethernetAdapter lib) = { (station side).adapter (tapFd side) with
            base := { config := link.config side } } := by
        simp [Setup.configured, Link.ethernetSetup, Link.setup, hlistens, ethernetAdapter, hbase]
      rw [hconfigured]
      exact (station side).adapter_keeps (tapFd side) (Or.inl ⟨rfl, rfl⟩)

/-- A private Ethernet address. -/
def localEthernet (last : Byte) : EthernetAddress := #v[2, 0, 0, 0, 0, last]

/-- Two hosts that take each other for the next hop. -/
def neighbours (side : Side) : Station :=
  if side = .left then
    { ethernetAddress := localEthernet 1, ipAddress := 0x0a000001, nextHop := 0x0a000002 }
  else
    { ethernetAddress := localEthernet 2, ipAddress := 0x0a000002, nextHop := 0x0a000001 }

/-- The frame with the two bytes, after a router has taken one from its TTL. -/
def forwardedFrame : Buffer :=
  [2, 0, 0, 0, 0, 2, 2, 0, 0, 0, 0, 9, 8, 0, 69, 0, 0, 42, 0, 0, 64, 0, 127, 6, 231, 203, 10, 0,
    0, 1, 10, 0, 0, 2, 4, 210, 0, 80, 0, 0, 0, 8, 0, 0, 0, 8, 80, 16, 250, 0, 52, 52, 0, 0, 104,
    105]

/-- The client's request waits for the answer to an ARP request; then come the handshake, two
bytes and the end of the stream, whose segments arrive in the wrong order. -/
def twoBytesOverEthernet :
    List (SocketsOp TCPOverIPv4OverEthernetAdapter TCPOverIPv4OverEthernetAdapter.Event) :=
  [oneReady .left 6 .Out, .carry .right (.deliver 1), oneReady .right 6 .In,
    .carry .left (.deliver 1), oneReady .left 6 .In, .carry .right (.deliver 2),
    oneReady .right 6 .In, oneReady .right 6 .Out, .carry .left (.deliver 2),
    oneReady .left 6 .In, oneReady .left 6 .Out, oneReady .left 6 .Out,
    .owner .left (.write [104, 105]), .owner .left .shutdownWrite, oneReady .left 5 .In,
    oneReady .left 5 .In, oneReady .left 6 .Out, .carry .right (.deliver 5),
    oneReady .right 6 .In, .carry .right (.deliver 3), oneReady .right 6 .In,
    .carry .right (.forward 4 forwardedFrame), oneReady .right 6 .In, oneReady .right 6 .In,
    oneReady .right 5 .Out]

theorem twoBytesOverEthernet_undisturbed (sys : Sockets TCPOverIPv4OverEthernetAdapter) :
    Run.Admitted
      (Sockets.step (ethernetMedium .dottedQuad AddressLibrary.dottedQuad_inverse clientServer
        clientServer_port))
      (Sockets.Undisturbed (ethernetMedium .dottedQuad AddressLibrary.dottedQuad_inverse
        clientServer clientServer_port)) sys twoBytesOverEthernet := by
  have hturn : ∀ side fd direction, Sockets.Undisturbed
      (ethernetMedium .dottedQuad AddressLibrary.dottedQuad_inverse clientServer clientServer_port)
      sys (oneReady side fd direction) := fun _ fd direction =>
    ⟨TCPSpongeSocket.steady_onlyReady fd direction, rfl⟩
  exact ⟨hturn .left 6 .Out, trivial, hturn .right 6 .In, trivial, hturn .left 6 .In, trivial,
    hturn .right 6 .In, hturn .right 6 .Out, trivial, hturn .left 6 .In, hturn .left 6 .Out,
    hturn .left 6 .Out, trivial, trivial, hturn .left 5 .In, hturn .left 5 .In,
    hturn .left 6 .Out, trivial, hturn .right 6 .In, trivial, hturn .right 6 .In, trivial,
    hturn .right 6 .In, hturn .right 6 .In, hturn .right 5 .Out, trivial⟩

end Sponge

import Sponge.Adapter.Device
import Sponge.Socket.Finish

/-!
# Two sockets over TUN devices

The packets that one side has written may reach the other in any order, any number of
times or never; in between come packets of strangers, and the kernel may refuse a write.
-/

namespace Sponge

open Program

/-- What may be read from the device at this side. -/
structure Link.Packet (link : Link) (side : Side) (arrives : TCPSegment → Prop)
    (packet : Buffer) : Prop where
  some : packet ≠ []
  short : packet.length ≤ 65535
  arrives : ∀ d, IPv4Datagram.parse {} packet = (.noError, d) → link.MayArrive side arrives d

theorem Link.Packet.mono {link : Link} {side : Side} {arrives arrives' : TCPSegment → Prop}
    {packet : Buffer} (hmore : ∀ seg, arrives seg → arrives' seg)
    (h : link.Packet side arrives packet) : link.Packet side arrives' packet :=
  ⟨h.some, h.short, fun d hd => (h.arrives d hd).mono hmore⟩

/-- What is parsed lies in one buffer. -/
theorem IPv4Datagram.contiguous_of_parse {old d : IPv4Datagram} {buffer : Buffer}
    {result : ParseResult} (h : old.parse buffer = (result, d)) : d.payload.Contiguous := by
  have hpayload : ∀ r : ParseResult × IPv4Datagram, r = old.parse buffer →
      r.2.payload.Contiguous := by
    rintro r rfl
    unfold IPv4Datagram.parse
    simp only
    split
    · exact le_rfl
    · exact le_rfl
  exact hpayload _ h.symm

namespace TCPOverIPv4OverTunFdAdapter

/-- What the adapter at this side keeps once it has been given `sent`. -/
structure Keeps (link : Link) (side : Side) (arrives : TCPSegment → Prop)
    (sent : List TCPSegment) (a : TCPOverIPv4OverTunFdAdapter) : Prop where
  holds : link.Holds side a.base
  inbox : ∀ packet ∈ a.tun.file.inbox, link.Packet side arrives packet
  outbox : ∀ packet ∈ a.tun.file.outbox, link.Packet side.other (fun seg => seg ∈ sent) packet
  opened : a.tun.eof = false ∧ a.tun.closed = false

variable {lib : AddressLibrary} {link : Link} {side : Side} {arrives : TCPSegment → Prop}

theorem lawful (hlib : lib.Inverse) (hport : link.port side.other ≠ 0) :
    (tunAdapter lib).Lawful (Keeps link side arrives) arrives where
  read := by
    intro sent a h
    show Yields (read lib) a _ _
    rw [read, onTun, yields_bind, yields_zoom]
    have hsized : ∀ packet ∈ a.tun.file.inbox, packet ≠ [] ∧ packet.length ≤ 1048576 :=
      fun packet hp => ⟨(h.inbox packet hp).some, (h.inbox packet hp).short.trans (by norm_num)⟩
    refine (packetRead_spec a.tun hsized).mono ?_ ?_
    case refine_2 =>
      rintro e tun ⟨rfl, rfl⟩
      exact ⟨Or.inl ⟨_, _, rfl⟩, h⟩
    rintro bytes tun ⟨hinbox, houtbox, hcount, heof, hclosed⟩
    have hpacket : link.Packet side arrives bytes := h.inbox bytes (by rw [hinbox]; simp)
    have hkept : Keeps link side arrives sent { a with tun := tun } := by
      refine ⟨h.holds, fun packet hp => h.inbox packet ?_, ?_, heof.trans h.opened.1,
        hclosed.trans h.opened.2⟩
      · rw [hinbox]
        exact List.mem_cons_of_mem _ hp
      · rw [houtbox]
        exact h.outbox
    cases hparse : IPv4Datagram.parse {} bytes with
    | mk result d =>
        simp only [yields_ite, yields_pure]
        split
        · exact ⟨hkept, hcount, by simp⟩
        · next hok =>
          rw [not_not.mp hok] at hparse
          rw [onBase, yields_zoom]
          refine (Link.unwrap_spec hlib h.holds (IPv4Datagram.contiguous_of_parse hparse)
            (hpacket.arrives d hparse)).mono ?_ fun _ _ hfalse => hfalse.elim
          rintro r base ⟨hholds, hseg⟩
          exact ⟨⟨hholds, hkept.inbox, hkept.outbox, hkept.opened⟩, hcount, hseg⟩
  write := by
    intro sent a seg h hseg
    obtain ⟨wrapped, dgram, bytes, hwrap, hbytes, hlength, hparse⟩ :=
      Link.wrap_spec lib h.holds hport hseg
    have hmore : ∀ packet ∈ a.tun.file.outbox,
        link.Packet side.other (fun seg' => seg' ∈ sent ++ [seg]) packet :=
      fun packet hp => (h.outbox packet hp).mono fun _ hmem => List.mem_append_left _ hmem
    have hnew : link.Packet side.other (fun seg' => seg' ∈ sent ++ [seg]) bytes.concatenate := by
      obtain ⟨d', hd', harrive⟩ := hparse {}
      refine ⟨fun hnil => ?_, hlength, fun d hd => ?_⟩
      · have hempty : (IPv4Datagram.parse {} []).1 ≠ .noError := by decide
        rw [hnil] at hd'
        exact hempty (congrArg Prod.fst hd')
      obtain rfl : d = d' := (Prod.mk.inj (hd.symm.trans hd')).2
      exact harrive.mono fun seg' heq => by
        rw [heq]
        exact List.mem_append_right _ List.mem_cons_self
    show Yields (write lib seg) a _ _
    simp only [write, onBase, onTun, yields_bind, yields_get, yields_zoom, hwrap, hbytes,
      yields_call_ok]
    refine (packetWrite_spec a.tun (.ofBufferList bytes)).mono ?_ ?_
    · rintro - tun ⟨houtbox, hinbox, -, heof, hclosed⟩
      refine ⟨h.holds, ?_, ?_, heof.trans h.opened.1, hclosed.trans h.opened.2⟩
      · rw [hinbox]
        exact h.inbox
      · rw [houtbox]
        intro packet hp
        cases List.mem_append.mp hp with
        | inl hold => exact hmore packet hold
        | inr hlast =>
            rw [List.mem_singleton.mp hlast]
            exact hnew
    · rintro e tun ⟨⟨errno, rfl⟩, houtbox, hinbox, -, heof, hclosed⟩
      refine ⟨Or.inl ⟨_, _, rfl⟩, h.holds, ?_, ?_, heof.trans h.opened.1,
        hclosed.trans h.opened.2⟩
      · rw [hinbox]
        exact h.inbox
      · rw [houtbox]
        exact hmore
  tick := fun sent a ms h => h

theorem staysOpen : (tunAdapter lib).StaysOpen (Keeps link side arrives) :=
  fun _ _ h => h.opened

/-- What happens at a device between the calls. -/
inductive Event where
  /-- the `i`-th packet that the other side has written arrives -/
  | deliver (i : Nat)
  | arrive (packet : Buffer)
  /-- what the kernel is going to answer to the next writes -/
  | refuse (refusals : List (Option Nat))
deriving DecidableEq, Repr

def occur (event : Event) (other a : TCPOverIPv4OverTunFdAdapter) : TCPOverIPv4OverTunFdAdapter :=
  let file := a.tun.file
  let file' : PacketDevice :=
    match event with
    | .deliver i => { file with inbox := file.inbox ++ other.tun.file.outbox[i]?.toList }
    | .arrive packet => { file with inbox := file.inbox ++ [packet] }
    | .refuse refusals => { file with refusals := refusals }
  { a with tun := { a.tun with file := file' } }

/-- The packets that are not delivered come from strangers. -/
def Admitted (link : Link) (side : Side) : Event → Prop
  | .arrive packet => link.Packet side (fun _ => False) packet
  | .deliver _ => True
  | .refuse _ => True

theorem Keeps.occur {arrives' : TCPSegment → Prop} {sent sent' : List TCPSegment} {event : Event}
    {a other : TCPOverIPv4OverTunFdAdapter} (hevent : Admitted link side event)
    (hsent : ∀ seg ∈ sent', arrives seg) (hother : Keeps link side.other arrives' sent' other)
    (h : Keeps link side arrives sent a) :
    Keeps link side arrives sent (TCPOverIPv4OverTunFdAdapter.occur event other a) := by
  cases event with
  | refuse refusals => exact ⟨h.holds, h.inbox, h.outbox, h.opened⟩
  | arrive packet =>
      refine ⟨h.holds, fun p hp => ?_, h.outbox, h.opened⟩
      cases List.mem_append.mp hp with
      | inl hold => exact h.inbox p hold
      | inr hnew =>
          rw [List.mem_singleton.mp hnew]
          exact hevent.mono fun _ => False.elim
  | deliver i =>
      refine ⟨h.holds, fun p hp => ?_, h.outbox, h.opened⟩
      cases List.mem_append.mp hp with
      | inl hold => exact h.inbox p hold
      | inr hnew =>
          have hpacket := hother.outbox p (List.mem_of_getElem? (Option.mem_toList.mp hnew))
          rw [Side.other_other] at hpacket
          exact hpacket.mono hsent

end TCPOverIPv4OverTunFdAdapter

/-- Two TUN devices and what lies between them. -/
def tunMedium (lib : AddressLibrary) (hlib : lib.Inverse) (link : Link)
    (hport : ∀ side, link.port side ≠ 0) : Medium (tunAdapter lib) where
  Event := TCPOverIPv4OverTunFdAdapter.Event
  occur := fun _ => TCPOverIPv4OverTunFdAdapter.occur
  Admitted := TCPOverIPv4OverTunFdAdapter.Admitted link
  inv := TCPOverIPv4OverTunFdAdapter.Keeps link
  lawful := fun side _ => TCPOverIPv4OverTunFdAdapter.lawful hlib (hport side.other)
  mono := fun hmore h =>
    ⟨h.holds, fun packet hp => (h.inbox packet hp).mono hmore, h.outbox, h.opened⟩
  carries := TCPOverIPv4OverTunFdAdapter.Keeps.occur

/-- Sockets over fresh devices. -/
def Link.tunSetup (link : Link) (cfg : Side → TCPConfig) (fd tunFd : Side → Nat) :
    Side → Setup TCPOverIPv4OverTunFdAdapter :=
  link.setup cfg fd fun side => { tun := { fd := tunFd side, file := {} } }

theorem Link.tunSetup_ready (lib : AddressLibrary) (link : Link) (cfg : Side → TCPConfig)
    (fd tunFd : Side → Nat) (side : Side) :
    TCPOverIPv4OverTunFdAdapter.Keeps link side (fun _ => False) []
      ((link.tunSetup cfg fd tunFd side).configured (tunAdapter lib)) := by
  cases hlistens : link.listens side with
  | true =>
      have hconfigured : (link.tunSetup cfg fd tunFd side).configured (tunAdapter lib) =
          { base := { config := { source := .ipv4 0 (link.port side) }, listening := true }
            tun := { fd := tunFd side, file := {} } } := by
        simp [Setup.configured, Link.tunSetup, Link.setup, hlistens, tunAdapter]
      rw [hconfigured]
      exact ⟨Or.inr ⟨rfl, hlistens, 0, rfl⟩, by simp, by simp, rfl, rfl⟩
  | false =>
      have hconfigured : (link.tunSetup cfg fd tunFd side).configured (tunAdapter lib) =
          { base := { config := link.config side }
            tun := { fd := tunFd side, file := {} } } := by
        simp [Setup.configured, Link.tunSetup, Link.setup, hlistens, tunAdapter]
      rw [hconfigured]
      exact ⟨Or.inl ⟨rfl, rfl⟩, by simp, by simp, rfl, rfl⟩

/-- A client on port 1234 of 10.0.0.1, and a server on port 80 of 10.0.0.2. -/
def clientServer : Link where
  numeric
    | .left => 0x0a000001
    | .right => 0x0a000002
  port
    | .left => 1234
    | .right => 80
  listens
    | .left => false
    | .right => true

theorem clientServer_port : ∀ side, clientServer.port side ≠ 0 := by
  intro side
  cases side <;> decide

/-- A turn in which one condition holds: descriptor 5 is the owner's, 6 that of the device. -/
def oneReady {α event : Type} (side : Side) (fd : Nat) (direction : EventLoop.Direction) :
    SocketsOp α event :=
  .turn side { poll := EventLoop.onlyReady fd direction, elapsed := 10 }

/-- The handshake, in which the server's last turn leaves its first loop; a stranger's packet;
two bytes and the end of the stream, whose segments arrive in the wrong order. -/
def twoBytesOverTun : List
    (SocketsOp TCPOverIPv4OverTunFdAdapter TCPOverIPv4OverTunFdAdapter.Event) :=
  [oneReady .left 6 .Out, .carry .right (.arrive [1, 2, 3]), oneReady .right 6 .In,
    .carry .right (.deliver 0), oneReady .right 6 .In, oneReady .right 6 .Out,
    .carry .left (.deliver 0), oneReady .left 6 .In, oneReady .left 6 .Out,
    oneReady .left 6 .Out, .owner .left (.write [104, 105]), .owner .left .shutdownWrite,
    oneReady .left 5 .In, oneReady .left 5 .In, oneReady .left 6 .Out,
    .carry .right (.deliver 3), oneReady .right 6 .In, .carry .right (.deliver 1),
    oneReady .right 6 .In, .carry .right (.deliver 2), oneReady .right 6 .In,
    oneReady .right 6 .In, oneReady .right 5 .Out]

theorem twoBytesOverTun_undisturbed (sys : Sockets TCPOverIPv4OverTunFdAdapter) :
    Run.Admitted
      (Sockets.step (tunMedium .dottedQuad AddressLibrary.dottedQuad_inverse clientServer
        clientServer_port))
      (Sockets.Undisturbed (tunMedium .dottedQuad AddressLibrary.dottedQuad_inverse clientServer
        clientServer_port)) sys twoBytesOverTun := by
  have hturn : ∀ side fd direction, Sockets.Undisturbed
      (tunMedium .dottedQuad AddressLibrary.dottedQuad_inverse clientServer clientServer_port)
      sys (oneReady side fd direction) := fun _ fd direction =>
    ⟨TCPSpongeSocket.steady_onlyReady fd direction, rfl⟩
  have hshort : (IPv4Datagram.parse {} [1, 2, 3]).1 ≠ .noError := by decide +kernel
  have hstranger : clientServer.Packet .right (fun _ => False) [1, 2, 3] :=
    ⟨by decide, by decide, fun d hd => absurd (congrArg Prod.fst hd) hshort⟩
  exact ⟨hturn .left 6 .Out, hstranger, hturn .right 6 .In, trivial, hturn .right 6 .In,
    hturn .right 6 .Out, trivial, hturn .left 6 .In, hturn .left 6 .Out, hturn .left 6 .Out,
    trivial, trivial, hturn .left 5 .In, hturn .left 5 .In, hturn .left 6 .Out, trivial,
    hturn .right 6 .In, trivial, hturn .right 6 .In, trivial, hturn .right 6 .In,
    hturn .right 6 .In, hturn .right 5 .Out, trivial⟩

/-- A turn in which a signal interrupts `poll`. -/
def interrupted {α event : Type} (side : Side) : SocketsOp α event :=
  .turn side { poll := fun _ _ => .fails EventLoop.eintr }

/-- Two signals end the client's loops, and its owner reads to an end that the server's owner has
not made. -/
example :
    let sys := Run.exec (Sockets.step (tunMedium .dottedQuad AddressLibrary.dottedQuad_inverse
        clientServer clientServer_port))
      (Sockets.start (tunAdapter .dottedQuad)
        (clientServer.tunSetup (fun _ => { isn := ⟨7⟩ }) (fun _ => 5) (fun _ => 6)))
      [interrupted .left, interrupted .left]
    (sys.pipe .left).outboundEnd = true ∧ (sys.pipe .right).inboundEnd = false ∧
      (sys.thread .left).LeftEarly :=
  ⟨by decide +kernel, by decide +kernel, by decide +kernel, Or.inl (by decide +kernel)⟩

/-- **No failure of its own.**  The thread of a socket, and `connect` and `listen_and_accept`
before it, throw only what a failed system call throws, or what the loop throws when `poll`
reports an error, and are killed only by a write to an owner who reads no more: the connection
takes all that was read for it, no callback is serviced in vain, and neither a packet of the
other side nor a stranger's makes the adapter throw. -/
theorem sockets_over_tun_fail_with_system {lib : AddressLibrary} (hlib : lib.Inverse)
    {link : Link} (hport : ∀ side, link.port side ≠ 0) {cfg : Side → TCPConfig}
    {fd tunFd : Side → Nat} {sys : Sockets TCPOverIPv4OverTunFdAdapter}
    (hr : Sockets.Reached (tunMedium lib hlib link hport) (link.tunSetup cfg fd tunFd) sys)
    (side : Side) (ex : Exception) (hfailed : (sys.thread side).phase = .failed ex) :
    ((∃ attempt errno, ex = .unix attempt errno) ∨
      ex = .runtime ⟨"EventLoop: error on polled file descriptor"⟩) ∨
      ex = .killed sigpipe ∧
        ((sys.pipe side).outboundEnd = true ∨ (sys.pipe side).ownerGone = true) := by
  obtain ⟨net, -, hmatched, -⟩ :=
    Sockets.refines_network (link.tunSetup_ready lib cfg fd tunFd) hr
  exact hmatched.fails_with_system side hfailed

/-- The client has left its socket when the two bytes of the server come. -/
def leftOverTun : List
    (SocketsOp TCPOverIPv4OverTunFdAdapter TCPOverIPv4OverTunFdAdapter.Event) :=
  [oneReady .left 6 .Out, .carry .right (.deliver 0), oneReady .right 6 .In,
    oneReady .right 6 .Out, .carry .left (.deliver 0), oneReady .left 6 .In,
    oneReady .left 6 .Out, oneReady .left 6 .Out, .carry .right (.deliver 1),
    oneReady .right 6 .In, oneReady .right 6 .In, .owner .right (.write [104, 105]),
    oneReady .right 5 .In, oneReady .right 6 .Out, .owner .left .leave,
    .carry .left (.deliver 1), oneReady .left 6 .In, oneReady .left 5 .Out]

theorem leftOverTun_admitted (sys : Sockets TCPOverIPv4OverTunFdAdapter) :
    Run.Admitted
      (Sockets.step (tunMedium .dottedQuad AddressLibrary.dottedQuad_inverse clientServer
        clientServer_port))
      (Sockets.Admitted (tunMedium .dottedQuad AddressLibrary.dottedQuad_inverse clientServer
        clientServer_port)) sys leftOverTun := by
  have hturn : ∀ side fd direction, Sockets.Admitted
      (tunMedium .dottedQuad AddressLibrary.dottedQuad_inverse clientServer clientServer_port)
      sys (oneReady side fd direction) := fun _ fd direction =>
    (TCPSpongeSocket.steady_onlyReady fd direction).honest
  exact ⟨hturn .left 6 .Out, trivial, hturn .right 6 .In, hturn .right 6 .Out, trivial,
    hturn .left 6 .In, hturn .left 6 .Out, hturn .left 6 .Out, trivial, hturn .right 6 .In,
    hturn .right 6 .In, trivial, hturn .right 5 .In, hturn .right 6 .Out, trivial, trivial,
    hturn .left 6 .In, hturn .left 5 .Out, trivial⟩

/-- The client's process is killed by the write. -/
theorem sockets_over_tun_fail_with_system_left :
    ∃ sys : Sockets TCPOverIPv4OverTunFdAdapter,
      (sys.thread .left).phase = .failed (.killed sigpipe) ∧
      ((sys.pipe .left).outboundEnd = true ∨ (sys.pipe .left).ownerGone = true) := by
  generalize hrun : Run.exec (Sockets.step (tunMedium .dottedQuad
    AddressLibrary.dottedQuad_inverse clientServer clientServer_port))
    (Sockets.start (tunAdapter .dottedQuad)
      (clientServer.tunSetup (fun _ => { isn := ⟨7⟩ }) (fun _ => 5) (fun _ => 6)))
    leftOverTun = sys
  have hphase : (sys.thread .left).phase = .failed (.killed sigpipe) := by
    rw [← hrun]
    decide +kernel
  refine ⟨sys, hphase, ?_⟩
  rcases sockets_over_tun_fail_with_system AddressLibrary.dottedQuad_inverse clientServer_port
    (hrun ▸ Run.Reach.exec .start (leftOverTun_admitted _)) .left _ hphase with
    (⟨attempt, errno, hno⟩ | hno) | ⟨-, hunread⟩
  · cases hno
  · cases hno
  · exact hunread

end Sponge

import Sponge.Socket.Finish
import Sponge.Socket.Tun
import Sponge.Socket.Udp

/-!
# Random loss

Over any medium an adapter that drops at random is one more way to lose segments: what the
adapter below has been given is part of what was sent.  With it come two sockets over UDP,
whose adapters drop what they like.
-/

namespace Sponge

open Program

/-- What happens below, and what the generator is going to draw. -/
inductive LossyEvent (event : Type) where
  | below (event : event)
  | draw (rand : List UInt16)
deriving DecidableEq, Repr

namespace LossyFdAdapter

variable {α : Type} {adapt : DatagramAdapter α} {inv : List TCPSegment → α → Prop}
  {arrives : TCPSegment → Prop}

/-- The adapter below has been given some of what was sent. -/
def Keeps (inv : List TCPSegment → α → Prop) (sent : List TCPSegment) (a : LossyFdAdapter α) :
    Prop :=
  ∃ given, (∀ seg ∈ given, seg ∈ sent) ∧ inv given a.adapter

theorem Keeps.mono {inv' : List TCPSegment → α → Prop} {sent sent' : List TCPSegment}
    {a : LossyFdAdapter α} (h : Keeps inv sent a) (hsent : ∀ seg ∈ sent, seg ∈ sent')
    (hinv : ∀ given, inv given a.adapter → inv' given a.adapter) : Keeps inv' sent' a := by
  obtain ⟨given, hgiven, ha⟩ := h
  exact ⟨given, fun seg hseg => hsent seg (hgiven seg hseg), hinv given ha⟩

/-- Drawing a number touches nothing else. -/
theorem shouldDrop_spec (uplink : Bool) (a : LossyFdAdapter α)
    {ε : Exception → LossyFdAdapter α → Prop} :
    Yields (shouldDrop uplink) a (fun _ a' => a'.adapter = a.adapter) ε := by
  rw [shouldDrop, yields_bind, yields_get]
  simp only [yields_ite, yields_pure, yields_bind, yields_set, ite_self]

theorem staysOpen (hopen : adapt.StaysOpen inv) : (lossyAdapter adapt).StaysOpen (Keeps inv) := by
  rintro sent a ⟨given, -, ha⟩
  exact hopen given a.adapter ha

theorem lawful (law : adapt.Lawful inv arrives) :
    (lossyAdapter adapt).Lawful (Keeps inv) arrives where
  read := by
    rintro sent a ⟨given, hgiven, ha⟩
    show Yields (read adapt) a _ _
    rw [read, onAdapter, yields_bind, yields_zoom]
    refine (law.read given a.adapter ha).mono ?_ ?_
    · rintro r adapter ⟨hinv, hcount, hseg⟩
      rw [yields_bind]
      refine (shouldDrop_spec false _).mono ?_ fun _ _ he => he
      rintro drop a' hsame
      have hkept : Keeps inv sent a' := ⟨given, hgiven, by rw [hsame]; exact hinv⟩
      have hread : (adapt.fd a'.adapter).readCount = (adapt.fd a.adapter).readCount + 1 := by
        rw [hsame]
        exact hcount
      simp only [yields_ite, yields_pure]
      split
      · exact ⟨hkept, hread, by simp⟩
      · exact ⟨hkept, hread, hseg⟩
    · rintro e adapter ⟨he, hinv⟩
      exact ⟨he, given, hgiven, hinv⟩
  write := by
    rintro sent a seg ⟨given, hgiven, ha⟩ hseg
    show Yields (write adapt seg) a _ _
    rw [write, yields_bind]
    refine (shouldDrop_spec true a).mono ?_ fun _ _ he => he
    rintro drop a' hsame
    rw [← hsame] at ha
    have hold : ∀ seg' ∈ given, seg' ∈ sent ++ [seg] :=
      fun seg' hmem => List.mem_append_left _ (hgiven seg' hmem)
    have hnew : ∀ seg' ∈ given ++ [seg], seg' ∈ sent ++ [seg] := by
      intro seg' hmem
      cases List.mem_append.mp hmem with
      | inl hbefore => exact hold seg' hbefore
      | inr hlast => exact List.mem_append_right _ hlast
    simp only [yields_ite, yields_pure, onAdapter, yields_zoom]
    split
    · exact ⟨given, hold, ha⟩
    · refine (law.write given a'.adapter seg ha hseg).mono ?_ ?_
      · exact fun _ adapter hinv => ⟨given ++ [seg], hnew, hinv⟩
      · rintro e adapter ⟨he, hinv⟩
        exact ⟨he, given ++ [seg], hnew, hinv⟩
  tick := by
    rintro sent a ms ⟨given, hgiven, ha⟩
    show Yields (onAdapter (adapt.tick ms)) a _ _
    rw [onAdapter, yields_zoom]
    refine (law.tick given a.adapter ms ha).mono ?_ ?_
    · exact fun _ adapter hinv => ⟨given, hgiven, hinv⟩
    · rintro e adapter ⟨he, hinv⟩
      exact ⟨he, given, hgiven, hinv⟩

end LossyFdAdapter

/-- The medium with an adapter at each side that drops at random. -/
def Medium.lossy {α : Type} {adapt : DatagramAdapter α} (medium : Medium adapt) :
    Medium (lossyAdapter adapt) where
  Event := LossyEvent medium.Event
  occur := fun side event other a =>
    match event with
    | .below event => { a with adapter := medium.occur side event other.adapter a.adapter }
    | .draw rand => { a with rand := rand }
  Admitted := fun side event =>
    match event with
    | .below event => medium.Admitted side event
    | .draw _ => True
  inv := fun side arrives => LossyFdAdapter.Keeps (medium.inv side arrives)
  lawful := fun side arrives => LossyFdAdapter.lawful (medium.lawful side arrives)
  mono := fun hmore h => h.mono (fun _ hseg => hseg) fun _ ha => medium.mono hmore ha
  carries := by
    rintro side event arrives arrives' sent sent' a other hevent hsent ⟨given', hgiven', hother⟩
      ⟨given, hgiven, ha⟩
    cases event with
    | below event =>
        exact ⟨given, hgiven, medium.carries hevent
          (fun seg hseg => hsent seg (hgiven' seg hseg)) hother ha⟩
    | draw rand => exact ⟨given, hgiven, ha⟩

/-- Two UDP sockets and what lies between them. -/
def udpMedium (lib : AddressLibrary) (link : Link) : Medium (udpAdapter lib) where
  Event := TCPOverUDPSocketAdapter.Event
  occur := TCPOverUDPSocketAdapter.occur link
  Admitted := TCPOverUDPSocketAdapter.Admitted link
  inv := TCPOverUDPSocketAdapter.Keeps link
  lawful := fun _ _ => TCPOverUDPSocketAdapter.lawful
  mono := fun hmore h =>
    ⟨h.source, h.destination, fun datagram hd => (h.inbox datagram hd).mono hmore, h.outbox,
      h.opened⟩
  carries := TCPOverUDPSocketAdapter.Keeps.occur

/-- Sockets over fresh UDP sockets, with these loss rates. -/
def Link.lossySetup (link : Link) (cfg : Side → TCPConfig) (fd sockFd : Side → Nat)
    (lossRateDn lossRateUp : Side → UInt16) :
    Side → Setup (LossyFdAdapter TCPOverUDPSocketAdapter) :=
  link.setup cfg fd fun side =>
    { adapter := { sock := { fd := sockFd side, file := {} } }
      lossRateDn := lossRateDn side
      lossRateUp := lossRateUp side }

theorem Link.lossySetup_ready (lib : AddressLibrary) (link : Link) (cfg : Side → TCPConfig)
    (fd sockFd : Side → Nat) (lossRateDn lossRateUp : Side → UInt16) (side : Side) :
    (udpMedium lib link).lossy.inv side (fun _ => False) []
      ((link.lossySetup cfg fd sockFd lossRateDn lossRateUp side).configured
        (lossyAdapter (udpAdapter lib))) := by
  refine ⟨[], by simp, ?_⟩
  cases hlistens : link.listens side with
  | true =>
      have hconfigured : ((link.lossySetup cfg fd sockFd lossRateDn lossRateUp side).configured
          (lossyAdapter (udpAdapter lib))).adapter =
          { config := { source := .ipv4 0 (link.port side) }, listening := true
            sock := { fd := sockFd side, file := {} } } := by
        simp [Setup.configured, Link.lossySetup, Link.setup, hlistens, lossyAdapter, udpAdapter]
      rw [hconfigured]
      exact ⟨⟨0, rfl⟩, Or.inr ⟨rfl, hlistens, rfl⟩, by simp, by simp, rfl, rfl⟩
  | false =>
      have hconfigured : ((link.lossySetup cfg fd sockFd lossRateDn lossRateUp side).configured
          (lossyAdapter (udpAdapter lib))).adapter =
          { config := link.config side, sock := { fd := sockFd side, file := {} } } := by
        simp [Setup.configured, Link.lossySetup, Link.setup, hlistens, lossyAdapter, udpAdapter]
      rw [hconfigured]
      exact ⟨⟨_, rfl⟩, Or.inl ⟨rfl, rfl⟩, by simp, by simp, rfl, rfl⟩

theorem udpMedium_lossy_staysOpen (lib : AddressLibrary) (link : Link) (side : Side)
    (arrives : TCPSegment → Prop) :
    (lossyAdapter (udpAdapter lib)).StaysOpen ((udpMedium lib link).lossy.inv side arrives) :=
  LossyFdAdapter.staysOpen TCPOverUDPSocketAdapter.staysOpen

/-- The client's first segment arrives twice, and the server's adapter drops it once; then come
the handshake, two bytes and the end of the stream. -/
def twoBytesWithLoss : List (SocketsOp (LossyFdAdapter TCPOverUDPSocketAdapter)
    (LossyEvent TCPOverUDPSocketAdapter.Event)) :=
  [oneReady .left 6 .Out, .carry .right (.draw [0, 9, 9, 9, 9, 9]),
    .carry .right (.below (.deliver 0)), oneReady .right 6 .In,
    .carry .right (.below (.deliver 0)), oneReady .right 6 .In, oneReady .right 6 .Out,
    .carry .left (.below (.deliver 0)), oneReady .left 6 .In, oneReady .left 6 .Out,
    oneReady .left 6 .Out, .owner .left (.write [104, 105]), .owner .left .shutdownWrite,
    oneReady .left 5 .In, oneReady .left 5 .In, oneReady .left 6 .Out,
    .carry .right (.below (.deliver 3)), oneReady .right 6 .In,
    .carry .right (.below (.deliver 1)), oneReady .right 6 .In,
    .carry .right (.below (.deliver 2)), oneReady .right 6 .In, oneReady .right 6 .In,
    oneReady .right 5 .Out]

theorem twoBytesWithLoss_undisturbed (sys : Sockets (LossyFdAdapter TCPOverUDPSocketAdapter)) :
    Run.Admitted (Sockets.step (udpMedium .dottedQuad clientServer).lossy)
      (Sockets.Undisturbed (udpMedium .dottedQuad clientServer).lossy) sys twoBytesWithLoss := by
  have hturn : ∀ side fd direction, Sockets.Undisturbed
      (udpMedium .dottedQuad clientServer).lossy sys (oneReady side fd direction) :=
    fun _ fd direction => ⟨TCPSpongeSocket.steady_onlyReady fd direction, rfl⟩
  exact ⟨hturn .left 6 .Out, trivial, trivial, hturn .right 6 .In, trivial, hturn .right 6 .In,
    hturn .right 6 .Out, trivial, hturn .left 6 .In, hturn .left 6 .Out, hturn .left 6 .Out,
    trivial, trivial, hturn .left 5 .In, hturn .left 5 .In, hturn .left 6 .Out, trivial,
    hturn .right 6 .In, trivial, hturn .right 6 .In, trivial, hturn .right 6 .In,
    hturn .right 6 .In, hturn .right 5 .Out, trivial⟩

/-- The server's owner answers with a byte and the end of its stream; once both have been
acknowledged, the server's thread finds nothing more to do. -/
def answeredWithLoss : List (SocketsOp (LossyFdAdapter TCPOverUDPSocketAdapter)
    (LossyEvent TCPOverUDPSocketAdapter.Event)) :=
  twoBytesWithLoss ++
    [.owner .right (.write [79]), .owner .right .shutdownWrite, oneReady .right 5 .In,
      oneReady .right 5 .In, oneReady .right 6 .Out, .carry .left (.below (.deliver 3)),
      oneReady .left 6 .In, .carry .left (.below (.deliver 4)), oneReady .left 6 .In,
      oneReady .left 6 .Out, .carry .right (.draw [9]), .carry .right (.below (.deliver 5)),
      oneReady .right 6 .In, oneReady .right 6 .In]

theorem answeredWithLoss_undisturbed (sys : Sockets (LossyFdAdapter TCPOverUDPSocketAdapter)) :
    Run.Admitted (Sockets.step (udpMedium .dottedQuad clientServer).lossy)
      (Sockets.Undisturbed (udpMedium .dottedQuad clientServer).lossy) sys answeredWithLoss := by
  have hturn : ∀ side fd direction, Sockets.Undisturbed
      (udpMedium .dottedQuad clientServer).lossy sys (oneReady side fd direction) :=
    fun _ fd direction => ⟨TCPSpongeSocket.steady_onlyReady fd direction, rfl⟩
  exact ⟨hturn .left 6 .Out, trivial, trivial, hturn .right 6 .In, trivial, hturn .right 6 .In,
    hturn .right 6 .Out, trivial, hturn .left 6 .In, hturn .left 6 .Out, hturn .left 6 .Out,
    trivial, trivial, hturn .left 5 .In, hturn .left 5 .In, hturn .left 6 .Out, trivial,
    hturn .right 6 .In, trivial, hturn .right 6 .In, trivial, hturn .right 6 .In,
    hturn .right 6 .In, hturn .right 5 .Out, trivial, trivial, hturn .right 5 .In,
    hturn .right 5 .In, hturn .right 6 .Out, trivial, hturn .left 6 .In, trivial,
    hturn .left 6 .In, hturn .left 6 .Out, trivial, trivial, hturn .right 6 .In,
    hturn .right 6 .In, trivial⟩

end Sponge

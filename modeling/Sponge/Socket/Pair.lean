import Sponge.Adapter.Link
import Sponge.Socket.Thread

/-!
# Two sockets

Two sockets whose adapters are joined by a medium, with an owner at each: in any order the
threads take their turns, the owners write, shut down and leave, and the medium carries
packets.  Such a run is a run of two connections and the network between them, so that
what holds for the connections holds for the owners.
-/

namespace Sponge

open TCPSpongeSocket

/-- How packets get from one adapter to the other.  `inv` is what it is known to keep of an
adapter that has been given `sent`, while segments arrive from the other side. -/
structure Medium {α : Type} (adapt : DatagramAdapter α) where
  Event : Type
  /-- an event changes the adapter at this side; the other side's adapter comes first -/
  occur : Side → Event → α → α → α
  Admitted : Side → Event → Prop
  inv : Side → (TCPSegment → Prop) → List TCPSegment → α → Prop
  lawful : ∀ side arrives, adapt.Lawful (inv side arrives) arrives
  mono : ∀ {side arrives arrives' sent a}, (∀ seg, arrives seg → arrives' seg) →
    inv side arrives sent a → inv side arrives' sent a
  carries : ∀ {side : Side} {event arrives arrives' sent sent' a other}, Admitted side event →
    (∀ seg ∈ sent', arrives seg) → inv side.other arrives' sent' other →
    inv side arrives sent a → inv side arrives sent (occur side event other a)

/-! ## Opening a socket -/

inductive Opening where
  | connect
  | listen
deriving DecidableEq, Repr

/-- What a socket is opened with. -/
structure Setup (α : Type) where
  opening : Opening
  cfg : TCPConfig
  cad : FdAdapterConfig
  /-- the number of the thread's descriptor -/
  fd : Nat
  adapter : α

/-- A socket at one end of a link; one that listens does so on its port. -/
def Link.setup {α : Type} (link : Link) (cfg : Side → TCPConfig) (fd : Side → Nat)
    (adapter : Side → α) (side : Side) : Setup α where
  opening := if link.listens side then .listen else .connect
  cfg := cfg side
  cad := if link.listens side then { source := .ipv4 0 (link.port side) } else link.config side
  fd := fd side
  adapter := adapter side

namespace Setup

variable {α : Type} (adapt : DatagramAdapter α) (setup : Setup α)

def socket : TCPSpongeSocket α :=
  .initializeTCP setup.cfg { fd := setup.fd, file := {} } setup.adapter

def thread : TCPThread α :=
  match setup.opening with
  | .connect => .connect adapt setup.cad setup.socket
  | .listen => .listenAndAccept adapt setup.cad setup.socket

/-- The adapter once it has been configured. -/
def configured : α :=
  match setup.opening with
  | .connect => adapt.setConfig setup.cad setup.adapter
  | .listen => adapt.setListening true (adapt.setConfig setup.cad setup.adapter)

/-- The endpoint that `connect` or `listen_and_accept` leaves. -/
def endpoint : Endpoint :=
  match setup.opening with
  | .connect => (Endpoint.start setup.cfg).step .connect
  | .listen => Endpoint.start setup.cfg

variable {adapt setup}

/-- `connect` finds its connection in the state it expects. -/
theorem run_connect (adapt : DatagramAdapter α) (setup : Setup α) :
    (TCPSpongeSocket.connect adapt setup.cad).run setup.socket = .ok ()
      { setup.socket with
        datagramAdapter := adapt.setConfig setup.cad setup.adapter
        tcp := (TCPConnection.new setup.cfg).connect } := by
  have hstate : setup.socket.tcp.connect.state = expectedState :=
    TCPConnection.connect_state setup.cfg
  have hno : ¬setup.socket.tcp.connect.state ≠ expectedState := not_not.mpr hstate
  have htest : ∀ m : EStateM Exception (TCPSpongeSocket α) Unit,
      (if setup.socket.tcp.connect.state ≠ expectedState then m else pure ()) = pure () :=
    fun m => if_neg hno
  have hrun : ∀ m : TCPState → EStateM Exception (TCPSpongeSocket α) Unit,
      (do
        modify fun s : TCPSpongeSocket α =>
          { s with datagramAdapter := adapt.setConfig setup.cad s.datagramAdapter }
        onTcp TCPConnection.connect
        let state := (← get).tcp.state
        if state ≠ expectedState then m state else pure ()).run setup.socket =
      (if setup.socket.tcp.connect.state ≠ expectedState then
        m setup.socket.tcp.connect.state else pure ()).run
          { setup.socket with
            datagramAdapter := adapt.setConfig setup.cad setup.adapter
            tcp := (TCPConnection.new setup.cfg).connect } := fun _ => rfl
  refine (hrun fun state => throw (.runtime ⟨"After TCPConnection::connect(), state was " ++
    state.name ++ " but expected " ++ expectedState.name⟩)).trans ?_
  rw [htest]
  rfl

/-- The phase that the thread is in once the socket is open. -/
def phase (setup : Setup α) : Phase :=
  match setup.opening with
  | .connect => .connecting
  | .listen => .accepting

theorem thread_eq (adapt : DatagramAdapter α) (setup : Setup α) :
    setup.thread adapt = ⟨{ setup.socket with
      datagramAdapter := setup.configured adapt
      tcp := setup.endpoint.connection }, rules adapt, setup.phase⟩ := by
  unfold thread configured endpoint phase
  cases setup.opening with
  | connect =>
      simp only
      rw [TCPThread.connect, run_connect]
      rfl
  | listen => rfl

/-- An open socket is served by its endpoint. -/
theorem backed {inv : List TCPSegment → α → Prop} {arrives : TCPSegment → Prop}
    (hready : inv [] (setup.configured adapt)) :
    TCPThread.Backed adapt inv arrives ((setup.thread adapt).now setup.endpoint)
      (setup.thread adapt) setup.endpoint := by
  rw [thread_eq]
  have halive : ∀ ex, setup.phase ≠ .failed ex := by
    unfold phase
    cases setup.opening <;> simp
  have hleft : setup.phase.left = false := by
    unfold phase
    cases setup.opening <;> rfl
  have hstart : setup.endpoint.accepted = [] ∧ setup.endpoint.taken = [] ∧
      setup.endpoint.ended = false := by
    unfold endpoint
    cases setup.opening <;> exact ⟨rfl, rfl, rfl⟩
  refine ⟨⟨[], [], ?_, by simp, fun _ => rfl⟩, ⟨ruleNames, rules_eq adapt, List.Sublist.refl _⟩,
    fun ex hex => absurd hex (halive ex)⟩
  exact {
    reach := .start
    tracks := ⟨rfl, hstart.1, hstart.2.1, hstart.2.2⟩
    adapter := hready
    opened := rfl
    drained := by simp [socket, initializeTCP]
    written := rfl
    shut := hleft.symm
    closing := Or.inl }

theorem reached (setup : Setup α) {arrives : TCPSegment → Prop} :
    Run.Reach Endpoint.step (Endpoint.Arriving arrives) (Endpoint.start setup.cfg)
      setup.endpoint := by
  unfold endpoint
  cases setup.opening with
  | connect => exact .next ConnectionOp.connect .start ⟨trivial, fun seg heq => by cases heq⟩
  | listen => exact .start

end Setup

/-! ## The system -/

/-- Two sockets, and all that their owners have written. -/
structure Sockets (α : Type) where
  thread : Side → TCPThread α
  written : Side → List Byte

inductive SocketsOp (α event : Type) where
  | turn (side : Side) (turn : Turn α)
  | owner (side : Side) (op : OwnerOp)
  | carry (side : Side) (event : event)

namespace Sockets

variable {α : Type} {adapt : DatagramAdapter α} (medium : Medium adapt)

def start (adapt : DatagramAdapter α) (setup : Side → Setup α) : Sockets α where
  thread := fun side => (setup side).thread adapt
  written := fun _ => []

def step (sys : Sockets α) : SocketsOp α medium.Event → Sockets α
  | .turn side turn =>
      { sys with thread := Function.update sys.thread side ((sys.thread side).turn adapt turn) }
  | .owner side op =>
      { thread := Function.update sys.thread side ((sys.thread side).owner op)
        written := Function.update sys.written side
          (sys.written side ++ TCPThread.supplied (sys.thread side).socket.threadData.file op) }
  | .carry side event =>
      let mine := (sys.thread side).socket.datagramAdapter
      let other := (sys.thread side.other).socket.datagramAdapter
      { sys with
        thread := Function.update sys.thread side
          ((sys.thread side).carry (medium.occur side event other mine)) }

/-- The owners may do anything; `poll` is honest about hangups, and the medium carries what it
may. -/
def Admitted (_ : Sockets α) : SocketsOp α medium.Event → Prop
  | .turn _ turn => Honest turn.poll
  | .owner _ _ => True
  | .carry side event => medium.Admitted side event

/-- The states of the system once its sockets have been opened. -/
abbrev Reached (setup : Side → Setup α) (sys : Sockets α) : Prop :=
  Run.Reach (step medium) (Admitted medium) (start adapt setup) sys

/-- The thread's end of the pair at this side. -/
def pipe (sys : Sockets α) (side : Side) : StreamEnd :=
  (sys.thread side).socket.threadData.file

/-- The network `net` is what has become of the connections. -/
structure Matched (medium : Medium adapt) (net : Network) (sys : Sockets α) : Prop where
  backed : ∀ side, TCPThread.Backed adapt
    (medium.inv side (fun seg => seg ∈ (net.endpoint side.other).connection.segmentsOut))
    (fun seg => seg ∈ (net.endpoint side.other).connection.segmentsOut)
    ((sys.thread side).now (net.endpoint side)) (sys.thread side) (net.endpoint side)
  written : ∀ side, (sys.pipe side).consumed ++ (sys.pipe side).inbound = sys.written side

section Refinement

variable {medium : Medium adapt} {net : Network} {sys : Sockets α} {setup : Side → Setup α}

/-- Where rule 3 has shut down the owner's stream, it has been delivered. -/
def Shut (sys : Sockets α) (net : Network) : Prop :=
  net.Short → ∀ side, (sys.thread side).socket.inboundShutdown = true → net.Delivered side

/-- Buffers of some size that sequence numbers can tell apart. -/
def Capacities (cfg : Side → TCPConfig) : Prop :=
  ∀ side, 1 ≤ (cfg side).recvCapacity ∧ (cfg side).recvCapacity < 2 ^ 62

/-- At the start. -/
theorem exists_start (hready : ∀ side, medium.inv side (fun _ => False) []
    ((setup side).configured adapt)) :
    ∃ net, Network.Reached (fun side => (setup side).cfg) net ∧
      Matched medium net (start adapt setup) ∧ (start adapt setup).Shut net := by
  have hopen : ∀ side, ∀ net₀ : Network, Network.Reached (fun side => (setup side).cfg) net₀ →
      net₀.endpoint side = Endpoint.start (setup side).cfg →
      ∃ net, Network.Reached (fun side => (setup side).cfg) net ∧
        net.endpoint side = (setup side).endpoint ∧
        net.endpoint side.other = net₀.endpoint side.other := by
    intro side net₀ hr hstart
    have hreach : Run.Reach Endpoint.step (Endpoint.Arriving fun _ => False)
        (net₀.endpoint side) (setup side).endpoint := hstart ▸ (setup side).reached
    obtain ⟨net, hnet, hmine, hother⟩ := Network.reach_of_side hreach (by simp)
    exact ⟨net, hr.trans hnet, hmine, hother⟩
  obtain ⟨net₁, hreach₁, hleft, hright⟩ := hopen .left _ .start rfl
  obtain ⟨net, hreach, hright', hleft'⟩ := hopen .right net₁ hreach₁ hright
  have hends : ∀ side, net.endpoint side = (setup side).endpoint := by
    intro side
    cases side with
    | left => exact hleft'.trans hleft
    | right => exact hright'
  refine ⟨net, hreach, ⟨fun side => ?_, fun side => ?_⟩, fun _ side hend => ?_⟩
  · rw [hends side]
    exact Setup.backed (medium.mono (fun _ => False.elim) (hready side))
  · have hthread : (start adapt setup).pipe side =
        ((setup side).thread adapt).socket.threadData.file := rfl
    rw [hthread, Setup.thread_eq]
    rfl
  · have hthread : (start adapt setup).thread side = (setup side).thread adapt := rfl
    rw [hthread, Setup.thread_eq] at hend
    exact absurd hend (by simp [Setup.socket, initializeTCP])

/-- A turn at one side. -/
theorem Matched.turn {cfg : Side → TCPConfig} (hr : Network.Reached cfg net)
    (h : Matched medium net sys) {side : Side} {turn : Turn α} (hpoll : Honest turn.poll) :
    ∃ net', Network.Reached cfg net' ∧ Matched medium net' (sys.step medium (.turn side turn)) ∧
      (Capacities cfg → sys.Shut net → (sys.step medium (.turn side turn)).Shut net') := by
  have hsound := hr.sound
  obtain ⟨e', hbacked⟩ := (h.backed side).turn (medium.lawful side _) (hsound side) hpoll
  obtain ⟨sent, out, hserved, -⟩ := hbacked.served
  obtain ⟨net', hrun, hmine, hother⟩ := Network.reach_of_side hserved.reach fun _ hseg => hseg
  have hr' : Network.Reached cfg net' := hr.trans hrun
  have hpipe : (sys.step medium (.turn side turn)).pipe side.other = sys.pipe side.other := by
    simp [pipe, step, Side.other_ne]
  have hthread : (sys.step medium (.turn side turn)).thread side =
      (sys.thread side).turn adapt turn := by
    simp [step]
  have hthread' : (sys.step medium (.turn side turn)).thread side.other =
      sys.thread side.other := by
    simp [step, Side.other_ne]
  refine ⟨net', hr', ⟨fun there => ?_, fun there => ?_⟩, fun hcfg hshut hshort there hend => ?_⟩
  · cases side.eq_or_eq_other there with
    | inl hhere =>
        subst hhere
        rw [hmine, hother, hthread]
        exact hbacked.restart fun _ ha => ha
    | inr hthere =>
        subst hthere
        have hold := h.backed side.other
        rw [Side.other_other] at hold ⊢
        rw [hmine, hother, hthread']
        have hgrow : ∀ seg, seg ∈ (net.endpoint side).connection.segmentsOut →
            seg ∈ e'.connection.segmentsOut :=
          fun seg hseg => (hsound side).emitted_of_reach hserved.reach hseg
        exact hold.restart fun _ ha => medium.mono hgrow ha
  · cases side.eq_or_eq_other there with
    | inl hhere =>
        subst hhere
        have hkept := hserved.written
        show ((sys.step medium (.turn there turn)).thread there).socket.threadData.file.consumed ++
          ((sys.step medium (.turn there turn)).thread there).socket.threadData.file.inbound = _
        rw [hthread]
        exact hkept.trans (h.written there)
    | inr hthere =>
        subst hthere
        rw [hpipe]
        exact h.written side.other
  · -- rule 3 has shut down the owner's stream before, or in this turn
    have hjoined : ∀ net₁, Network.Reached cfg net₁ → net₁.Short → net₁.Joined :=
      fun net₁ hr₁ hs₁ => hr₁.joined hcfg hs₁
    have hbefore : (sys.thread there).socket.inboundShutdown = true → net'.Delivered there := by
      intro hold
      have hs := Network.short_of_reach hrun hshort
      exact (Network.delivered_of_reach hrun (hjoined net hr hs) hshort (hshut hs there hold)).2
    cases side.eq_or_eq_other there with
    | inr hthere =>
        subst hthere
        rw [hthread'] at hend
        exact hbefore hend
    | inl hhere =>
        subst hhere
        rw [hthread] at hend
        rcases hserved.closing hend with hold | ⟨e₁, hfirst, hlast, hover⟩
        · exact hbefore hold
        obtain ⟨net₁, hrun₁, rfl, hother₁⟩ := Network.reach_of_side hfirst fun _ hseg => hseg
        have harrives : ∀ seg, seg ∈ (net.endpoint there.other).connection.segmentsOut →
            seg ∈ (net₁.endpoint there.other).connection.segmentsOut := by
          rw [hother₁]
          exact fun _ hseg => hseg
        obtain ⟨net₂, hrun₂, hmine₂, hother₂⟩ := Network.reach_of_side hlast harrives
        -- the two ways to the end of the turn differ in nothing that counts here
        have hsame : ∀ side, net₂.endpoint side = net'.endpoint side := by
          intro side
          cases there.eq_or_eq_other side with
          | inl hhere => rw [hhere, hmine₂, hmine]
          | inr hthere => rw [hthere, hother₂, hother₁, hother]
        have hshort₂ : net₂.Short := by
          intro side
          rw [hsame side]
          exact hshort side
        have hjoined₁ := hjoined net₁ (hr.trans hrun₁) (Network.short_of_reach hrun₂ hshort₂)
        have hdel := (Network.delivered_of_reach hrun₂ hjoined₁ hshort₂
          (hjoined₁.delivered hover)).2
        rw [Network.Delivered, hsame, hsame] at hdel
        exact hdel

/-- An operation of an owner. -/
theorem Matched.owner (h : Matched medium net sys) (side : Side) (op : OwnerOp) :
    Matched medium net (sys.step medium (.owner side op)) := by
  have hthread : (sys.step medium (.owner side op)).thread side =
      (sys.thread side).owner op := by
    simp [step]
  have hthread' : (sys.step medium (.owner side op)).thread side.other =
      sys.thread side.other := by
    simp [step, Side.other_ne]
  refine ⟨fun there => ?_, fun there => ?_⟩
  · cases side.eq_or_eq_other there with
    | inl hhere =>
        subst hhere
        rw [hthread]
        exact (h.backed there).owner op
    | inr hthere =>
        subst hthere
        rw [hthread']
        exact h.backed side.other
  · cases side.eq_or_eq_other there with
    | inl hhere =>
        subst hhere
        have hwritten := (sys.thread there).owner_written op (net.endpoint there)
        have hnow : (sys.step medium (.owner there op)).written there =
            sys.written there ++
              TCPThread.supplied (sys.thread there).socket.threadData.file op := by
          simp [step]
        rw [pipe, hthread, hnow, ← h.written there]
        exact hwritten
    | inr hthere =>
        subst hthere
        have hnow : (sys.step medium (.owner side op)).written side.other =
            sys.written side.other := by
          simp [step, Side.other_ne]
        rw [pipe, hthread', hnow]
        exact h.written side.other

/-- No owner touches what rule 3 has done. -/
theorem Shut.owner (hshut : sys.Shut net) (side : Side) (op : OwnerOp) :
    (sys.step medium (.owner side op)).Shut net := by
  intro hshort there hend
  refine hshut hshort there ?_
  rw [← hend]
  cases side.eq_or_eq_other there with
  | inl hhere =>
      subst hhere
      simp [step, TCPThread.owner]
  | inr hthere =>
      subst hthere
      simp [step, Side.other_ne]

/-- An event of the medium leaves the owners alone. -/
theorem pipe_carry (sys : Sockets α) (side : Side) (event : medium.Event) (there : Side) :
    (sys.step medium (.carry side event)).pipe there = sys.pipe there := by
  cases side.eq_or_eq_other there with
  | inl hhere =>
      subst hhere
      simp [pipe, step, TCPThread.carry]
  | inr hthere =>
      subst hthere
      simp [pipe, step, Side.other_ne]

theorem Matched.carry (h : Matched medium net sys) {side : Side} {event : medium.Event}
    (hevent : medium.Admitted side event) :
    Matched medium net (sys.step medium (.carry side event)) := by
  refine ⟨fun there => ?_, fun there => ?_⟩
  · cases side.eq_or_eq_other there with
    | inl hhere =>
        subst hhere
        obtain ⟨sent', out', hother, hout, -⟩ := (h.backed there.other).served
        have hthread : (sys.step medium (.carry there event)).thread there =
            (sys.thread there).carry (medium.occur there event
              (sys.thread there.other).socket.datagramAdapter
              (sys.thread there).socket.datagramAdapter) := by
          simp [step]
        rw [hthread]
        exact (h.backed there).carry fun sent ha => medium.carries hevent hout hother.adapter ha
    | inr hthere =>
        subst hthere
        have hthread : (sys.step medium (.carry side event)).thread side.other =
            sys.thread side.other := by
          simp [step, Side.other_ne]
        rw [hthread]
        exact h.backed side.other
  · rw [pipe_carry]
    exact h.written there

theorem Shut.carry (hshut : sys.Shut net) (side : Side) (event : medium.Event) :
    (sys.step medium (.carry side event)).Shut net := by
  intro hshort there hend
  refine hshut hshort there ?_
  rw [← hend]
  cases side.eq_or_eq_other there with
  | inl hhere =>
      subst hhere
      simp [step, TCPThread.carry]
  | inr hthere =>
      subst hthere
      simp [step, Side.other_ne]

/-- **Refinement.**  Every run of two sockets is a run of two connections and the network
between them. -/
theorem refines_network
    (hready : ∀ side, medium.inv side (fun _ => False) [] ((setup side).configured adapt))
    (hr : Reached medium setup sys) :
    ∃ net, Network.Reached (fun side => (setup side).cfg) net ∧ Matched medium net sys ∧
      (Capacities (fun side => (setup side).cfg) → sys.Shut net) := by
  refine Run.Reach.invariant (P := fun sys => ∃ net,
    Network.Reached (fun side => (setup side).cfg) net ∧ Matched medium net sys ∧
      (Capacities (fun side => (setup side).cfg) → sys.Shut net)) hr ?_ ?_
  · obtain ⟨net, hreach, hmatched, hshut⟩ := exists_start hready
    exact ⟨net, hreach, hmatched, fun _ => hshut⟩
  rintro sys op hop ⟨net, hreach, hmatched, hshut⟩
  cases op with
  | turn side turn =>
      obtain ⟨net', hreach', hmatched', hshut'⟩ := hmatched.turn hreach hop
      exact ⟨net', hreach', hmatched', fun hcfg => hshut' hcfg (hshut hcfg)⟩
  | owner side op =>
      exact ⟨net, hreach, hmatched.owner side op, fun hcfg => (hshut hcfg).owner side op⟩
  | carry side event =>
      exact ⟨net, hreach, hmatched.carry hop, fun hcfg => (hshut hcfg).carry side event⟩

/-- What has been accepted was written by the owner. -/
theorem Matched.accepted_isPrefix (h : Matched medium net sys) (side : Side) :
    (net.endpoint side).accepted <+: sys.written side := by
  obtain ⟨sent, out, hserved, -⟩ := (h.backed side).served
  rw [← h.written side, hserved.tracks.accepted]
  exact List.prefix_append _ _

theorem Matched.short (h : Matched medium net sys)
    (hlen : ∀ side, (sys.written side).length < 2 ^ 31 - 2) : net.Short :=
  fun side => lt_of_le_of_lt (h.accepted_isPrefix side).length_le (hlen side)

/-- Where rule 3 has shut down the owner's stream, everything has been given to it, or the
connection was reset; while the streams are short enough for sequence numbers. -/
theorem Matched.given_of_shut (h : Matched medium net sys)
    (hshut : sys.Shut net) (hlen : ∀ side, (sys.written side).length < 2 ^ 31 - 2) {side : Side}
    (hdone : (sys.thread side).socket.inboundShutdown = true) :
    (sys.thread side).socket.inboundStream.error = true ∨
      (sys.pipe side.other).inboundEnd = true ∧
        (sys.pipe side).outbound = sys.written side.other := by
  obtain ⟨sent, out, hserved, -⟩ := (h.backed side).served
  obtain ⟨sent', out', hother, -⟩ := (h.backed side.other).served
  have houtbound : (net.endpoint side).taken = (sys.pipe side).outbound := hserved.tracks.taken
  rcases hshut (h.short hlen) side hdone with herror | ⟨hended, htaken⟩
  · rw [hserved.tracks.connection] at herror
    exact Or.inl herror
  · -- the other side has read its owner's stream to the end
    have hdrained := hother.drained (Or.inr (hother.tracks.ended.symm.trans hended))
    have hinbound : (sys.pipe side.other).inbound = [] := hdrained.2
    refine Or.inr ⟨hdrained.1, ?_⟩
    rw [← houtbound, htaken, hother.tracks.accepted, ← h.written side.other, hinbound,
      List.append_nil]
    rfl

/-- What an owner is given is part of what the other owner has written. -/
theorem Matched.outbound_isPrefix {cfg : Side → TCPConfig} (hcfg : Capacities cfg)
    (hr : Network.Reached cfg net) (h : Matched medium net sys)
    (hlen : ∀ side, (sys.written side).length < 2 ^ 31 - 2) (side : Side) :
    (sys.pipe side).outbound <+: sys.written side.other := by
  obtain ⟨sent, out, hserved, -⟩ := (h.backed side).served
  have houtbound : (net.endpoint side).taken = (sys.pipe side).outbound := hserved.tracks.taken
  rw [← houtbound]
  exact ((hr.joined hcfg (h.short hlen)).taken_isPrefix side).trans
    (h.accepted_isPrefix side.other)

end Refinement

/-- A thread fails only when a system call has failed, or when it is killed by a write to an
owner who reads no more. -/
theorem Matched.fails_with_system {medium : Medium adapt} {net : Network} {sys : Sockets α}
    (h : Matched medium net sys) (side : Side) {ex : Exception}
    (hfailed : (sys.thread side).phase = .failed ex) :
    SystemFailure ex ∨ ex = .killed sigpipe ∧ (sys.pipe side).Unread :=
  (h.backed side).failure ex hfailed

end Sockets

/-- The answer that a single condition holds: this direction of this descriptor is ready. -/
def EventLoop.onlyReady {σ : Type} (fd : Nat) (direction : EventLoop.Direction) :
    σ → List EventLoop.PollFd → EventLoop.PollAnswer :=
  fun _ fds => .ready (fds.map fun asked =>
    if asked = ⟨fd, some direction⟩ then
      { pollin := decide (direction = .In), pollout := decide (direction = .Out) }
    else {})

theorem TCPSpongeSocket.steady_onlyReady {α : Type} (fd : Nat) (direction : EventLoop.Direction) :
    Steady (EventLoop.onlyReady fd direction : TCPSpongeSocket α → _) where
  signals := fun s fds => by simp [EventLoop.onlyReady]
  hangups := by
    intro s fds revents hanswer p hp hhup
    obtain rfl := EventLoop.PollAnswer.ready.inj hanswer
    obtain ⟨asked, -, heq⟩ := List.mem_map.mp (List.of_mem_zip hp).2
    rw [EventLoop.HungUp, ← heq] at hhup
    split at hhup
    · simp at hhup
    · simp at hhup

end Sponge

import Sponge.Socket.Callbacks

/-!
# Turns of the loop

Whatever `poll` answers, a turn of the loop is a run of the endpoint that serves the
socket: it keeps what the callbacks keep, and ends in an exception only when a system call
has failed, or a write to an owner who reads no more kills the process.  The one thing the
loop takes `poll`'s word for is a hangup.
-/

namespace Sponge

open Program

namespace TCPSpongeSocket

open EventLoop

section Round

variable {α : Type} {adapt : DatagramAdapter α} {inv : List TCPSegment → α → Prop}
  {arrives : TCPSegment → Prop} {b : Before}

/-- A hangup at the owner's descriptor without anything to read is reported only when the owner
has ended its stream, and all of it has been read. -/
def Honest (poll : TCPSpongeSocket α → List PollFd → PollAnswer) : Prop :=
  ∀ s fds revents, poll s fds = .ready revents → ∀ p ∈ fds.zip revents,
    p.1 = ⟨s.threadData.fd, some .In⟩ → p.2.pollhup = true → p.2.pollin = false → s.Drained

/-- No wait is interrupted, and no descriptor hangs up without anything else to report. -/
structure Steady (poll : TCPSpongeSocket α → List PollFd → PollAnswer) : Prop where
  signals : ∀ s fds, poll s fds ≠ .fails eintr
  hangups : ∀ s fds revents, poll s fds = .ready revents → ∀ p ∈ fds.zip revents,
    ¬HungUp p.1 p.2

theorem Steady.honest {poll : TCPSpongeSocket α → List PollFd → PollAnswer} (h : Steady poll) :
    Honest poll := by
  intro s fds revents hready p hp hasked hhup hin
  refine absurd ?_ (h.hangups s fds revents hready p hp)
  simp [HungUp, PollFd.ready, hasked, hhup, hin]

/-- What is noted and an honest answer give the callbacks what they rely on. -/
theorem granted_of_honest {firm : Prop} {polled : List (RuleName × PollFd)}
    {revents : List Revents} {s : TCPSpongeSocket α} (hpolled : Noted Heeded polled s)
    (hhonest : ∀ p ∈ (polled.map Prod.snd).zip revents, p.1 = ⟨s.threadData.fd, some .In⟩ →
      p.2.pollhup = true → p.2.pollin = false → s.Drained)
    (hfirm : firm → ∀ p ∈ (polled.map Prod.snd).zip revents, ¬HungUp p.1 p.2) :
    Granted (Relies firm) polled revents s := by
  induction polled generalizing revents with
  | nil => trivial
  | cons p rest ih =>
      obtain ⟨i, pollfd⟩ := p
      cases revents with
      | nil => exact granted_nil ((i, pollfd) :: rest) s
      | cons r revents =>
          have hrest : Granted (Relies firm) rest revents s :=
            ih (fun q hq => hpolled q (List.mem_cons_of_mem _ hq))
              (fun q hq => hhonest q (List.mem_cons_of_mem _ hq))
              fun hf q hq => hfirm hf q (List.mem_cons_of_mem _ hq)
          have hstays : HungUp pollfd r → ¬firm :=
            fun hhup hf => hfirm hf (pollfd, r) List.mem_cons_self hhup
          have hmine := hpolled (i, pollfd) List.mem_cons_self
          cases i with
          | segmentsIn => exact ⟨fun _ => trivial, hstays, hrest⟩
          | bytesOut => exact ⟨fun _ => trivial, hstays, hrest⟩
          | segmentsOut => exact ⟨fun _ => trivial, hstays, hrest⟩
          | bytesIn =>
              obtain ⟨fd, events⟩ := pollfd
              have hasked : fd = s.threadData.fd ∧
                  (events = none ∨ events = some .In ∧ s.outboundShutdown = false) := hmine
              obtain ⟨rfl, rfl | ⟨rfl, hopen⟩⟩ := hasked
              · refine ⟨fun hready => ?_, fun hhup => ?_, hrest⟩
                · simp [PollFd.ready] at hready
                · simp [HungUp] at hhup
              · refine ⟨fun _ => hopen, fun hhup => ?_, hrest⟩
                have hreport : r.pollhup = true ∧ r.pollin = false := by
                  simpa [HungUp, PollFd.ready] using hhup
                exact hhonest _ List.mem_cons_self rfl hreport.1 hreport.2

/-- The clock. -/
theorem Served.tick {s : TCPSpongeSocket α} {e : Endpoint} {sent out : List TCPSegment}
    (h : Served inv arrives b s e sent out) (ms : Nat) :
    Served inv arrives b { s with tcp := s.tcp.tick ms } (e.step (.tick ms)) sent out := by
  refine h.advance ⟨trivial, fun seg heq => by cases heq⟩ ?_ rfl rfl rfl rfl rfl h.drained
  exact ⟨h.tracks.step (.tick ms), h.tracks.accepted, h.tracks.taken, h.tracks.ended⟩

/-- **A turn of the loop.**  It goes on unless it was told to stop, `poll` was interrupted, or
no rule that is left is interested; and if `firm`, the rules are left. -/
theorem loopRound_spec {firm : Prop} (law : adapt.Lawful inv arrives)
    (hopen : firm → adapt.StaysOpen inv) (hb : b.endpoint.Sound) {names : List RuleName}
    (hnames : names.Sublist ruleNames) {s : TCPSpongeSocket α} (hs : Serving inv arrives b s)
    {poll : TCPSpongeSocket α → List PollFd → PollAnswer} (hpoll : Honest poll)
    (hfirm : firm → Steady poll) (abort : Bool) (elapsed : Nat) :
    Yields (loopRound adapt (names.map (ruleNamed adapt)) poll abort elapsed) s
      (fun r s' => Serving inv arrives b s' ∧
        ∃ kept : List RuleName, r.2 = kept.map (ruleNamed adapt) ∧ kept.Sublist names ∧
          (firm → ∀ i ∈ names, i ≠ .bytesIn → i ∈ kept) ∧
          (r.1 = false → abort = true ∨ (∃ s₀ fds, poll s₀ fds = .fails eintr) ∨
            ∀ i ∈ kept, ∃ pollfd : PollFd, pollfd.events = none ∧ Heeded i pollfd s'))
      (Stopped inv arrives b) := by
  have hd := (discipline law hopen hb).sublist hnames
  have hanswered : ∀ polled s', Serving inv arrives b s' →
      (polled.map Prod.fst).Sublist names → Noted Heeded polled s' →
      ∀ revents, poll s' (polled.map Prod.snd) = .ready revents →
        Answered (Serving inv arrives b) (Relies firm) (Stopped inv arrives b) polled revents
          s' := by
    intro polled s' _ _ hpolled revents hready
    refine ⟨granted_of_honest hpolled (hpoll s' _ revents hready)
      (fun hf => (hfirm hf).hangups s' _ revents hready), fun _ s'' hs'' => ?_⟩
    obtain ⟨e, sent, h⟩ := hs''
    exact h.stopped (Or.inl (Or.inr rfl))
  rw [loopRound, yields_bind]
  refine (waitNextEvent_spec hd hs hanswered).mono ?_ fun _ _ he => he
  rintro ⟨ret, rules⟩ s' ⟨hserving, kept, rfl, hkept, hspares, hexit⟩
  have hleft : firm → ∀ i ∈ names, i ≠ .bytesIn → i ∈ kept := by
    intro hf i hi hother
    refine hspares i hi fun _ => ?_
    cases i with
    | bytesIn => exact absurd rfl hother
    | segmentsIn => exact not_not.mpr hf
    | bytesOut => exact not_not.mpr hf
    | segmentsOut => exact not_not.mpr hf
  simp only [yields_ite, yields_bind, yields_get, yields_pure]
  split
  · next hstop =>
    refine ⟨hserving, kept, rfl, hkept, hleft, fun _ => ?_⟩
    rcases hstop with hret | habort
    · rcases hexit hret with hidle | hsignal
      · exact Or.inr (Or.inr hidle)
      · exact Or.inr (Or.inl hsignal)
    · exact Or.inl habort
  have hon : ∀ s'', Serving inv arrives b s'' → Serving inv arrives b s'' ∧
      ∃ kept' : List RuleName, kept.map (ruleNamed adapt) = kept'.map (ruleNamed adapt) ∧
        kept'.Sublist names ∧
        (firm → ∀ i ∈ names, i ≠ .bytesIn → i ∈ kept') ∧
        (true = false → abort = true ∨ (∃ s₀ fds, poll s₀ fds = .fails eintr) ∨
          ∀ i ∈ kept', ∃ pollfd : PollFd, pollfd.events = none ∧ Heeded i pollfd s'') :=
    fun s'' hs'' => ⟨hs'', kept, rfl, hkept, hleft, by simp⟩
  split
  · obtain ⟨e, sent, h⟩ := hserving
    have hticked := h.tick elapsed
    simp only [onTcp, onAdapter, yields_modify, yields_zoom]
    refine (law.tick sent s'.datagramAdapter elapsed hticked.adapter).mono ?_ ?_
    · rintro - a' ha'
      exact hon _ ⟨_, sent, hticked.congr ha' rfl rfl rfl rfl⟩
    · rintro ex a' ⟨hex, ha'⟩
      have hstill : Served inv arrives b
          { s' with tcp := s'.tcp.tick elapsed, datagramAdapter := a' } _ sent sent :=
        hticked.congr ha' rfl rfl rfl rfl
      exact hstill.stopped (Or.inl hex)
  · exact hon s' hserving

end Round

end TCPSpongeSocket

/-! ## The start -/

theorem TCPConnection.connect_state (cfg : TCPConfig) :
    (TCPConnection.new cfg).connect.state = .ofState .SYN_SENT := by
  have hfill : (TCPConnection.new cfg).sender.fillWindow =
      (TCPConnection.new cfg).sender.sendNewSeg (TCPConnection.new cfg).sender.synSeg := by
    unfold TCPSender.fillWindow
    rfl
  have hone : Word.add 64 0 1 = 1 := Word.add_of_lt (by norm_num)
  have hflight : Word.sub 64 1 0 = 1 := Word.sub_of_le (by norm_num) (by norm_num)
  have hsender : (TCPConnection.new cfg).connect.sender.stateSummary = .synSent := by
    rw [TCPConnection.connect, TCPConnection.clean_sender, hfill]
    simp [TCPSender.stateSummary, TCPSender.sendNewSeg, TCPSender.nextSeqnoAbsolute,
      TCPSender.bytesInFlight, TCPSender.synSeg, TCPSender.getInitSeg,
      TCPSegment.lengthInSequenceSpace, TCPConnection.new, TCPSender.new, hone, hflight]
  have hactive : (TCPConnection.new cfg).connect.active = true := rfl
  have hlinger : (TCPConnection.new cfg).connect.lingerAfterStreamsFinish = true :=
    TCPConnection.clean_linger _
  have hreceiver : (TCPConnection.new cfg).connect.receiver.stateSummary = .listen := by
    rw [TCPConnection.connect, TCPConnection.clean_receiver]
    rfl
  simp [TCPConnection.state, TCPState.summarize, TCPState.ofState, hsender, hactive, hlinger,
    hreceiver]

/-! ## The thread -/

/-- Whether `_tcp_main` has left its loop. -/
def Phase.left : Phase → Bool
  | .finished => true
  | _ => false

theorem Phase.left_iff {phase : Phase} : phase.left = true ↔ phase = .finished := by
  cases phase <;> simp [left]

theorem Phase.left_of_condition {phase : Phase} {tcp : TCPConnection}
    (h : phase.condition tcp = true) : phase.left = false := by
  cases phase with
  | finished => exact absurd h (by simp [condition])
  | connecting => rfl
  | accepting => rfl
  | running => rfl
  | failed ex => rfl

namespace TCPThread

open TCPSpongeSocket EventLoop

section Backed

variable {α : Type} {adapt : DatagramAdapter α} {inv : List TCPSegment → α → Prop}
  {arrives : TCPSegment → Prop} {b : Before} {t : TCPThread α} {e : Endpoint}

/-- The thread serves its socket by the endpoint `e`, or has done so until it stopped. -/
structure Backed (adapt : DatagramAdapter α) (inv : List TCPSegment → α → Prop)
    (arrives : TCPSegment → Prop) (b : Before) (t : TCPThread α) (e : Endpoint) : Prop where
  served : ∃ sent out, Served inv arrives { b with left := t.phase.left } t.socket e sent out ∧
    (∀ seg ∈ out, seg ∈ e.connection.segmentsOut) ∧
    ((∀ ex, t.phase ≠ .failed ex) → out = sent)
  rules : ∃ names : List RuleName, t.rules = names.map (ruleNamed adapt) ∧
    names.Sublist ruleNames
  failure : ∀ ex, t.phase = .failed ex → Fatal ex t.socket

/-- What the thread has come to is what the next turn starts from. -/
def now (t : TCPThread α) (e : Endpoint) : Before where
  endpoint := e
  shut := t.socket.inboundShutdown
  left := t.phase.left
  written := t.socket.threadData.file.consumed ++ t.socket.threadData.file.inbound

/-- Another turn, for which more may be known of the adapter. -/
theorem Backed.restart (h : Backed adapt inv arrives b t e)
    {inv' : List TCPSegment → α → Prop} {arrives' : TCPSegment → Prop}
    (hinv : ∀ sent, inv sent t.socket.datagramAdapter → inv' sent t.socket.datagramAdapter) :
    Backed adapt inv' arrives' (t.now e) t e := by
  obtain ⟨sent, out, hs, hout, hphase⟩ := h.served
  refine ⟨⟨sent, out, ?_, hout, hphase⟩, h.rules, h.failure⟩
  exact {
    reach := .start
    tracks := hs.tracks
    adapter := hinv out hs.adapter
    opened := hs.opened
    drained := hs.drained
    written := rfl
    shut := hs.shut
    closing := Or.inl }

theorem Backed.serving (h : Backed adapt inv arrives b t e)
    (halive : ∀ ex, t.phase ≠ .failed ex) :
    Serving inv arrives { b with left := t.phase.left } t.socket := by
  obtain ⟨sent, out, hs, -, hphase⟩ := h.served
  rw [hphase halive] at hs
  exact ⟨e, sent, hs⟩

theorem backed_of_serving (hs : Serving inv arrives { b with left := t.phase.left } t.socket)
    (hrules : ∃ names : List RuleName, t.rules = names.map (ruleNamed adapt) ∧
      names.Sublist ruleNames)
    (halive : ∀ ex, t.phase ≠ .failed ex) : ∃ e, Backed adapt inv arrives b t e := by
  obtain ⟨e, sent, h⟩ := hs
  refine ⟨e, ⟨sent, sent, h, fun seg hseg => ?_, fun _ => rfl⟩, hrules,
    fun ex hex => absurd hex (halive ex)⟩
  rw [h.tracks.connection]
  exact List.mem_append_left _ hseg

/-- Shutting down the owner's end leaves what was written there. -/
theorem Serving.finish {s : TCPSpongeSocket α} (hs : Serving inv arrives b s) :
    Serving inv arrives { b with left := true }
      { s with threadData := { s.threadData with
        file := { s.threadData.file with
          inboundEnd := true
          outboundEnd := true
          ownerGone := true } } } := by
  obtain ⟨e, sent, h⟩ := hs
  exact ⟨e, sent, {
    reach := h.reach
    tracks := ⟨h.tracks.connection, h.tracks.accepted, h.tracks.taken, h.tracks.ended⟩
    adapter := h.adapter
    opened := h.opened
    drained := fun hend => ⟨rfl, (h.drained hend).2⟩
    written := h.written
    shut := (Bool.or_true _).symm
    closing := h.closing }⟩

theorem backed_afterLoop {s : TCPSpongeSocket α} {names : List RuleName} {phase : Phase}
    (hs : Serving inv arrives { b with left := phase.left } s) (hnames : names.Sublist ruleNames)
    (halive : ∀ ex, phase ≠ .failed ex) :
    ∃ e, Backed adapt inv arrives b (afterLoop s (names.map (ruleNamed adapt)) phase) e := by
  have hrules : ∃ names' : List RuleName,
      names.map (ruleNamed adapt) = names'.map (ruleNamed adapt) ∧ names'.Sublist ruleNames :=
    ⟨names, rfl, hnames⟩
  cases phase with
  | connecting => exact backed_of_serving hs hrules (by simp [afterLoop])
  | accepting => exact backed_of_serving hs hrules (by simp [afterLoop])
  | running =>
      have hfinish := Serving.finish hs
      exact backed_of_serving hfinish hrules (by simp [afterLoop])
  | finished => exact backed_of_serving hs hrules (by simp [afterLoop])
  | failed ex => exact absurd rfl (halive ex)

/-- **One turn** is a run of the endpoint. -/
theorem Backed.turn (law : adapt.Lawful inv arrives) (hb : b.endpoint.Sound)
    (h : Backed adapt inv arrives b t e) {turn : Turn α} (hpoll : Honest turn.poll) :
    ∃ e', Backed adapt inv arrives b (t.turn adapt turn) e' := by
  by_cases hdead : ∃ ex, t.phase = .failed ex
  · obtain ⟨ex, hex⟩ := hdead
    have hstay : t.turn adapt turn = t := by
      cases t
      simp only at hex
      subst hex
      simp [TCPThread.turn, Phase.condition, afterLoop]
    rw [hstay]
    exact ⟨e, h⟩
  have halive : ∀ ex, t.phase ≠ .failed ex := fun ex hex => hdead ⟨ex, hex⟩
  have hserving := h.serving halive
  obtain ⟨names, hrules, hnames⟩ := h.rules
  unfold TCPThread.turn
  split
  · next hcondition =>
    have hopen : False → adapt.StaysOpen inv := False.elim
    have hleft : t.phase.left = false := Phase.left_of_condition hcondition
    have hround := loopRound_spec (b := { b with left := t.phase.left }) law hopen hb hnames
      hserving hpoll False.elim turn.abort turn.elapsed
    rw [← hrules] at hround
    cases hrun : (loopRound adapt t.rules turn.poll turn.abort turn.elapsed).run t.socket with
    | error ex s =>
        rw [yields_of_error hrun, hleft] at hround
        obtain ⟨hex, e', sent, out, hs, hout⟩ := hround
        refine ⟨e', ⟨sent, out, hs, hout, fun hno => absurd rfl (hno ex)⟩,
          ⟨names, hrules, hnames⟩, ?_⟩
        intro ex' heq
        rw [← Phase.failed.inj heq]
        exact hex
    | ok r s =>
        rw [yields_of_ok hrun] at hround
        obtain ⟨hs, kept, hkept, hsub, -⟩ := hround
        obtain ⟨on, rules⟩ := r
        simp only at hkept
        subst hkept
        cases on with
        | true => exact backed_of_serving hs ⟨kept, rfl, hsub.trans hnames⟩ halive
        | false => exact backed_afterLoop hs (hsub.trans hnames) halive
  · rw [hrules]
    exact backed_afterLoop hserving hnames halive

/-! ## Between the turns -/

/-- What the owner has written since. -/
def supplied (file : StreamEnd) : OwnerOp → List Byte
  | .write data => if file.inboundEnd then [] else data
  | _ => []

theorem Backed.owner (h : Backed adapt inv arrives (t.now e) t e) (op : OwnerOp) :
    Backed adapt inv arrives ((t.owner op).now e) (t.owner op) e := by
  obtain ⟨sent, out, hs, hout, hphase⟩ := h.served
  have hfile : (t.owner op).socket.threadData.file = t.socket.threadData.file.owner op := rfl
  have hsame : ∀ f : StreamEnd, (f.owner op).consumed = f.consumed ∧
      (f.owner op).outbound = f.outbound ∧ (f.owner op).outboundEnd = f.outboundEnd ∧
      (f.Unread → (f.owner op).Unread) ∧
      (f.inboundEnd = true ∧ f.inbound = [] →
        (f.owner op).inboundEnd = true ∧ (f.owner op).inbound = []) := by
    intro f
    cases op with
    | write data =>
        simp only [StreamEnd.owner]
        split
        · exact ⟨rfl, rfl, rfl, fun hu => hu, fun hd => hd⟩
        · next hopen => exact ⟨rfl, rfl, rfl, fun hu => hu, fun hd => absurd hd.1 hopen⟩
    | shutdownWrite => exact ⟨rfl, rfl, rfl, fun hu => hu, fun hd => ⟨rfl, hd.2⟩⟩
    | leave => exact ⟨rfl, rfl, rfl, fun _ => Or.inr rfl, fun hd => hd⟩
    | grant sizes => exact ⟨rfl, rfl, rfl, fun hu => hu, fun hd => hd⟩
  obtain ⟨hconsumed, houtbound, hend, hunread, hdrained⟩ := hsame t.socket.threadData.file
  have hfailure : ∀ ex, (t.owner op).phase = .failed ex → Fatal ex (t.owner op).socket := by
    intro ex hex
    rcases h.failure ex hex with hsystem | ⟨hkilled, hfile⟩
    · exact Or.inl hsystem
    · exact Or.inr ⟨hkilled, hunread hfile⟩
  refine ⟨⟨sent, out, ?_, hout, hphase⟩, h.rules, hfailure⟩
  exact {
    reach := .start
    tracks := ⟨hs.tracks.connection, hs.tracks.accepted.trans hconsumed.symm,
      hs.tracks.taken.trans houtbound.symm, hs.tracks.ended⟩
    adapter := hs.adapter
    opened := hs.opened
    drained := fun hover => hdrained (hs.drained hover)
    written := rfl
    shut := hend.trans hs.shut
    closing := Or.inl }

theorem owner_written (t : TCPThread α) (op : OwnerOp) (e : Endpoint) :
    ((t.owner op).now e).written =
      (t.now e).written ++ supplied t.socket.threadData.file op := by
  cases op with
  | write data =>
      cases hend : t.socket.threadData.file.inboundEnd with
      | true => simp [now, owner, StreamEnd.owner, supplied, hend]
      | false => simp [now, owner, StreamEnd.owner, supplied, hend]
  | shutdownWrite => simp [now, owner, StreamEnd.owner, supplied]
  | leave => simp [now, owner, StreamEnd.owner, supplied]
  | grant sizes => simp [now, owner, StreamEnd.owner, supplied]

/-- The medium has changed the adapter. -/
def carry (t : TCPThread α) (a : α) : TCPThread α :=
  { t with socket := { t.socket with datagramAdapter := a } }

theorem Backed.carry (h : Backed adapt inv arrives (t.now e) t e) {a : α}
    (ha : ∀ sent, inv sent t.socket.datagramAdapter → inv sent a) :
    Backed adapt inv arrives ((t.carry a).now e) (t.carry a) e := by
  obtain ⟨sent, out, hs, hout, hphase⟩ := h.served
  exact ⟨⟨sent, out, hs.congr (ha out hs.adapter) rfl rfl rfl rfl, hout, hphase⟩, h.rules,
    h.failure⟩

end Backed

end TCPThread
end Sponge

import Sponge.Network.WindUp
import Sponge.Socket.Pair

/-!
# What a thread leaves undone

Nothing: as long as the descriptors stay open, no signal arrives and the destructor does not
interfere, a thread leaves its loop only when its connection is over, all its segments have
been sent, and all its bytes have been given to the owner.  A thread that is made to leave
early shuts down its owner's end all the same: only then does an owner read to the end of a
stream that has not ended.
-/

namespace Sponge

open Program

namespace TCPSpongeSocket

variable {α : Type}

/-- No rule has anything to do any more. -/
structure Idle (s : TCPSpongeSocket α) : Prop where
  inactive : s.tcp.active = false
  given : rule3.interest s = false
  sent : s.tcp.segmentsOut = []

/-- Once everything that has arrived has been given to the owner, the end has been, too. -/
theorem shut_of_given {s : TCPSpongeSocket α} (hgiven : rule3.interest s = false)
    (hover : s.inboundStream.error = true ∨ s.inboundStream.inputEnded = true) :
    s.inboundShutdown = true := by
  have hnone : (!s.inboundStream.bufferEmpty ||
      ((s.inboundStream.eof || s.inboundStream.error) && !s.inboundShutdown)) = false := hgiven
  rw [Bool.or_eq_false_iff, Bool.not_eq_false'] at hnone
  obtain ⟨hempty, hshut⟩ := hnone
  have hend : (s.inboundStream.eof || s.inboundStream.error) = true := by
    rw [Bool.or_eq_true]
    rcases hover with herror | hended
    · exact Or.inr herror
    · left
      rw [ByteStream.eof, Bool.and_eq_true]
      exact ⟨hended, hempty⟩
  simpa [hend] using hshut

end TCPSpongeSocket

namespace TCPThread

open TCPSpongeSocket EventLoop

variable {α : Type} {adapt : DatagramAdapter α} {inv : List TCPSegment → α → Prop}
  {arrives : TCPSegment → Prop} {b : Before} {t : TCPThread α} {e : Endpoint}

/-- `_tcp_main` has left its loop with a connection that is still active, or with something left
to give to the owner. -/
def LeftEarly (t : TCPThread α) : Prop :=
  t.phase = .finished ∧ (t.socket.tcp.active = true ∨ rule3.interest t.socket = true)

/-- At most the rule for the owner's bytes has been cancelled; and a thread that has finished
has left nothing undone. -/
structure Firm (adapt : DatagramAdapter α) (t : TCPThread α) : Prop where
  rules : ∃ names : List RuleName, t.rules = names.map (ruleNamed adapt) ∧
    names.Sublist ruleNames ∧ ∀ i ∈ ruleNames, i ≠ .bytesIn → i ∈ names
  idle : t.phase = .finished → t.socket.Idle

theorem Firm.not_leftEarly (h : t.Firm adapt) : ¬t.LeftEarly := by
  rintro ⟨hfinished, hactive | hgive⟩
  · exact absurd (hactive.symm.trans (h.idle hfinished).inactive) (by simp)
  · exact absurd (hgive.symm.trans (h.idle hfinished).given) (by simp)

/-- What follows the loop: it was left by `_tcp_main` only if nothing was left to be done. -/
theorem firm_afterLoop {s : TCPSpongeSocket α} {names : List RuleName} {phase : Phase}
    (hnames : names.Sublist ruleNames) (hall : ∀ i ∈ ruleNames, i ≠ .bytesIn → i ∈ names)
    (hidle : phase = .running ∨ phase = .finished → s.Idle) :
    (afterLoop s (names.map (ruleNamed adapt)) phase).Firm adapt := by
  have hrules : ∃ names' : List RuleName,
      names.map (ruleNamed adapt) = names'.map (ruleNamed adapt) ∧ names'.Sublist ruleNames ∧
        ∀ i ∈ ruleNames, i ≠ .bytesIn → i ∈ names' := ⟨names, rfl, hnames, hall⟩
  cases phase with
  | connecting => exact ⟨hrules, by simp [afterLoop]⟩
  | accepting => exact ⟨hrules, by simp [afterLoop]⟩
  | running =>
      have hs := hidle (Or.inl rfl)
      exact ⟨hrules, fun _ => ⟨hs.inactive, hs.given, hs.sent⟩⟩
  | finished => exact ⟨hrules, fun _ => hidle (Or.inr rfl)⟩
  | failed ex => exact ⟨hrules, by simp [afterLoop]⟩

theorem Firm.turn (law : adapt.Lawful inv arrives) (hopen : adapt.StaysOpen inv)
    (hb : b.endpoint.Sound) (h : t.Firm adapt) (hbacked : Backed adapt inv arrives b t e)
    {turn : Turn α} (hpoll : Steady turn.poll) (habort : turn.abort = false) :
    (t.turn adapt turn).Firm adapt := by
  obtain ⟨names, hrules, hnames, hall⟩ := h.rules
  unfold TCPThread.turn
  split
  · next hcondition =>
    have halive : ∀ ex, t.phase ≠ .failed ex := by
      intro ex hex
      rw [hex] at hcondition
      exact absurd hcondition (by simp [Phase.condition])
    have hround := loopRound_spec (b := { b with left := t.phase.left }) law
      (fun _ : True => hopen) hb hnames (hbacked.serving halive) hpoll.honest (fun _ => hpoll)
      turn.abort turn.elapsed
    rw [← hrules] at hround
    cases hrun : (loopRound adapt t.rules turn.poll turn.abort turn.elapsed).run t.socket with
    | error ex s => exact ⟨⟨names, hrules, hnames, hall⟩, by simp⟩
    | ok r s =>
        rw [yields_of_ok hrun] at hround
        obtain ⟨-, kept, hkept, hsub, hleft, hstop⟩ := hround
        obtain ⟨on, rules⟩ := r
        simp only at hkept hstop
        subst hkept
        have hall' : ∀ i ∈ ruleNames, i ≠ .bytesIn → i ∈ kept :=
          fun i hi hother => hleft trivial i (hall i hi hother) hother
        cases on with
        | true =>
            refine ⟨⟨kept, rfl, hsub.trans hnames, hall'⟩, fun hfinished => ?_⟩
            have hphase : t.phase = .finished := hfinished
            rw [hphase] at hcondition
            exact absurd hcondition (by simp [Phase.condition])
        | false =>
            refine firm_afterLoop (hsub.trans hnames) hall' fun _ => ?_
            rcases hstop rfl with hstopped | ⟨s₀, fds, hsignal⟩ | hnone
            · exact absurd (habort.symm.trans hstopped) (by simp)
            · exact absurd hsignal (hpoll.signals s₀ fds)
            obtain ⟨asked₁, hasked₁, hsegmentsIn⟩ :=
              hnone .segmentsIn (hall' _ (by simp [ruleNames]) (by simp))
            obtain ⟨asked₃, hasked₃, hbytesOut⟩ :=
              hnone .bytesOut (hall' _ (by simp [ruleNames]) (by simp))
            obtain ⟨asked₄, hasked₄, hsegmentsOut⟩ :=
              hnone .segmentsOut (hall' _ (by simp [ruleNames]) (by simp))
            exact ⟨hsegmentsIn hasked₁, hbytesOut hasked₃, hsegmentsOut hasked₄⟩
  · next hcondition =>
    rw [hrules]
    refine firm_afterLoop hnames hall ?_
    rintro (hrunning | hfinished)
    · rw [hrunning] at hcondition
      exact absurd rfl hcondition
    · exact h.idle hfinished

theorem Firm.owner (h : t.Firm adapt) (op : OwnerOp) : (t.owner op).Firm adapt :=
  ⟨h.rules, fun hfinished =>
    ⟨(h.idle hfinished).inactive, (h.idle hfinished).given, (h.idle hfinished).sent⟩⟩

theorem Firm.carry (h : t.Firm adapt) (a : α) : (t.carry a).Firm adapt :=
  ⟨h.rules, fun hfinished =>
    ⟨(h.idle hfinished).inactive, (h.idle hfinished).given, (h.idle hfinished).sent⟩⟩

end TCPThread

/-! ## Two sockets -/

namespace Sockets

open TCPSpongeSocket EventLoop

variable {α : Type} {adapt : DatagramAdapter α} {medium : Medium adapt} {net : Network}
  {sys : Sockets α} {setup : Side → Setup α}

/-- No signal, no hangup without anything else to report, and no destructor. -/
def Undisturbed (medium : Medium adapt) (_ : Sockets α) : SocketsOp α medium.Event → Prop
  | .turn _ turn => Steady turn.poll ∧ turn.abort = false
  | .owner _ _ => True
  | .carry side event => medium.Admitted side event

/-- The states that the system comes to undisturbed. -/
abbrev ReachedUndisturbed (medium : Medium adapt) (setup : Side → Setup α) (sys : Sockets α) :
    Prop :=
  Run.Reach (step medium) (Undisturbed medium) (start adapt setup) sys

theorem admitted_of_undisturbed (sys : Sockets α) (op : SocketsOp α medium.Event)
    (h : Undisturbed medium sys op) : Admitted medium sys op := by
  cases op with
  | turn side turn => exact h.1.honest
  | owner side op => trivial
  | carry side event => exact h

theorem firm_of_reach
    (hready : ∀ side, medium.inv side (fun _ => False) [] ((setup side).configured adapt))
    (hopen : ∀ side arrives, adapt.StaysOpen (medium.inv side arrives))
    (hr : ReachedUndisturbed medium setup sys) (side : Side) :
    (sys.thread side).Firm adapt := by
  induction hr generalizing side with
  | start =>
      show ((setup side).thread adapt).Firm adapt
      rw [Setup.thread_eq]
      refine ⟨⟨ruleNames, rules_eq adapt, List.Sublist.refl _, fun _ hi _ => hi⟩, ?_⟩
      unfold Setup.phase
      cases (setup side).opening <;> simp
  | @next s op hs hop ih =>
      cases op with
      | turn here turn =>
          obtain ⟨net, hreach, hmatched, -⟩ :=
            refines_network hready (hs.mono admitted_of_undisturbed)
          cases here.eq_or_eq_other side with
          | inl hhere =>
              subst hhere
              have hthread : (s.step medium (.turn side turn)).thread side =
                  (s.thread side).turn adapt turn := by
                simp [step]
              rw [hthread]
              exact (ih side).turn (medium.lawful side _) (hopen side _) (hreach.sound side)
                (hmatched.backed side) hop.1 hop.2
          | inr hthere =>
              subst hthere
              have hthread : (s.step medium (.turn here turn)).thread here.other =
                  s.thread here.other := by
                simp [step, Side.other_ne]
              rw [hthread]
              exact ih here.other
      | owner here op =>
          cases here.eq_or_eq_other side with
          | inl hhere =>
              subst hhere
              have hthread : (s.step medium (.owner side op)).thread side =
                  (s.thread side).owner op := by
                simp [step]
              rw [hthread]
              exact (ih side).owner op
          | inr hthere =>
              subst hthere
              have hthread : (s.step medium (.owner here op)).thread here.other =
                  s.thread here.other := by
                simp [step, Side.other_ne]
              rw [hthread]
              exact ih here.other
      | carry here event =>
          cases here.eq_or_eq_other side with
          | inl hhere =>
              subst hhere
              have hthread : (s.step medium (.carry side event)).thread side =
                  (s.thread side).carry (medium.occur side event
                    (s.thread side.other).socket.datagramAdapter
                    (s.thread side).socket.datagramAdapter) := by
                simp [step]
              rw [hthread]
              exact (ih side).carry _
          | inr hthere =>
              subst hthere
              have hthread : (s.step medium (.carry here event)).thread here.other =
                  s.thread here.other := by
                simp [step, Side.other_ne]
              rw [hthread]
              exact ih here.other

/-- A connection that is over was shut down by rule 3, unless something is left to be given. -/
theorem Matched.shut_of_inactive {cfg : Side → TCPConfig} (hr : Network.Reached cfg net)
    (h : Matched medium net sys) {side : Side}
    (hinactive : (sys.thread side).socket.tcp.active = false)
    (hgiven : rule3.interest (sys.thread side).socket = false) :
    (sys.thread side).socket.inboundShutdown = true := by
  obtain ⟨sent, out, hserved, -⟩ := (h.backed side).served
  have hconnection := hserved.tracks.connection
  have hclose : (net.endpoint side).connection.close = true := by
    rw [hconnection]
    simpa [TCPConnection.active] using hinactive
  refine shut_of_given hgiven ?_
  rcases (hr.concludes side).closed hclose with herror | ⟨-, -, hin⟩
  · rw [hconnection] at herror
    exact Or.inl herror
  · rw [hconnection] at hin
    exact Or.inr hin

/-- What the owners see, while the streams are short enough for sequence numbers. -/
theorem Matched.delivers {cfg : Side → TCPConfig} (hcfg : Capacities cfg)
    (hr : Network.Reached cfg net) (h : Matched medium net sys) (hshut : sys.Shut net)
    (hlen : ∀ side, (sys.written side).length < 2 ^ 31 - 2) (side : Side) :
    (sys.pipe side).outbound <+: sys.written side.other ∧
      ((sys.pipe side).outboundEnd = true →
        (sys.thread side).socket.inboundStream.error = true ∨
          (sys.pipe side.other).inboundEnd = true ∧
            (sys.pipe side).outbound = sys.written side.other ∨
          (sys.thread side).LeftEarly) := by
  refine ⟨h.outbound_isPrefix hcfg hr hlen side, fun hend => ?_⟩
  have hdone : (sys.thread side).socket.inboundShutdown = true →
      (sys.thread side).socket.inboundStream.error = true ∨
        (sys.pipe side.other).inboundEnd = true ∧
          (sys.pipe side).outbound = sys.written side.other ∨ (sys.thread side).LeftEarly := by
    intro hdone
    rcases h.given_of_shut hshut hlen hdone with herror | hall
    · exact Or.inl herror
    · exact Or.inr (Or.inl hall)
  obtain ⟨sent, out, hserved, -⟩ := (h.backed side).served
  have hwho : ((sys.thread side).socket.inboundShutdown || (sys.thread side).phase.left) = true :=
    hserved.shut.symm.trans hend
  rcases Bool.or_eq_true_iff.mp hwho with hrule | hover
  · exact hdone hrule
  -- `_tcp_main` has shut down the owner's end
  have hfinished : (sys.thread side).phase = .finished := Phase.left_iff.mp hover
  cases hactive : (sys.thread side).socket.tcp.active with
  | true => exact Or.inr (Or.inr ⟨hfinished, Or.inl hactive⟩)
  | false =>
      cases hgive : rule3.interest (sys.thread side).socket with
      | true => exact Or.inr (Or.inr ⟨hfinished, Or.inr hgive⟩)
      | false => exact hdone (h.shut_of_inactive hr hactive hgive)

/-- What a thread that has finished leaves behind. -/
theorem Matched.finishes {cfg : Side → TCPConfig} (hcfg : Capacities cfg)
    (hr : Network.Reached cfg net) (h : Matched medium net sys) (hshut : sys.Shut net)
    (hlen : ∀ side, (sys.written side).length < 2 ^ 31 - 2) {side : Side}
    (hfirm : (sys.thread side).Firm adapt) (hfinished : (sys.thread side).phase = .finished) :
    (sys.thread side).socket.tcp.segmentsOut = [] ∧
      (sys.thread side).socket.inboundShutdown = true ∧
      ((sys.thread side).socket.inboundStream.error = true ∨
        ((sys.pipe side.other).inboundEnd = true ∧
          (sys.pipe side).outbound = sys.written side.other ∧
          (sys.pipe side.other).outbound ++ (sys.thread side.other).socket.inboundStream.buffer =
            sys.written side)) := by
  have hidle := hfirm.idle hfinished
  obtain ⟨sent, out, hserved, -⟩ := (h.backed side).served
  obtain ⟨sent', out', hother, -⟩ := (h.backed side.other).served
  have hconnection := hserved.tracks.connection
  have hclose : (net.endpoint side).connection.close = true := by
    rw [hconnection]
    simpa [TCPConnection.active] using hidle.inactive
  have hdone := h.shut_of_inactive hr hidle.inactive hidle.given
  refine ⟨hidle.sent, hdone, ?_⟩
  rcases h.given_of_shut hshut hlen hdone with herror | ⟨hinboundEnd, hall⟩
  · exact Or.inl herror
  rcases (hr.concludes side).closed hclose with herror | ⟨hended, hacked, -⟩
  · rw [hconnection] at herror
    exact Or.inl herror
  refine Or.inr ⟨hinboundEnd, hall, ?_⟩
  -- the other side holds what was acknowledged, and the owner's end of the pair is empty
  have hreceived := (hr.joined hcfg (h.short hlen)).received_of_acked hacked
  have hinbound : (sys.pipe side).inbound = [] :=
    (hserved.drained (Or.inr (hserved.tracks.ended.symm.trans hended))).2
  rw [Endpoint.received, hother.tracks.taken, hother.tracks.connection,
    hserved.tracks.accepted] at hreceived
  rw [← h.written side, hinbound, List.append_nil]
  exact hreceived

/-- What the owners see in any run of two sockets whose adapters stay open. -/
theorem delivers_of_reach (hr : Reached medium setup sys)
    (hready : ∀ side, medium.inv side (fun _ => False) [] ((setup side).configured adapt))
    (hopen : ∀ side arrives, adapt.StaysOpen (medium.inv side arrives))
    (hcfg : Capacities fun side => (setup side).cfg)
    (hlen : ∀ side, (sys.written side).length < 2 ^ 31 - 2) (side : Side) :
    (sys.pipe side).outbound <+: sys.written side.other ∧
      ((sys.pipe side).outboundEnd = true →
        (sys.thread side).socket.inboundStream.error = true ∨
          (sys.pipe side.other).inboundEnd = true ∧
            (sys.pipe side).outbound = sys.written side.other ∨
          (sys.thread side).LeftEarly) ∧
      (ReachedUndisturbed medium setup sys → ¬(sys.thread side).LeftEarly) := by
  obtain ⟨net, hreach, hmatched, hshut⟩ := refines_network hready hr
  obtain ⟨hpre, hend⟩ := hmatched.delivers hcfg hreach (hshut hcfg) hlen side
  exact ⟨hpre, hend, fun hquiet => (firm_of_reach hready hopen hquiet side).not_leftEarly⟩

end Sockets
end Sponge

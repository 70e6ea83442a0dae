import Sponge.EventLoop

/-!
# The invariant rule of the event loop

What the callbacks of some rules keep, `wait_next_event` keeps.  The rules are named by
`ι`.  A callback or a cancellation may rely on its `guard`, which `poll` has to establish
for every descriptor it reports ready or hung up, from what is `noted` since the rule was
asked for its interest; and what one rule does must leave what the others rely on as it is.
`Discipline` collects what has to be shown of the rules one by one, and
`waitNextEvent_spec` is the result for the loop.
-/

namespace Sponge
namespace EventLoop

open Program

variable {σ ι : Type}

/-- What `poll` reports of a rule: it is serviced, or it is cancelled. -/
inductive Report where
  | ready
  | hungUp
deriving DecidableEq, Repr

/-- What is asked of `poll` for a rule. -/
def asked (rule : Rule σ) (s : σ) : PollFd where
  fd := (rule.fd s).fd
  events := if rule.interest s then some rule.direction else none

/-- Rule `i`, which comes before rule `j`, and rule `j` leave what the other relies on as it
is: when rule `j` is cancelled, rule `i` has already been asked for its interest, and when rule
`i` is serviced, rule `j` has already been reported. -/
structure Leaves (rule : ι → Rule σ) (I : σ → Prop) (noted : ι → PollFd → σ → Prop)
    (guard : ι → Report → σ → Prop) (i j : ι) : Prop where
  noted : ∀ s asked, I s → guard j .hungUp s → noted i asked s →
    Yields (rule j).cancel s (fun _ => noted i asked) (fun _ _ => True)
  cancel : ∀ s report, I s → guard i .hungUp s → guard j report s →
    Yields (rule i).cancel s (fun _ => guard j report) (fun _ _ => True)
  callback : ∀ s report, I s → guard i .ready s → guard j report s →
    Yields (rule i).callback s (fun _ => guard j report) (fun _ _ => True)

/-- What has to be shown of the rules for the loop to keep `I`, and to throw only with
`E`. -/
structure Discipline (rule : ι → Rule σ) (I : σ → Prop) (noted : ι → PollFd → σ → Prop)
    (guard : ι → Report → σ → Prop) (E : Exception → σ → Prop) (names : List ι) : Prop where
  interest : ∀ i ∈ names, ∀ s, I s → noted i (asked (rule i) s) s
  /-- a descriptor at its end or closed is as good as one that hangs up -/
  ended : ∀ i ∈ names, ∀ s, I s →
    ((rule i).direction = .In ∧ ((rule i).fd s).eof = true) ∨ ((rule i).fd s).closed = true →
    guard i .hungUp s
  cancel : ∀ i ∈ names, ∀ s, I s → guard i .hungUp s → Yields (rule i).cancel s (fun _ => I) E
  /-- a callback reads or writes its descriptor, or is no longer interested -/
  callback : ∀ i ∈ names, ∀ s, I s → guard i .ready s →
    Yields (rule i).callback s
      (fun _ s' => I s' ∧
        ((rule i).serviceCount s = (rule i).serviceCount s' → (rule i).interest s' = false)) E
  apart : names.Pairwise (Leaves rule I noted guard)

/-- The rules with what is asked of `poll` for them. -/
def polling (rule : ι → Rule σ) (polled : List (ι × PollFd)) : List (Rule σ × PollFd) :=
  polled.map fun p => (rule p.1, p.2)

@[simp] theorem map_fst_polling (rule : ι → Rule σ) (polled : List (ι × PollFd)) :
    (polling rule polled).map Prod.fst = (polled.map Prod.fst).map rule := by
  simp [polling]

@[simp] theorem map_snd_polling (rule : ι → Rule σ) (polled : List (ι × PollFd)) :
    (polling rule polled).map Prod.snd = polled.map Prod.snd := by
  simp [polling]

/-- What is noted of the rules that are polled. -/
def Noted (noted : ι → PollFd → σ → Prop) (polled : List (ι × PollFd)) (s : σ) : Prop :=
  ∀ p ∈ polled, noted p.1 p.2 s

/-- A hangup is the only condition reported. -/
def HungUp (pollfd : PollFd) (revents : Revents) : Prop :=
  (revents.pollhup && pollfd.events.isSome && !pollfd.ready revents) = true

/-- The rules reported ready or hung up may rely on their guard. -/
def Granted (guard : ι → Report → σ → Prop) : List (ι × PollFd) → List Revents → σ → Prop
  | [], _, _ => True
  | (i, pollfd) :: rest, revents, s =>
      (pollfd.ready (revents.headD {}) = true → guard i .ready s) ∧
        (HungUp pollfd (revents.headD {}) → guard i .hungUp s) ∧
        Granted guard rest revents.tail s

/-- A rule of `names` that may never be cancelled is among those kept. -/
def Spares (guard : ι → Report → σ → Prop) (names kept : List ι) : Prop :=
  ∀ i ∈ names, (∀ s, ¬guard i .hungUp s) → i ∈ kept

/-- What the loop may assume of an answer of `poll`. -/
structure Answered (I : σ → Prop) (guard : ι → Report → σ → Prop) (E : Exception → σ → Prop)
    (polled : List (ι × PollFd)) (revents : List Revents) (s : σ) : Prop where
  granted : Granted guard polled revents s
  error : (∃ r ∈ revents, r.pollerr || r.pollnval) →
    ∀ s', I s' → E (.runtime ⟨"EventLoop: error on polled file descriptor"⟩) s'

section Spec

variable {rule : ι → Rule σ} {I : σ → Prop} {noted : ι → PollFd → σ → Prop}
  {guard : ι → Report → σ → Prop} {E : Exception → σ → Prop}

theorem Discipline.sublist {names kept : List ι} (d : Discipline rule I noted guard E names)
    (h : kept.Sublist names) : Discipline rule I noted guard E kept where
  interest := fun i hi => d.interest i (h.subset hi)
  ended := fun i hi => d.ended i (h.subset hi)
  cancel := fun i hi => d.cancel i (h.subset hi)
  callback := fun i hi => d.callback i (h.subset hi)
  apart := d.apart.sublist h

theorem Discipline.tail {i : ι} {names : List ι}
    (d : Discipline rule I noted guard E (i :: names)) : Discipline rule I noted guard E names :=
  d.sublist (List.sublist_cons_self i names)

theorem Spares.trans {names between kept : List ι} (h : Spares guard names between)
    (h' : Spares guard between kept) : Spares guard names kept :=
  fun i hi hnever => h' i (h i hi hnever) hnever

/-- One more rule stays. -/
theorem Spares.stay {i : ι} {names kept : List ι} (h : Spares guard names kept) :
    Spares guard (i :: names) (i :: kept) := by
  intro j hj hnever
  cases List.mem_cons.mp hj with
  | inl hhead => exact hhead ▸ List.mem_cons_self
  | inr hrest => exact List.mem_cons_of_mem i (h j hrest hnever)

/-- One more rule is cancelled. -/
theorem Spares.cancel {i : ι} {names kept : List ι} (h : Spares guard names kept) {s : σ}
    (hguard : guard i .hungUp s) : Spares guard (i :: names) kept := by
  intro j hj hnever
  cases List.mem_cons.mp hj with
  | inl hhead => exact absurd hguard (hhead ▸ hnever s)
  | inr hrest => exact h j hrest hnever

/-- The cancellations leave what is noted of another rule. -/
theorem prepare_keeps_noted {names : List ι} (d : Discipline rule I noted guard E names) {i : ι}
    (hi : ∀ j ∈ names, Leaves rule I noted guard i j) {pollfd : PollFd} {s : σ} (hs : I s)
    (hnoted : noted i pollfd s) :
    Yields (prepare (names.map rule)) s (fun _ => noted i pollfd) (fun _ _ => True) := by
  induction names generalizing s with
  | nil => exact hnoted
  | cons j rest ih =>
      have hrest : ∀ {s'}, I s' → noted i pollfd s' →
          Yields (prepare (rest.map rule)) s' (fun _ => noted i pollfd) (fun _ _ => True) :=
        ih d.tail fun j' hj' => hi j' (List.mem_cons_of_mem j hj')
      have hcancel : guard j .hungUp s →
          Yields (rule j).cancel s (fun _ s' => I s' ∧ noted i pollfd s') (fun _ _ => True) :=
        fun hguard => ((d.cancel j List.mem_cons_self s hs hguard).and
          ((hi j List.mem_cons_self).noted s pollfd hs hguard hnoted)).mono (fun _ _ h => h)
            fun _ _ _ => trivial
      have hended := d.ended j List.mem_cons_self s hs
      simp only [List.map_cons, prepare, yields_bind, yields_get, yields_ite, yields_pure]
      split
      · next heof =>
        exact (hcancel (hended (Or.inl heof))).mono (fun _ s' h => hrest h.1 h.2) fun _ _ h => h
      · split
        · next hclosed =>
          exact (hcancel (hended (Or.inr hclosed))).mono (fun _ s' h => hrest h.1 h.2)
            fun _ _ h => h
        · exact (hrest hs hnoted).mono (fun _ _ h => h) fun _ _ h => h

theorem prepare_spec {names : List ι} (d : Discipline rule I noted guard E names) {s : σ}
    (hs : I s) :
    Yields (prepare (names.map rule)) s
      (fun polled s' => I s' ∧ ∃ kept, polled = polling rule kept ∧
        (kept.map Prod.fst).Sublist names ∧ Spares guard names (kept.map Prod.fst) ∧
        Noted noted kept s') E := by
  induction names generalizing s with
  | nil => exact ⟨hs, [], rfl, List.Sublist.slnil, by simp [Spares], by simp [Noted]⟩
  | cons i rest ih =>
      have hcancel := d.cancel i List.mem_cons_self s hs
      have hended := d.ended i List.mem_cons_self s hs
      have hgone : guard i .hungUp s → ∀ s', I s' → Yields (prepare (rest.map rule)) s'
          (fun polled s'' => I s'' ∧ ∃ kept, polled = polling rule kept ∧
            (kept.map Prod.fst).Sublist (i :: rest) ∧
            Spares guard (i :: rest) (kept.map Prod.fst) ∧ Noted noted kept s'') E := by
        intro hguard s' hs'
        refine (ih d.tail hs').mono ?_ fun _ _ h => h
        rintro polled s'' ⟨hI, kept, rfl, hsub, hspares, hkept⟩
        exact ⟨hI, kept, rfl, hsub.trans (List.sublist_cons_self i rest),
          hspares.cancel hguard, hkept⟩
      simp only [List.map_cons, prepare, yields_bind, yields_get, yields_ite, yields_pure]
      split
      · next heof =>
        have hguard := hended (Or.inl heof)
        exact (hcancel hguard).mono (fun _ s' h => hgone hguard s' h) fun _ _ h => h
      split
      · next hclosed =>
        have hguard := hended (Or.inr hclosed)
        exact (hcancel hguard).mono (fun _ s' h => hgone hguard s' h) fun _ _ h => h
      -- the rule stays: the cancellations that follow leave what it has answered
      have hleaves : ∀ j ∈ rest, Leaves rule I noted guard i j :=
        (List.pairwise_cons.mp d.apart).1
      have hasked := d.interest i List.mem_cons_self s hs
      refine ((ih d.tail hs).and (prepare_keeps_noted d.tail hleaves hs hasked)).mono ?_
        fun _ _ h => h.1
      rintro polled s' ⟨⟨hI, kept, rfl, hsub, hspares, hkept⟩, hmine⟩
      refine ⟨hI, (i, asked (rule i) s) :: kept, rfl, hsub.cons_cons i, hspares.stay, ?_⟩
      intro p hp
      cases List.mem_cons.mp hp with
      | inl hhead =>
          subst hhead
          exact hmine
      | inr hrest => exact hkept p hrest

/-- What keeps the guard of every rule keeps what is granted. -/
theorem Granted.mono {polled : List (ι × PollFd)} {revents : List Revents} {s s' : σ}
    (h : Granted guard polled revents s)
    (hkeep : ∀ p ∈ polled, ∀ report, guard p.1 report s → guard p.1 report s') :
    Granted guard polled revents s' := by
  induction polled generalizing revents with
  | nil => trivial
  | cons p rest ih =>
      obtain ⟨i, pollfd⟩ := p
      obtain ⟨hready, hhup, hrest⟩ := h
      have hmine := hkeep (i, pollfd) List.mem_cons_self
      exact ⟨fun hr => hmine .ready (hready hr), fun hh => hmine .hungUp (hhup hh),
        ih hrest fun p hp => hkeep p (List.mem_cons_of_mem (i, pollfd) hp)⟩

/-- When `poll` fails, nothing is reported. -/
theorem granted_nil (polled : List (ι × PollFd)) (s : σ) : Granted guard polled [] s := by
  induction polled with
  | nil => trivial
  | cons p rest ih =>
      obtain ⟨i, pollfd⟩ := p
      refine ⟨fun hready => ?_, fun hhup => by simp [HungUp] at hhup, ih⟩
      unfold PollFd.ready at hready
      split at hready <;> simp at hready

/-- A program that keeps the guard of each rule keeps what is granted. -/
theorem granted_of_yields {polled : List (ι × PollFd)} {revents : List Revents} {α : Type}
    {m : EStateM Exception σ α} {s : σ} (h : Granted guard polled revents s)
    (hkeep : ∀ p ∈ polled, ∀ report, guard p.1 report s →
      Yields m s (fun _ => guard p.1 report) (fun _ _ => True)) :
    Yields m s (fun _ => Granted guard polled revents) (fun _ _ => True) := by
  cases hrun : m.run s with
  | error e s' => exact (yields_of_error hrun).mpr trivial
  | ok a s' =>
      refine (yields_of_ok hrun).mpr (h.mono fun p hp report hg => ?_)
      exact (hkeep p hp report hg).of_run_ok hrun

theorem dispatch_spec {polled : List (ι × PollFd)}
    (d : Discipline rule I noted guard E (polled.map Prod.fst)) {revents : List Revents} {s : σ}
    (hs : I s) (h : Answered I guard E polled revents s) :
    Yields (dispatch (polling rule polled) revents) s
      (fun kept s' => I s' ∧ ∃ names : List ι, kept = names.map rule ∧
        names.Sublist (polled.map Prod.fst) ∧ Spares guard (polled.map Prod.fst) names) E := by
  induction polled generalizing revents s with
  | nil => exact ⟨hs, [], rfl, List.Sublist.slnil, by simp [Spares]⟩
  | cons p rest ih =>
      obtain ⟨i, pollfd⟩ := p
      have hleaves : ∀ q ∈ rest, Leaves rule I noted guard i q.1 :=
        fun q hq => (List.pairwise_cons.mp d.apart).1 q.1 (List.mem_map_of_mem hq)
      have herror : (∃ e ∈ revents.tail, e.pollerr || e.pollnval) →
          ∀ s', I s' → E (.runtime ⟨"EventLoop: error on polled file descriptor"⟩) s' := by
        rintro ⟨e, he, hbad⟩
        exact h.error ⟨e, List.mem_of_mem_tail he, hbad⟩
      -- the rules after this one
      have hrest : ∀ s', I s' → Granted guard rest revents.tail s' →
          Yields (dispatch (polling rule rest) revents.tail) s'
            (fun kept s'' => I s'' ∧ ∃ names : List ι, kept = names.map rule ∧
              names.Sublist (rest.map Prod.fst) ∧ Spares guard (rest.map Prod.fst) names) E :=
        fun s' hs' hg => ih d.tail hs' ⟨hg, herror⟩
      have hstays : ∀ s', I s' → Granted guard rest revents.tail s' →
          Yields (dispatch (polling rule rest) revents.tail) s'
            (fun kept s'' => I s'' ∧ ∃ names : List ι, rule i :: kept = names.map rule ∧
              names.Sublist (i :: rest.map Prod.fst) ∧
              Spares guard (i :: rest.map Prod.fst) names) E := by
        intro s' hs' hg
        refine (hrest s' hs' hg).mono ?_ fun _ _ he => he
        rintro kept s'' ⟨hI, names, rfl, hsub, hspares⟩
        exact ⟨hI, i :: names, rfl, hsub.cons_cons i, hspares.stay⟩
      simp only [polling, dispatch, List.map_cons, yields_bind, yields_ite, yields_throw,
        yields_pure, yields_get]
      split
      · next hbad =>
        refine h.error ?_ s hs
        cases revents with
        | nil => simp at hbad
        | cons e es => exact ⟨e, List.mem_cons_self, hbad⟩
      split
      · next hhup =>
        have hguard := h.granted.2.1 hhup
        have hcancel := (d.cancel i List.mem_cons_self s hs hguard).and
          (granted_of_yields h.granted.2.2
            fun q hq report hg => (hleaves q hq).cancel s report hs hguard hg)
        refine hcancel.mono ?_ fun _ _ hk => hk.1
        rintro - s' ⟨hI, hg⟩
        refine (hrest s' hI hg).mono ?_ fun _ _ he => he
        rintro kept s'' ⟨hI', names, rfl, hsub, hspares⟩
        exact ⟨hI', names, rfl, hsub.trans (List.sublist_cons_self _ _), hspares.cancel hguard⟩
      split
      · next hready =>
        have hguard := h.granted.1 hready
        have hcallback := (d.callback i List.mem_cons_self s hs hguard).and
          (granted_of_yields h.granted.2.2
            fun q hq report hg => (hleaves q hq).callback s report hs hguard hg)
        refine hcallback.mono ?_ fun _ _ hk => hk.1
        rintro - s' ⟨⟨hI, hserviced⟩, hg⟩
        split
        · next hbusy => exact absurd (hserviced hbusy.1) (by simp [hbusy.2])
        · exact hstays s' hI hg
      · exact hstays s hs h.granted.2.2

/-- **The invariant rule.**  One call keeps `I`, throws only with `E`, adds no rule, and drops
none that may not be cancelled; it returns `Exit` only when no rule that is left was interested,
or `poll` was interrupted. -/
theorem waitNextEvent_spec {names : List ι} (d : Discipline rule I noted guard E names) {s : σ}
    (hs : I s) {poll : σ → List PollFd → PollAnswer}
    (hpoll : ∀ polled s', I s' → (polled.map Prod.fst).Sublist names →
      Noted noted polled s' → ∀ revents, poll s' (polled.map Prod.snd) = .ready revents →
        Answered I guard E polled revents s') :
    Yields (waitNextEvent (names.map rule) poll) s
      (fun r s' => I s' ∧ ∃ kept : List ι, r.2 = kept.map rule ∧ kept.Sublist names ∧
        Spares guard names kept ∧
        (r.1 = .Exit →
          (∀ i ∈ kept, ∃ pollfd : PollFd, pollfd.events = none ∧ noted i pollfd s') ∨
            ∃ s₀ fds, poll s₀ fds = .fails eintr))
      E := by
  simp only [waitNextEvent, yields_bind]
  refine (prepare_spec d hs).mono ?_ fun _ _ he => he
  rintro - s' ⟨hI, polled, rfl, hsub, hspares, hpolled⟩
  have hd := d.sublist hsub
  simp only [yields_ite, yields_pure, yields_bind, yields_get, map_fst_polling, map_snd_polling]
  split
  · next hnone =>
    refine ⟨hI, _, rfl, hsub, hspares, fun _ => Or.inl ?_⟩
    intro i hi
    obtain ⟨p, hp, rfl⟩ := List.mem_map.mp hi
    have hno : p.2.events.isNone = true :=
      List.all_eq_true.mp hnone (rule p.1, p.2) (List.mem_map_of_mem hp)
    exact ⟨p.2, Option.isNone_iff_eq_none.mp hno, hpolled p hp⟩
  · cases hanswer : poll s' (polled.map Prod.snd) with
    | timeout => exact ⟨hI, _, rfl, hsub, hspares, by simp⟩
    | ready revents =>
        simp only [yields_bind, yields_pure]
        refine (dispatch_spec hd hI (hpoll polled s' hI hsub hpolled revents hanswer)).mono ?_
          fun _ _ he => he
        rintro - s'' ⟨hI', kept, rfl, hkept, hspares'⟩
        exact ⟨hI', kept, rfl, hkept.trans hsub, hspares.trans hspares', by simp⟩
    | fails errno =>
        simp only [yields_ite, yields_bind, yields_pure]
        split
        · next heintr =>
          exact ⟨hI, _, rfl, hsub, hspares, fun _ => Or.inr ⟨_, _, by rw [hanswer, heintr]⟩⟩
        · refine (dispatch_spec hd hI ⟨granted_nil polled s', by simp⟩).mono ?_ fun _ _ he => he
          rintro - s'' ⟨hI', kept, rfl, hkept, hspares'⟩
          exact ⟨hI', kept, rfl, hkept.trans hsub, hspares.trans hspares', by simp⟩

end Spec

end EventLoop
end Sponge

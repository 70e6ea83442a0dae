import Mathlib.Tactic

/-!
# Runs of a deterministic machine and their invariants

A machine is a step function `step : σ → ι → σ` on states and inputs.  `Reach`
collects the states met by the runs whose every input is admitted in the state
in which it is given; `exec` runs a list of inputs.  The rules below turn a
statement about one step into a statement about every run.
-/

namespace Sponge
namespace Run

variable {σ ι : Type*}

/-- The states reached from `start` by inputs that `admits` lets through. -/
inductive Reach (step : σ → ι → σ) (admits : σ → ι → Prop) (start : σ) : σ → Prop
  | start : Reach step admits start start
  | next {s : σ} (i : ι) (hs : Reach step admits start s) (hi : admits s i) :
      Reach step admits start (step s i)

section Invariants

variable {step : σ → ι → σ} {admits : σ → ι → Prop} {start s : σ}

/-- What holds at the start and is kept by every admitted step holds in every
reached state. -/
theorem Reach.invariant {P : σ → Prop} (h : Reach step admits start s)
    (hstart : P start) (hstep : ∀ s i, admits s i → P s → P (step s i)) : P s := by
  induction h with
  | start => exact hstart
  | next i _ hi ih => exact hstep _ i hi ih

/-- The invariant rule for runs that stay within a bound.  The bound is only
asked of the last state: it is inherited backwards by every earlier one. -/
theorem Reach.invariant_of_bound {B P : σ → Prop} (h : Reach step admits start s)
    (hback : ∀ s i, B (step s i) → B s) (hstart : P start)
    (hstep : ∀ s i, admits s i → B (step s i) → P s → P (step s i)) :
    B s → P s := by
  induction h with
  | start => exact fun _ => hstart
  | @next s i _ hi ih =>
      intro hB
      exact hstep s i hi hB (ih (hback s i hB))

/-- A weaker admission condition reaches at least as much. -/
theorem Reach.mono {admits' : σ → ι → Prop} (h : Reach step admits start s)
    (hweak : ∀ s i, admits s i → admits' s i) : Reach step admits' start s := by
  induction h with
  | start => exact .start
  | next i _ hi ih => exact .next i ih (hweak _ i hi)

/-- What is reached from a reached state is reached. -/
theorem Reach.trans {t : σ} (h : Reach step admits start s) (h' : Reach step admits s t) :
    Reach step admits start t := by
  induction h' with
  | start => exact h
  | next i _ hi ih => exact .next i ih hi

end Invariants

/-- Run a list of inputs. -/
def exec (step : σ → ι → σ) (start : σ) (inputs : List ι) : σ :=
  inputs.foldl step start

@[simp] theorem exec_nil (step : σ → ι → σ) (start : σ) : exec step start [] = start := rfl

@[simp] theorem exec_append_singleton (step : σ → ι → σ) (start : σ) (inputs : List ι) (i : ι) :
    exec step start (inputs ++ [i]) = step (exec step start inputs) i := by
  simp [exec]

/-- Every input of the list is admitted in the state in which it is given. -/
def Admitted (step : σ → ι → σ) (admits : σ → ι → Prop) : σ → List ι → Prop
  | _, [] => True
  | s, i :: rest => admits s i ∧ Admitted step admits (step s i) rest

/-- Admission of a list can be checked by running it. -/
instance decidableAdmitted (step : σ → ι → σ) (admits : σ → ι → Prop)
    [∀ s i, Decidable (admits s i)] : ∀ s inputs, Decidable (Admitted step admits s inputs)
  | _, [] => inferInstanceAs (Decidable True)
  | s, i :: rest =>
      have := decidableAdmitted step admits (step s i) rest
      inferInstanceAs (Decidable (admits s i ∧ Admitted step admits (step s i) rest))

/-- An admitted list of inputs leads from a reached state to a reached state. -/
theorem Reach.exec {step : σ → ι → σ} {admits : σ → ι → Prop} {start s : σ} {inputs : List ι}
    (h : Reach step admits start s) (hin : Admitted step admits s inputs) :
    Reach step admits start (exec step s inputs) := by
  induction inputs generalizing s with
  | nil => exact h
  | cons i rest ih => exact ih (.next i h hin.1) hin.2

/-- The log of a machine is unchanged over a list of inputs exactly when every single
input leaves it unchanged: what was logged is never taken back. -/
theorem exec_log_eq_iff {α : Type*} {step : σ → ι → σ} {admits quiet : σ → ι → Prop}
    {P : σ → Prop} {L : σ → List α} (hkeep : ∀ s i, admits s i → P s → P (step s i))
    (hgrow : ∀ s i, admits s i → P s → L s <+: L (step s i))
    (hquiet : ∀ s i, admits s i → P s → (L (step s i) = L s ↔ quiet s i))
    {s : σ} {inputs : List ι} (hs : P s) (hin : Admitted step admits s inputs) :
    L s <+: L (exec step s inputs) ∧
      (L (exec step s inputs) = L s ↔ Admitted step quiet s inputs) := by
  induction inputs generalizing s with
  | nil => exact ⟨List.prefix_rfl, fun _ => trivial, fun _ => rfl⟩
  | cons i rest ih =>
      have hfirst := hgrow s i hin.1 hs
      obtain ⟨hrest, hiff⟩ := ih (hkeep s i hin.1 hs) hin.2
      refine ⟨hfirst.trans hrest, ?_, ?_⟩
      · intro hsame
        -- the log is back where it was, so the first input has not made it longer
        have hback : L (step s i) <+: L s := by
          rw [← hsame]
          exact hrest
        have heq : L (step s i) = L s := hback.eq_of_length_le hfirst.length_le
        exact ⟨(hquiet s i hin.1 hs).mp heq, hiff.mp (hsame.trans heq.symm)⟩
      · rintro ⟨hi, hadm⟩
        exact (hiff.mpr hadm).trans ((hquiet s i hin.1 hs).mpr hi)

theorem Admitted.of_forall {step : σ → ι → σ} {admits : σ → ι → Prop}
    (h : ∀ s i, admits s i) (s : σ) (inputs : List ι) : Admitted step admits s inputs := by
  induction inputs generalizing s with
  | nil => trivial
  | cons i rest ih => exact ⟨h s i, ih (step s i)⟩

end Run
end Sponge

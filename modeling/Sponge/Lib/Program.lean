import Mathlib.Tactic

/-!
# Programs that change a state and may throw

A program of `EStateM` ends with a result or with an exception, and in both cases
with a state: what it had changed before it threw stays changed.  `Yields` is its
weakest precondition at a state, with one postcondition for each way to end; the
equations below compute it along the program.  `zoom` runs a program on a part of
a larger state.
-/

namespace Sponge
namespace Program

variable {ε ε' σ τ α β : Type}

/-- Started in `s`, the program returns a result with `Q` or throws with `E`. -/
def Yields (m : EStateM ε σ α) (s : σ) (Q : α → σ → Prop) (E : ε → σ → Prop) : Prop :=
  match m.run s with
  | .ok a s' => Q a s'
  | .error e s' => E e s'

/-- Run a program on the part of the state that `view` shows and `put` replaces. -/
def zoom (view : σ → τ) (put : σ → τ → σ) (raise : ε' → ε) (m : EStateM ε' τ α) :
    EStateM ε σ α := fun s =>
  match m.run (view s) with
  | .ok a t => .ok a (put s t)
  | .error e t => .error (raise e) (put s t)

/-- A call that has no state. -/
def call (x : Except ε α) : EStateM ε σ α :=
  match x with
  | .ok a => pure a
  | .error e => throw e

section Rules

variable {m : EStateM ε σ α} {s : σ} {Q Q' : α → σ → Prop} {E E' : ε → σ → Prop}

theorem yields_of_ok {a : α} {s' : σ} (h : m.run s = .ok a s') : Yields m s Q E ↔ Q a s' := by
  rw [Yields, h]

theorem yields_of_error {e : ε} {s' : σ} (h : m.run s = .error e s') :
    Yields m s Q E ↔ E e s' := by
  rw [Yields, h]

theorem Yields.of_run_ok (h : Yields m s Q E) {a : α} {s' : σ} (hrun : m.run s = .ok a s') :
    Q a s' :=
  (yields_of_ok hrun).mp h

theorem Yields.mono (h : Yields m s Q E) (hok : ∀ a s', Q a s' → Q' a s')
    (herror : ∀ e s', E e s' → E' e s') : Yields m s Q' E' := by
  cases hrun : m.run s with
  | ok a s' =>
      rw [yields_of_ok hrun] at h ⊢
      exact hok a s' h
  | error e s' =>
      rw [yields_of_error hrun] at h ⊢
      exact herror e s' h

theorem Yields.and (h : Yields m s Q E) (h' : Yields m s Q' E') :
    Yields m s (fun a s' => Q a s' ∧ Q' a s') (fun e s' => E e s' ∧ E' e s') := by
  cases hrun : m.run s with
  | ok a s' =>
      rw [yields_of_ok hrun] at h h' ⊢
      exact ⟨h, h'⟩
  | error e s' =>
      rw [yields_of_error hrun] at h h' ⊢
      exact ⟨h, h'⟩

@[simp] theorem yields_pure (a : α) : Yields (pure a : EStateM ε σ α) s Q E ↔ Q a s := Iff.rfl

@[simp] theorem yields_throw (e : ε) : Yields (throw e : EStateM ε σ α) s Q E ↔ E e s := Iff.rfl

@[simp] theorem yields_get {Q : σ → σ → Prop} :
    Yields (get : EStateM ε σ σ) s Q E ↔ Q s s := Iff.rfl

@[simp] theorem yields_set {Q : PUnit → σ → Prop} (t : σ) :
    Yields (set t : EStateM ε σ PUnit) s Q E ↔ Q ⟨⟩ t := Iff.rfl

@[simp] theorem yields_modify {Q : PUnit → σ → Prop} (f : σ → σ) :
    Yields (modify f : EStateM ε σ PUnit) s Q E ↔ Q ⟨⟩ (f s) := Iff.rfl

@[simp] theorem yields_bind (f : α → EStateM ε σ β) {Q : β → σ → Prop} :
    Yields (m >>= f) s Q E ↔ Yields m s (fun a s' => Yields (f a) s' Q E) E := by
  have hbind : (m >>= f).run s =
      match m.run s with
      | .ok a s' => (f a).run s'
      | .error e s' => .error e s' := rfl
  unfold Yields
  rw [hbind]
  cases m.run s with
  | ok a s' => exact Iff.rfl
  | error e s' => exact Iff.rfl

@[simp] theorem yields_ite {c : Prop} [Decidable c] {m' : EStateM ε σ α} :
    Yields (if c then m else m') s Q E ↔ if c then Yields m s Q E else Yields m' s Q E := by
  split <;> exact Iff.rfl

@[simp] theorem yields_call_ok (a : α) :
    Yields (call (.ok a) : EStateM ε σ α) s Q E ↔ Q a s := Iff.rfl

@[simp] theorem yields_call_error (e : ε) :
    Yields (call (.error e) : EStateM ε σ α) s Q E ↔ E e s := Iff.rfl

theorem yields_call {x : Except ε α} :
    Yields (call x : EStateM ε σ α) s Q E ↔
      (∀ a, x = .ok a → Q a s) ∧ ∀ e, x = .error e → E e s := by
  cases x with
  | ok a => simp
  | error e => simp

@[simp] theorem yields_zoom {view : σ → τ} {put : σ → τ → σ} {raise : ε' → ε}
    {m : EStateM ε' τ α} :
    Yields (zoom view put raise m) s Q E ↔
      Yields m (view s) (fun a t => Q a (put s t)) (fun e t => E (raise e) (put s t)) := by
  have hzoom : (zoom view put raise m).run s =
      match m.run (view s) with
      | .ok a t => .ok a (put s t)
      | .error e t => .error (raise e) (put s t) := rfl
  unfold Yields
  rw [hzoom]
  cases m.run (view s) with
  | ok a t => exact Iff.rfl
  | error e t => exact Iff.rfl

end Rules

end Program
end Sponge

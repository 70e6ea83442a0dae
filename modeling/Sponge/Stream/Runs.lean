import Sponge.ByteStream
import Sponge.Lib.Run

/-!
# Runs of a byte stream

`end_input` sets a flag that `write` does not look at.  So the input is frozen after
`end_input` exactly as long as no later `write` brings data for which there is room.
-/

namespace Sponge

/-- What can be done with a stream. -/
inductive StreamOp where
  | write (data : List Byte)
  | endInput
  | read (len : Nat)
  | peekOutput (len : Nat)
  | popOutput (len : Nat)
deriving DecidableEq, Repr

namespace ByteStream

def step (s : ByteStream) : StreamOp → ByteStream
  | .write data => (s.write data).1
  | .endInput => s.endInput
  | .read len => (s.read len).1
  | .peekOutput _ => s
  | .popOutput len => s.popOutput len

/-- A stream of the given capacity after some operations. -/
def after (capacity : Nat) (ops : List StreamOp) : ByteStream :=
  Run.exec step { capcity := capacity } ops

/-- Nothing is taken from a stream at its end. -/
theorem eof_read {s : ByteStream} (h : s.eof = true) (len : Nat) : (s.read len).1.eof = true := by
  rw [eof, Bool.and_eq_true, beq_iff_eq] at h
  rw [eof, read_size, read_inputEnd, h.1, h.2, Nat.zero_sub]
  rfl

/-- What every run keeps: the stream is valid, and its counter is a 64-bit number. -/
structure Sound (s : ByteStream) : Prop where
  valid : s.Valid
  counter_lt : s.totoalWrite < 2 ^ 64

theorem sound_new (capacity : Nat) : Sound { capcity := capacity } where
  valid := valid_new capacity
  counter_lt := Nat.two_pow_pos 64

theorem Sound.step {s : ByteStream} (h : s.Sound) (op : StreamOp) : (s.step op).Sound := by
  cases op with
  | write data => exact ⟨h.valid.write data, Word.add_lt _ _ _⟩
  | endInput => exact ⟨h.valid.endInput, h.counter_lt⟩
  | read len => exact ⟨h.valid.read len, h.counter_lt⟩
  | peekOutput len => exact h
  | popOutput len => exact ⟨h.valid.read len, h.counter_lt⟩

theorem sound_after (capacity : Nat) (ops : List StreamOp) : (after capacity ops).Sound := by
  induction ops using List.reverseRecOn with
  | nil => exact sound_new capacity
  | append_singleton ops op ih =>
      rw [after, Run.exec_append_singleton]
      exact ih.step op

/-! ## After `end_input` -/

/-- A write accepts nothing and changes nothing. -/
def Refuses (s : ByteStream) : StreamOp → Prop
  | .write data => s.write data = (s, 0)
  | _ => True

/-- A write has nothing to bring, or finds the buffer full. -/
def NothingFits (s : ByteStream) : StreamOp → Prop
  | .write data => data = [] ∨ s.bufferSize = s.capcity
  | _ => True

instance (s : ByteStream) : ∀ op, Decidable (s.Refuses op)
  | .write _ => inferInstanceAs (Decidable (_ = _))
  | .endInput => isTrue trivial
  | .read _ => isTrue trivial
  | .peekOutput _ => isTrue trivial
  | .popOutput _ => isTrue trivial

instance (s : ByteStream) : ∀ op, Decidable (s.NothingFits op)
  | .write _ => inferInstanceAs (Decidable (_ ∨ _))
  | .endInput => isTrue trivial
  | .read _ => isTrue trivial
  | .peekOutput _ => isTrue trivial
  | .popOutput _ => isTrue trivial

theorem write_of_nothingFits {s : ByteStream} (h : s.Sound) {data : List Byte}
    (hfits : data = [] ∨ s.bufferSize = s.capcity) : s.write data = (s, 0) := by
  have hzero : min data.length (s.capcity - s.size) = 0 := by
    cases hfits with
    | inl hnil => simp [hnil]
    | inr hfull =>
        have hsize : s.size = s.capcity := hfull
        omega
  have hsum : Word.add 64 s.totoalWrite 0 = s.totoalWrite := Word.add_zero h.counter_lt
  unfold write
  rw [hzero]
  simp [hsum]

theorem Sound.refuses_iff {s : ByteStream} (h : s.Sound) (op : StreamOp) :
    s.Refuses op ↔ s.NothingFits op := by
  cases op with
  | write data =>
      have hle := h.valid.size_le
      constructor
      · intro hsame
        have hzero : min data.length (s.capcity - s.size) = 0 := congrArg Prod.snd hsame
        have hempty : data.length = 0 ∨ s.size = s.capcity := by omega
        rwa [List.length_eq_zero_iff] at hempty
      · exact write_of_nothingFits h
  | endInput => exact Iff.rfl
  | read len => exact Iff.rfl
  | peekOutput len => exact Iff.rfl
  | popOutput len => exact Iff.rfl

/-- What stays as it is while writes are refused: the count, and an end that has been
reached. -/
theorem step_of_refuses {s : ByteStream} {op : StreamOp} (h : s.Refuses op) :
    (s.step op).bytesWritten = s.bytesWritten ∧ (s.eof = true → (s.step op).eof = true) := by
  cases op with
  | write data =>
      have hsame : (s.write data).1 = s := congrArg Prod.fst h
      show (s.write data).1.bytesWritten = _ ∧ (_ → (s.write data).1.eof = true)
      rw [hsame]
      exact ⟨rfl, id⟩
  | endInput =>
      refine ⟨rfl, fun heof => ?_⟩
      rw [eof, Bool.and_eq_true] at heof
      show (true && s.size == 0) = true
      rw [heof.2, Bool.and_true]
  | read len => exact ⟨rfl, fun heof => eof_read heof len⟩
  | peekOutput len => exact ⟨rfl, id⟩
  -- `pop_output` leaves the stream that `read` leaves
  | popOutput len => exact ⟨rfl, fun heof => eof_read heof len⟩

/-- The input is frozen along a run: every write is refused, the count of the bytes
written stays what it is, and `eof`, once true, stays true. -/
structure Frozen (s : ByteStream) (ops : List StreamOp) : Prop where
  refused : Run.Admitted step Refuses s ops
  bytesWritten : ∀ pre, pre <+: ops → (Run.exec step s pre).bytesWritten = s.bytesWritten
  eof : ∀ pre, pre <+: ops → (Run.exec step s pre).eof = true → (Run.exec step s ops).eof = true

theorem frozen_of_refused {s : ByteStream} {ops : List StreamOp}
    (h : Run.Admitted step Refuses s ops) : Frozen s ops := by
  induction ops generalizing s with
  | nil =>
      refine ⟨trivial, fun pre hpre => ?_, fun pre hpre heof => ?_⟩
      · rw [List.prefix_nil.mp hpre]
        rfl
      · rwa [List.prefix_nil.mp hpre] at heof
  | cons op rest ih =>
      obtain ⟨hcount, hkeep⟩ := step_of_refuses h.1
      have hrest := ih h.2
      refine ⟨h, fun pre hpre => ?_, fun pre hpre heof => ?_⟩
      · cases pre with
        | nil => rfl
        | cons op' pre' =>
            obtain ⟨rfl, hpre'⟩ := List.cons_prefix_cons.mp hpre
            exact (hrest.bytesWritten pre' hpre').trans hcount
      · cases pre with
        | nil => exact hrest.eof [] (List.nil_prefix) (hkeep heof)
        | cons op' pre' =>
            obtain ⟨rfl, hpre'⟩ := List.cons_prefix_cons.mp hpre
            exact hrest.eof pre' hpre' heof

/-- Refusing a run is a matter of its single steps. -/
theorem Sound.admitted_iff {s : ByteStream} (h : s.Sound) (ops : List StreamOp) :
    Run.Admitted ByteStream.step Refuses s ops ↔
      Run.Admitted ByteStream.step NothingFits s ops := by
  induction ops generalizing s with
  | nil => exact Iff.rfl
  | cons op rest ih =>
      simp only [Run.Admitted]
      rw [h.refuses_iff op, ih (h.step op)]

end ByteStream

/-- **The input is frozen after `end_input`** in every run after which no write brings
data for which there is room, and in no other. -/
theorem frozen_after_end_input_iff (capacity : Nat) (before ops : List StreamOp) :
    ByteStream.Frozen (ByteStream.after capacity (before ++ [.endInput])) ops ↔
      Run.Admitted ByteStream.step ByteStream.NothingFits
        (ByteStream.after capacity (before ++ [.endInput])) ops := by
  have hsound := ByteStream.sound_after capacity (before ++ [.endInput])
  rw [← hsound.admitted_iff]
  exact ⟨fun h => h.refused, ByteStream.frozen_of_refused⟩

/-- A byte is written after `end_input`: it is accepted and counted, and the stream is
no longer at its end. -/
theorem write_after_end_input :
    (ByteStream.after 4 [.endInput]).write [104] =
        ({ ByteStream.after 4 [.endInput] with buffer := [104], size := 1, totoalWrite := 1 }, 1) ∧
      (ByteStream.after 4 [.endInput]).eof = true ∧
      (ByteStream.after 4 [.endInput, .write [104]]).eof = false ∧
      ¬ByteStream.Frozen (ByteStream.after 4 ([] ++ [.endInput])) [.write [104]] := by
  refine ⟨by decide +kernel, by decide +kernel, by decide +kernel, fun h => ?_⟩
  have hwrite := h.refused.1
  revert hwrite
  decide +kernel

end Sponge

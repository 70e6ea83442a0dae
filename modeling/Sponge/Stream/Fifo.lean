import Sponge.Stream.Runs

/-!
# A byte stream is a bounded queue

The buffer, its cached size and the two totals are four records of the same
history.  A run is read from outside: `accepts` collects what the calls of
`write` say they took, `removes` what `read` returned and what `peek_output`
showed before `pop_output`.  Every operation moves bytes from the front of the
buffer to what was removed, or from the data given to its back, and both totals
follow, so what was removed with the buffer behind it is what was accepted.
-/

namespace Sponge
namespace ByteStream

/-- What an operation takes in: of a `write`, as many bytes as it returns. -/
def acceptedBy (s : ByteStream) : StreamOp → List Byte
  | .write data => data.take (s.write data).2
  | _ => []

/-- What an operation takes out: the string `read` returns, and the string that
`peek_output` shows of what `pop_output` is going to remove. -/
def removedBy (s : ByteStream) : StreamOp → List Byte
  | .read len => (s.read len).2
  | .popOutput len => s.peekOutput len
  | _ => []

/-- All bytes taken in by a run. -/
def accepts : ByteStream → List StreamOp → List Byte
  | _, [] => []
  | s, op :: rest => s.acceptedBy op ++ accepts (s.step op) rest

/-- All bytes taken out by a run. -/
def removes : ByteStream → List StreamOp → List Byte
  | _, [] => []
  | s, op :: rest => s.removedBy op ++ removes (s.step op) rest

/-- Reading is peeking and then popping. -/
theorem read_eq (s : ByteStream) (len : Nat) :
    s.read len = (s.popOutput len, s.peekOutput len) :=
  rfl

/-! ## One operation -/

/-- One operation keeps the order of the bytes. -/
theorem removedBy_append_step (s : ByteStream) (op : StreamOp) :
    s.removedBy op ++ (s.step op).buffer = s.buffer ++ s.acceptedBy op := by
  cases op with
  | write data =>
      -- what `write` returns is how much of the data it has appended
      show [] ++ (s.write data).1.buffer = s.buffer ++ data.take (s.write data).2
      rw [List.nil_append]
      rfl
  | endInput => exact (List.append_nil s.buffer).symm
  | read len =>
      show (s.read len).2 ++ (s.read len).1.buffer = s.buffer ++ []
      rw [List.append_nil]
      exact List.take_append_drop _ s.buffer
  | peekOutput len => exact (List.append_nil s.buffer).symm
  | popOutput len =>
      show s.peekOutput len ++ (s.popOutput len).buffer = s.buffer ++ []
      rw [List.append_nil]
      exact List.take_append_drop _ s.buffer

theorem Valid.length_peekOutput {s : ByteStream} (h : s.Valid) (len : Nat) :
    (s.peekOutput len).length = min s.size len := by
  have hsize := h.size_eq
  rw [peekOutput, List.length_take]
  omega

/-- The totals count what an operation takes in and out. -/
theorem Sound.step_totals {s : ByteStream} (h : s.Sound) (hread : s.totoalRead < 2 ^ 64)
    (op : StreamOp) :
    (s.step op).totoalWrite = Word.add 64 s.totoalWrite (s.acceptedBy op).length ∧
      (s.step op).totoalRead = Word.add 64 s.totoalRead (s.removedBy op).length := by
  have hwrite0 : s.totoalWrite = Word.add 64 s.totoalWrite 0 :=
    (Word.add_zero h.counter_lt).symm
  have hread0 : s.totoalRead = Word.add 64 s.totoalRead 0 := (Word.add_zero hread).symm
  have hpeek := h.valid.length_peekOutput
  cases op with
  | write data =>
      refine ⟨?_, hread0⟩
      show (s.write data).1.totoalWrite = Word.add 64 s.totoalWrite
        (data.take (s.write data).2).length
      rw [write_totoalWrite, List.length_take, write_count, length_accepted]
      congr 1
      omega
  | endInput => exact ⟨hwrite0, hread0⟩
  | read len =>
      refine ⟨hwrite0, ?_⟩
      show (s.read len).1.totoalRead = Word.add 64 s.totoalRead (s.read len).2.length
      rw [read_eq, hpeek]
      rfl
  | peekOutput len => exact ⟨hwrite0, hread0⟩
  | popOutput len =>
      refine ⟨hwrite0, ?_⟩
      show (s.popOutput len).totoalRead = Word.add 64 s.totoalRead (s.peekOutput len).length
      rw [hpeek]
      rfl

@[simp] theorem step_capcity (s : ByteStream) (op : StreamOp) :
    (s.step op).capcity = s.capcity := by
  cases op <;> rfl

/-! ## Whole runs -/

/-- Along a run the bytes keep their order. -/
theorem removes_append_buffer (s : ByteStream) (ops : List StreamOp) :
    s.removes ops ++ (Run.exec step s ops).buffer = s.buffer ++ s.accepts ops := by
  induction ops generalizing s with
  | nil => exact (List.append_nil s.buffer).symm
  | cons op rest ih =>
      calc
        s.removes (op :: rest) ++ (Run.exec step s (op :: rest)).buffer
            = s.removedBy op ++
                ((s.step op).removes rest ++ (Run.exec step (s.step op) rest).buffer) :=
              List.append_assoc _ _ _
        _ = s.removedBy op ++ (s.step op).buffer ++ (s.step op).accepts rest := by
              rw [ih, List.append_assoc]
        _ = s.buffer ++ s.accepts (op :: rest) := by
              rw [removedBy_append_step, List.append_assoc]
              rfl

/-- Along a run the totals count the bytes, modulo the width of `size_t`. -/
theorem Sound.exec_totals {s : ByteStream} (h : s.Sound) (hread : s.totoalRead < 2 ^ 64)
    (ops : List StreamOp) :
    (Run.exec ByteStream.step s ops).totoalWrite =
        (s.totoalWrite + (s.accepts ops).length) % 2 ^ 64 ∧
      (Run.exec ByteStream.step s ops).totoalRead =
        (s.totoalRead + (s.removes ops).length) % 2 ^ 64 := by
  induction ops generalizing s with
  | nil => exact ⟨(Nat.mod_eq_of_lt h.counter_lt).symm, (Nat.mod_eq_of_lt hread).symm⟩
  | cons op rest ih =>
      obtain ⟨hwrite, hread'⟩ := h.step_totals hread op
      have hlt : (s.step op).totoalRead < 2 ^ 64 := by
        rw [hread']
        exact Word.add_lt _ _ _
      obtain ⟨ihwrite, ihread⟩ := ih (h.step op) hlt
      constructor
      · calc
          (Run.exec ByteStream.step s (op :: rest)).totoalWrite
              = ((s.step op).totoalWrite + ((s.step op).accepts rest).length) % 2 ^ 64 := ihwrite
          _ = (s.totoalWrite + (s.accepts (op :: rest)).length) % 2 ^ 64 := by
              rw [hwrite, Word.add_eq, Nat.mod_add_mod, accepts, List.length_append,
                Nat.add_assoc]
      · calc
          (Run.exec ByteStream.step s (op :: rest)).totoalRead
              = ((s.step op).totoalRead + ((s.step op).removes rest).length) % 2 ^ 64 := ihread
          _ = (s.totoalRead + (s.removes (op :: rest)).length) % 2 ^ 64 := by
              rw [hread', Word.add_eq, Nat.mod_add_mod, removes, List.length_append,
                Nat.add_assoc]

theorem after_capcity (capacity : Nat) (ops : List StreamOp) :
    (after capacity ops).capcity = capacity := by
  induction ops using List.reverseRecOn with
  | nil => rfl
  | append_singleton ops op ih =>
      rw [after, Run.exec_append_singleton, step_capcity]
      exact ih

/-- A stream that is a bounded queue with the given history. -/
structure BoundedFifo (capacity : Nat) (accepted removed : List Byte) (s : ByteStream) :
    Prop where
  /-- `write` takes the first bytes that there is room for, and returns their number. -/
  write : ∀ data : List Byte,
    (s.write data).2 = min data.length (capacity - s.bufferSize) ∧
      (s.write data).1.buffer =
        s.buffer ++ data.take (min data.length (capacity - s.bufferSize))
  /-- First in, first out. -/
  order : removed ++ s.buffer = accepted
  size_eq : s.bufferSize = s.buffer.length
  size_le : s.bufferSize ≤ capacity
  /-- The totals differ by what is buffered, as numbers of type `size_t`. -/
  totals : s.bytesWritten = Word.add 64 s.bytesRead s.bufferSize
  written : s.bytesWritten = accepted.length % 2 ^ 64
  read : s.bytesRead = removed.length % 2 ^ 64
  /-- Before a total overflows, they differ by it as integers. -/
  totals_exact : accepted.length < 2 ^ 64 → s.bytesWritten = s.bytesRead + s.bufferSize
  remaining : s.remainingCapacity = capacity - s.bufferSize
  /-- `read` is `peek_output` followed by `pop_output`. -/
  read_eq : ∀ len : Nat, s.read len = (s.popOutput len, s.peekOutput len)

end ByteStream

open ByteStream in
/-- **A byte stream is a bounded queue**, after every run of its operations. -/
theorem stream_bounded_fifo (capacity : Nat) (ops : List StreamOp) :
    BoundedFifo capacity (accepts { capcity := capacity } ops)
      (removes { capcity := capacity } ops) (after capacity ops) := by
  have hsound := sound_after capacity ops
  have hcap := after_capcity capacity ops
  have horder : removes { capcity := capacity } ops ++ (after capacity ops).buffer =
      accepts { capcity := capacity } ops := removes_append_buffer { capcity := capacity } ops
  obtain ⟨hwritten, hread⟩ :=
    (sound_new capacity).exec_totals (Nat.two_pow_pos 64) ops
  rw [Nat.zero_add] at hwritten hread
  change (after capacity ops).bytesWritten = _ at hwritten
  change (after capacity ops).bytesRead = _ at hread
  -- the history and the stream it has led to are all that is used from here on
  generalize after capacity ops = s at hsound hcap horder hwritten hread ⊢
  generalize accepts { capcity := capacity } ops = accepted at horder hwritten ⊢
  generalize removes { capcity := capacity } ops = removed at horder hread ⊢
  have hlength : accepted.length = removed.length + s.bufferSize := by
    rw [← horder, List.length_append]
    exact congrArg (removed.length + ·) hsound.valid.size_eq.symm
  subst hcap
  refine ⟨fun data => ⟨rfl, rfl⟩, horder, hsound.valid.size_eq, hsound.valid.size_le, ?_,
    hwritten, hread, ?_, rfl, fun len => rfl⟩
  · rw [hwritten, hread, hlength, Word.add_mod_left]
  · intro hlt
    rw [hwritten, hread, Nat.mod_eq_of_lt hlt, Nat.mod_eq_of_lt (by omega), hlength]

end Sponge

import Sponge.Reassembler.Push
import Sponge.Lib.Run
import Mathlib.Data.Set.Card

/-!
# The reassembler refines a naive one

The naive reassembler keeps one byte per index and knows nothing of segments:
each push overwrites the indices of the slice that lie in the window and moves
the contiguous run at the cursor to the output.  Every run of the real
reassembler, with any slices and reads in any order, agrees with it on the
output, on the cursor and on the number of indices still waiting.
-/

namespace Sponge

/-- One byte per index, a cursor, and everything moved out so far. -/
structure NaiveReassembler where
  capacity : Nat
  held : Nat → Option Byte := fun _ => none
  cur : Nat := 0
  output : List Byte := []
  taken : Nat := 0

namespace NaiveReassembler

/-- Bytes moved out and not yet read. -/
def bufferSize (n : NaiveReassembler) : Nat :=
  n.output.length - n.taken

/-- Store `data[j]` at `index + j` for the indices in the window, then move the
run at the cursor.  Nothing is held beyond the window, so its size bounds the
run. -/
def push (n : NaiveReassembler) (data : List Byte) (index : Nat) : NaiveReassembler :=
  let window := n.capacity - n.bufferSize
  let held := SparseBuffer.overwrite n.held data index n.cur (n.cur + window)
  let run := SparseBuffer.contiguous held n.cur window
  { n with
    held := SparseBuffer.clearBelow held (n.cur + run.length)
    cur := n.cur + run.length
    output := n.output ++ run }

/-- The reader takes up to `len` bytes. -/
def read (n : NaiveReassembler) (len : Nat) : NaiveReassembler :=
  { n with taken := n.taken + min n.bufferSize len }

end NaiveReassembler

/-- What can be done with a reassembler and its output stream. -/
inductive ReassemblerOp where
  | push (data : List Byte) (index : Nat) (eof : Bool)
  | read (len : Nat)
deriving DecidableEq, Repr

/-- A reassembler together with the bytes its reader has taken so far. -/
structure ReassemblerRun where
  reassembler : StreamReassembler
  taken : List Byte := []

namespace ReassemblerRun

def step (s : ReassemblerRun) : ReassemblerOp → ReassemblerRun
  | .push data index eof => { s with reassembler := s.reassembler.pushSubstring data index eof }
  | .read len =>
      { reassembler :=
          { s.reassembler with outputStream := (s.reassembler.outputStream.read len).1 }
        taken := s.taken ++ (s.reassembler.outputStream.read len).2 }

theorem step_push (s : ReassemblerRun) (data : List Byte) (index : Nat) (eof : Bool) :
    s.step (.push data index eof) =
      { s with reassembler := s.reassembler.pushSubstring data index eof } := rfl

/-- A push in range, as an update of the reassembler that `Pushed` describes. -/
theorem exists_step_push {s : ReassemblerRun} (h : s.reassembler.Rep) {data : List Byte}
    {index : Nat} (hlen : index + data.length < 2 ^ 64)
    (hcap : s.reassembler.curIdx + s.reassembler.capacity < 2 ^ 64)
    (hpos : 1 ≤ s.reassembler.capacity) (eof : Bool) :
    ∃ r', StreamReassembler.Pushed s.reassembler data index eof r' ∧
      s.step (.push data index eof) = { s with reassembler := r' } :=
  ⟨_, StreamReassembler.pushSubstring_spec h hlen hcap hpos eof, step_push s data index eof⟩

/-- A push whose indices, and those of the window, are below `2 ^ 64`. -/
def InRange (s : ReassemblerRun) : ReassemblerOp → Prop
  | .push data index _ =>
      index + data.length < 2 ^ 64 ∧ s.reassembler.curIdx + s.reassembler.capacity < 2 ^ 64
  | .read _ => True

instance (s : ReassemblerRun) : ∀ op, Decidable (s.InRange op)
  | .push _ _ _ => inferInstanceAs (Decidable (_ ∧ _))
  | .read _ => inferInstanceAs (Decidable True)

end ReassemblerRun

def NaiveReassembler.step (n : NaiveReassembler) : ReassemblerOp → NaiveReassembler
  | .push data index _ => n.push data index
  | .read len => n.read len

/-- The two reassemblers side by side. -/
abbrev ReassemblerPair := ReassemblerRun × NaiveReassembler

namespace ReassemblerPair

def start (capacity : Nat) : ReassemblerPair :=
  ({ reassembler := StreamReassembler.new capacity }, { capacity := capacity })

def step (p : ReassemblerPair) (op : ReassemblerOp) : ReassemblerPair :=
  (p.1.step op, p.2.step op)

@[simp] theorem step_fst (p : ReassemblerPair) (op : ReassemblerOp) :
    (step p op).1 = p.1.step op := rfl

@[simp] theorem step_snd (p : ReassemblerPair) (op : ReassemblerOp) :
    (step p op).2 = p.2.step op := rfl

/-- The pairs met by runs in which every push is in range. -/
def Reachable (capacity : Nat) : ReassemblerPair → Prop :=
  Run.Reach step (fun p op => p.1.InRange op) (start capacity)

end ReassemblerPair

/-- Same output, same cursor, and as many unassembled bytes as distinct indices
held. -/
structure Agrees (c : ReassemblerRun) (n : NaiveReassembler) : Prop where
  output : c.taken ++ c.reassembler.streamOut.buffer = n.output
  taken : c.taken.length = n.taken
  written : c.reassembler.streamOut.bytesWritten = n.cur
  cursor : c.reassembler.curIdx = n.cur
  unassembled : c.reassembler.unassembledBytes = Set.ncard {i | n.held i ≠ none}

/-- What carries the agreement from one step to the next. -/
structure Coupled (c : ReassemblerRun) (n : NaiveReassembler) : Prop where
  rep : c.reassembler.Rep
  capacity : c.reassembler.capacity = n.capacity
  held : StreamReassembler.held c.reassembler.segBuffer = n.held
  output : c.taken ++ c.reassembler.outputStream.buffer = n.output
  taken : c.taken.length = n.taken
  cursor : c.reassembler.curIdx = n.cur

theorem Coupled.bufferSize {c : ReassemblerRun} {n : NaiveReassembler} (h : Coupled c n) :
    n.bufferSize = c.reassembler.outputStream.size := by
  rw [NaiveReassembler.bufferSize, ← h.output, ← h.taken, h.rep.stream.size_eq,
    List.length_append]
  omega

theorem coupled_start (capacity : Nat) :
    Coupled (ReassemblerPair.start capacity).1 (ReassemblerPair.start capacity).2 where
  rep := StreamReassembler.rep_new capacity
  capacity := rfl
  held := rfl
  output := rfl
  taken := rfl
  cursor := rfl

/-- One push keeps the two coupled. -/
theorem Coupled.push {c : ReassemblerRun} {n : NaiveReassembler} (h : Coupled c n)
    {data : List Byte} {index : Nat} (hlen : index + data.length < 2 ^ 64)
    (hcap : c.reassembler.curIdx + c.reassembler.capacity < 2 ^ 64)
    (hpos : 1 ≤ c.reassembler.capacity) (eof : Bool) :
    Coupled (c.step (.push data index eof)) (n.step (.push data index eof)) := by
  obtain ⟨r', hpush, hstep⟩ := ReassemblerRun.exists_step_push h.rep hlen hcap hpos eof
  -- both cut the slice to the same window
  have hwindow : n.capacity - n.bufferSize =
      c.reassembler.capacity - c.reassembler.outputStream.size := by
    rw [h.bufferSize, h.capacity]
  have hstored : SparseBuffer.overwrite n.held data index n.cur
      (n.cur + (n.capacity - n.bufferSize)) = c.reassembler.stored data index := by
    rw [hwindow, ← h.cursor, ← h.held]
    rfl
  have harrived : SparseBuffer.contiguous (c.reassembler.stored data index) n.cur
      (n.capacity - n.bufferSize) = c.reassembler.arrived data index := by
    rw [hwindow, ← h.cursor]
    rfl
  have hnaive : n.step (.push data index eof) =
      { n with
        held := SparseBuffer.clearBelow (c.reassembler.stored data index)
          (n.cur + (c.reassembler.arrived data index).length)
        cur := n.cur + (c.reassembler.arrived data index).length
        output := n.output ++ c.reassembler.arrived data index } := by
    simp only [NaiveReassembler.step, NaiveReassembler.push, hstored, harrived]
  rw [hnaive, hstep]
  have hcur := hpush.cur
  rw [h.cursor] at hcur
  exact {
    rep := hpush.rep
    capacity := hpush.capacity.trans h.capacity
    held := by rw [hpush.held_eq, hcur]
    output := by rw [hpush.output, ← List.append_assoc, h.output]
    taken := h.taken
    cursor := hcur }

/-- Reading keeps the two coupled. -/
theorem Coupled.read {c : ReassemblerRun} {n : NaiveReassembler} (h : Coupled c n) (len : Nat) :
    Coupled (c.step (.read len)) (n.step (.read len)) := by
  have hvalid := h.rep.stream
  exact {
    rep := h.rep.read len
    capacity := h.capacity
    held := h.held
    output := by
      simp only [ReassemblerRun.step, NaiveReassembler.step, NaiveReassembler.read]
      rw [ByteStream.read_buffer _ _ hvalid, ByteStream.read_bytes _ _ hvalid, List.append_assoc,
        List.take_append_drop, h.output]
    taken := by
      simp only [ReassemblerRun.step, NaiveReassembler.step, NaiveReassembler.read]
      rw [ByteStream.read_bytes _ _ hvalid, List.length_append, List.length_take, h.taken,
        h.bufferSize, hvalid.size_eq, Nat.min_comm]
    cursor := h.cursor }

/-- The bytes of disjoint nodes are counted once per index. -/
theorem ncard_holdsIn {nodes : List Node} (hfits : ∀ n ∈ nodes, n.Fits)
    (hsorted : nodes.Pairwise Node.Before) :
    {i | ∃ b, HoldsIn nodes i b}.Finite ∧
      {i | ∃ b, HoldsIn nodes i b}.ncard = totalBytes nodes := by
  induction nodes with
  | nil => simp
  | cons n rest ih =>
      obtain ⟨hafter, hsorted'⟩ := List.pairwise_cons.mp hsorted
      obtain ⟨hfin, hcard⟩ := ih (fun m hm => hfits m (by simp [hm])) hsorted'
      have hspan : n.startIdx + n.data.length = n.endIdx + 1 := hfits n (by simp)
      -- the first node fills an interval, and the later nodes lie beyond it
      have hhead : {i | ∃ b, n.Holds i b} =
          (Finset.Ico n.startIdx (n.startIdx + n.data.length) : Set Nat) := by
        ext i
        simp only [Set.mem_ofPred_eq, Finset.coe_Ico, Set.mem_Ico]
        constructor
        · rintro ⟨b, hb⟩
          have hle := hb.le_endIdx (hfits n (by simp))
          have hge := hb.1
          omega
        · rintro ⟨hlo, hhi⟩
          exact Node.exists_holds (hfits n (by simp)) hlo (by omega)
      have hunion : {i | ∃ b, HoldsIn (n :: rest) i b} =
          {i | ∃ b, n.Holds i b} ∪ {i | ∃ b, HoldsIn rest i b} := by
        ext i
        simp [exists_or]
      have hdisj : Disjoint {i | ∃ b, n.Holds i b} {i | ∃ b, HoldsIn rest i b} := by
        rw [Set.disjoint_left]
        rintro i ⟨b, hb⟩ ⟨c, m, hm, hlo, -⟩
        have hle := hb.le_endIdx (hfits n (by simp))
        have hgap : n.endIdx + 1 < m.startIdx := hafter m hm
        omega
      have hheadfin : {i | ∃ b, n.Holds i b}.Finite := by
        rw [hhead]
        exact Finset.finite_toSet _
      refine ⟨by rw [hunion]; exact hheadfin.union hfin, ?_⟩
      rw [hunion, Set.ncard_union_eq hdisj hheadfin hfin, hcard, hhead, Set.ncard_coe_finset,
        totalBytes_cons, Nat.card_Ico]
      omega

theorem Coupled.agrees {c : ReassemblerRun} {n : NaiveReassembler} (h : Coupled c n) :
    Agrees c n where
  output := h.output
  taken := h.taken
  written := h.rep.written.trans h.cursor
  cursor := h.cursor
  unassembled := by
    have hset : {i | n.held i ≠ none} =
        {i | ∃ b, HoldsIn c.reassembler.segBuffer i b} := by
      ext i
      rw [← h.held]
      simp only [Set.mem_ofPred_eq, Option.ne_none_iff_exists', h.rep.held_iff]
    rw [hset, h.rep.total]
    exact (ncard_holdsIn h.rep.fits h.rep.sorted).2.symm

/-- Every reachable pair is coupled. -/
theorem coupled_of_reachable {capacity : Nat} (hpos : 1 ≤ capacity) {p : ReassemblerPair}
    (h : ReassemblerPair.Reachable capacity p) :
    Coupled p.1 p.2 ∧ p.2.capacity = capacity := by
  refine Run.Reach.invariant (P := fun p : ReassemblerPair =>
    Coupled p.1 p.2 ∧ p.2.capacity = capacity) h ⟨coupled_start capacity, rfl⟩ ?_
  rintro s op hop ⟨hcoupled, hcap⟩
  cases op with
  | push data index eof =>
      have hpos' : 1 ≤ s.1.reassembler.capacity := by
        rw [hcoupled.capacity, hcap]
        exact hpos
      exact ⟨hcoupled.push hop.1 hop.2 hpos' eof, hcap⟩
  | read len => exact ⟨hcoupled.read len, hcap⟩

/-- **Refinement.**  In every run of in-range pushes and of reads, the reassembler
agrees with the naive one. -/
theorem reassembler_agrees_with_naive {capacity : Nat} (hpos : 1 ≤ capacity)
    {p : ReassemblerPair} (h : ReassemblerPair.Reachable capacity p) :
    Agrees p.1 p.2 :=
  (coupled_of_reachable hpos h).1.agrees

/-- A run that buffers a byte beyond a hole, fills the hole with overlapping and
conflicting data, and reads. -/
theorem reassembler_agrees_with_naive_on_overlap :
    let p := Run.exec ReassemblerPair.step (ReassemblerPair.start 4)
      [.push [2, 3] 1 false, .push [1, 9] 0 true, .read 1]
    p.1.taken ++ p.1.reassembler.streamOut.buffer = [1, 9, 3] ∧ Agrees p.1 p.2 :=
  ⟨by decide +kernel,
    reassembler_agrees_with_naive (by decide) (Run.Reach.exec .start (by decide +kernel))⟩

end Sponge

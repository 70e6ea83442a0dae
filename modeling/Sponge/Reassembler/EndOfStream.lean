import Sponge.Reassembler.Refinement

/-!
# Assembling one stream, and when its end is signalled

All slices pushed are slices of one byte string `whole`, and only slices ending
at its end carry the `eof` flag.  Then the output is always a prefix of `whole`
(`Tracks`).  The end is signalled exactly when it is reached, as long as the
sentinel `UINT32_MAX` with which `_input_end_idx` starts is not mistaken for the
end: the cursor must stay below it until a slice with the flag has been pushed.
-/

namespace Sponge
namespace StreamReassembler

/-- The reassembler holds and has output bytes of `whole` only; `taken` is what
has been read from the output. -/
structure Tracks (r : StreamReassembler) (taken whole : List Byte) : Prop where
  rep : Rep r
  held : SparseBuffer.AgreesWith (held r.segBuffer) whole
  output : taken ++ r.outputStream.buffer = whole.take r.curIdx
  cur_le : r.curIdx ≤ whole.length

theorem tracks_new (capacity : Nat) (whole : List Byte) : Tracks (new capacity) [] whole where
  rep := rep_new capacity
  held := by
    intro i b hb
    simp [new, StreamReassembler.held] at hb
  output := by simp [new]
  cur_le := Nat.zero_le _

/-- A stream may still grow. -/
theorem Tracks.append {r : StreamReassembler} {taken whole : List Byte}
    (h : Tracks r taken whole) (more : List Byte) : Tracks r taken (whole ++ more) where
  rep := h.rep
  held := h.held.mono
  output := by rw [h.output, List.take_append_of_le_length h.cur_le]
  cur_le := by
    have hle := h.cur_le
    rw [List.length_append]
    omega

/-- Pushing a slice of the stream keeps track of it. -/
theorem Tracks.pushed {r r' : StreamReassembler} {taken whole : List Byte}
    (h : Tracks r taken whole) {data : List Byte} {index : Nat} {eof : Bool}
    (hdata : data = (whole.drop index).take data.length) (hpush : Pushed r data index eof r') :
    Tracks r' taken whole := by
  have hstored : SparseBuffer.AgreesWith (r.stored data index) whole := h.held.overwrite hdata
  have hrun := hstored.take_append_contiguous r.curIdx (r.capacity - r.outputStream.size)
  have hslice := hstored.contiguous r.curIdx (r.capacity - r.outputStream.size)
  change whole.take r.curIdx ++ r.arrived data index =
    whole.take (r.curIdx + (r.arrived data index).length) at hrun
  change r.arrived data index =
    (whole.drop r.curIdx).take (r.arrived data index).length at hslice
  have hle := h.cur_le
  exact {
    rep := hpush.rep
    held := by
      rw [hpush.held_eq]
      exact hstored.clearBelow _
    output := by rw [hpush.output, ← List.append_assoc, h.output, hrun, hpush.cur]
    cur_le := by
      have hlength := congrArg List.length hslice
      rw [List.length_take, List.length_drop] at hlength
      rw [hpush.cur]
      omega }

theorem Tracks.read {r : StreamReassembler} {taken whole : List Byte} (h : Tracks r taken whole)
    (len : Nat) :
    Tracks { r with outputStream := (r.outputStream.read len).1 }
      (taken ++ (r.outputStream.read len).2) whole where
  rep := h.rep.read len
  held := h.held
  output := by
    rw [ByteStream.read_buffer _ _ h.rep.stream, ByteStream.read_bytes _ _ h.rep.stream,
      List.append_assoc, List.take_append_drop]
    exact h.output
  cur_le := h.cur_le

end StreamReassembler

namespace ReassemblerOp

/-- The operation pushes a slice of `whole`, flagged only if it ends at the end;
reads are allowed. -/
def SliceOf (whole : List Byte) : ReassemblerOp → Prop
  | .push data index eof =>
      data = (whole.drop index).take data.length ∧ index + data.length ≤ whole.length ∧
        (eof = true → index + data.length = whole.length)
  | .read _ => True

def carriesEof : ReassemblerOp → Bool
  | .push _ _ eof => eof
  | .read _ => false

end ReassemblerOp

/-- Some slice of the run carried the `eof` flag. -/
def eofPushed (ops : List ReassemblerOp) : Bool :=
  ops.any ReassemblerOp.carriesEof

@[simp] theorem eofPushed_append_singleton (ops : List ReassemblerOp) (op : ReassemblerOp) :
    eofPushed (ops ++ [op]) = (eofPushed ops || op.carriesEof) := by
  simp [eofPushed]

/-- Both reassemblers after a run. -/
def runPair (capacity : Nat) (ops : List ReassemblerOp) : ReassemblerPair :=
  Run.exec ReassemblerPair.step (ReassemblerPair.start capacity) ops

/-- The output has ended exactly if the flag was pushed and all of `whole` has
been written. -/
def EndsExactly (capacity : Nat) (whole : List Byte) (ops : List ReassemblerOp) : Prop :=
  (runPair capacity ops).1.reassembler.streamOut.inputEnded = true ↔
    eofPushed ops = true ∧
      (runPair capacity ops).1.reassembler.streamOut.bytesWritten = whole.length

/-- What holds after every run on slices of `whole`; `eof` says whether the flag
has been pushed. -/
structure SliceRun (capacity : Nat) (whole : List Byte) (eof : Bool) (p : ReassemblerPair) :
    Prop where
  coupled : Coupled p.1 p.2
  capacity_eq : p.1.reassembler.capacity = capacity
  tracks : p.1.reassembler.Tracks p.1.taken whole
  inputEndIdx : p.1.reassembler.inputEndIdx = if eof then whole.length else 4294967295

theorem sliceRun_start (capacity : Nat) (whole : List Byte) :
    SliceRun capacity whole false (ReassemblerPair.start capacity) where
  coupled := coupled_start capacity
  capacity_eq := rfl
  tracks := StreamReassembler.tracks_new capacity whole
  inputEndIdx := by simp [ReassemblerPair.start, StreamReassembler.new]

section OneStream

variable {capacity : Nat} {whole : List Byte}

/-- One step of such a run; a push is described by `Pushed`. -/
theorem SliceRun.step (hpos : 1 ≤ capacity) (hcap : capacity < 2 ^ 62)
    (hwhole : whole.length ≤ 2 ^ 62) {eof : Bool} {p : ReassemblerPair}
    (h : SliceRun capacity whole eof p) {op : ReassemblerOp} (hop : op.SliceOf whole) :
    SliceRun capacity whole (eof || op.carriesEof) (ReassemblerPair.step p op) ∧
      ((ReassemblerPair.step p op).1.reassembler.outputStream.inputEnd = true →
        p.1.reassembler.outputStream.inputEnd = true ∨
        (ReassemblerPair.step p op).1.reassembler.inputEndIdx ≤
          (ReassemblerPair.step p op).1.reassembler.curIdx) ∧
      p.1.reassembler.curIdx ≤ (ReassemblerPair.step p op).1.reassembler.curIdx := by
  obtain ⟨c, n⟩ := p
  obtain ⟨hcoupled, hcapacity, htracks, hend⟩ := h
  simp only at hcoupled hcapacity htracks hend
  cases op with
  | push data index flag =>
      obtain ⟨hdata, hle, heof⟩ := hop
      -- no index of such a run comes near `2 ^ 64`
      have hcur := htracks.cur_le
      have hlen : index + data.length < 2 ^ 64 := by omega
      have hroom : c.reassembler.curIdx + c.reassembler.capacity < 2 ^ 64 := by omega
      have hone : 1 ≤ c.reassembler.capacity := by omega
      have hnext := hcoupled.push hlen hroom hone flag
      obtain ⟨r', hpush, hstep⟩ := ReassemblerRun.exists_step_push htracks.rep hlen hroom hone flag
      rw [hstep] at hnext
      rw [ReassemblerPair.step, hstep]
      refine ⟨⟨hnext, hpush.capacity.trans hcapacity, htracks.pushed hdata hpush, ?_⟩, ?_, ?_⟩
      · rw [hpush.inputEndIdx, hend]
        cases flag with
        | true => simp [ReassemblerOp.carriesEof, heof rfl]
        | false => simp [ReassemblerOp.carriesEof]
      · intro hended
        rw [hpush.inputEnd] at hended
        simpa using hended
      · rw [hpush.cur]
        exact Nat.le_add_right _ _
  | read len =>
      have hsame : (eof || ReassemblerOp.carriesEof (.read len)) = eof := Bool.or_false eof
      rw [hsame]
      exact ⟨⟨hcoupled.read len, hcapacity, htracks.read len, hend⟩, Or.inl, le_refl _⟩

/-- Without a flag, a cursor at the sentinel has ended the output. -/
theorem SliceRun.ended_of_sentinel {p : ReassemblerPair} (h : SliceRun capacity whole false p)
    (hcur : 4294967295 ≤ p.2.cur) : p.1.reassembler.streamOut.inputEnded = true := by
  apply h.tracks.rep.reached
  rw [h.inputEndIdx, h.coupled.cursor]
  simpa using hcur

/-- What holds after a whole run on slices of `whole`. -/
theorem sliceRun_of_slices (hpos : 1 ≤ capacity) (hcap : capacity < 2 ^ 62)
    (hwhole : whole.length ≤ 2 ^ 62) {ops : List ReassemblerOp}
    (hops : ∀ op ∈ ops, op.SliceOf whole) :
    SliceRun capacity whole (eofPushed ops) (runPair capacity ops) := by
  induction ops using List.reverseRecOn with
  | nil => exact sliceRun_start capacity whole
  | append_singleton ops op ih =>
      have hrec := ih fun o ho => hops o (by simp [ho])
      rw [runPair, Run.exec_append_singleton, eofPushed_append_singleton]
      exact (hrec.step hpos hcap hwhole (hops op (by simp))).1

/-- While the cursor stays below the sentinel before any flag, the output ends
only at the end of the stream.  By induction on the run. -/
theorem ended_only_at_end (hpos : 1 ≤ capacity) (hcap : capacity < 2 ^ 62)
    (hwhole : whole.length ≤ 2 ^ 62) {ops : List ReassemblerOp}
    (hops : ∀ op ∈ ops, op.SliceOf whole)
    (hbelow : ∀ pre, pre <+: ops → eofPushed pre = false →
      (runPair capacity pre).1.reassembler.curIdx < 4294967295)
    (hended : (runPair capacity ops).1.reassembler.outputStream.inputEnd = true) :
    eofPushed ops = true ∧ (runPair capacity ops).1.reassembler.curIdx = whole.length := by
  induction ops using List.reverseRecOn with
  | nil => simp [runPair, ReassemblerPair.start, StreamReassembler.new] at hended
  | append_singleton ops op ih =>
      have hrun := sliceRun_of_slices hpos hcap hwhole hops
      have hprev : SliceRun capacity whole (eofPushed ops) (runPair capacity ops) :=
        sliceRun_of_slices hpos hcap hwhole fun o ho => hops o (by simp [ho])
      obtain ⟨-, hcause, hmono⟩ := hprev.step hpos hcap hwhole (hops op (by simp))
      have hlast := hbelow (ops ++ [op]) (List.prefix_refl _)
      have hidx := hrun.inputEndIdx
      have hle := hrun.tracks.cur_le
      have hstep : runPair capacity (ops ++ [op]) =
          ReassemblerPair.step (runPair capacity ops) op := by
        rw [runPair, Run.exec_append_singleton]
        rfl
      rw [← hstep] at hcause hmono
      -- ended already before, or now, by reaching the recorded end
      rcases hcause hended with hbefore | hreached
      · have hrec := ih (fun o ho => hops o (by simp [ho]))
          (fun pre hpre => hbelow pre (hpre.trans (List.prefix_append _ _))) hbefore
        refine ⟨by simp [hrec.1], ?_⟩
        omega
      · by_cases hflag : eofPushed (ops ++ [op]) = true
        · rw [hflag, if_pos rfl] at hidx
          exact ⟨hflag, by omega⟩
        · have hno : eofPushed (ops ++ [op]) = false := Bool.eq_false_of_not_eq_true hflag
          rw [hno] at hidx
          have hlt := hlast hno
          simp only [Bool.false_eq_true, if_false] at hidx
          omega

end OneStream

/-- Number of leading bytes the naive reassembler has moved out after a run: the
first index not covered by the pushed slices, each cut to its window. -/
def naiveCursor (capacity : Nat) (ops : List ReassemblerOp) : Nat :=
  (Run.exec NaiveReassembler.step { capacity := capacity } ops).cur

theorem runPair_snd (capacity : Nat) (ops : List ReassemblerOp) :
    (runPair capacity ops).2 = Run.exec NaiveReassembler.step { capacity := capacity } ops := by
  induction ops using List.reverseRecOn with
  | nil => rfl
  | append_singleton ops op ih =>
      rw [runPair, Run.exec_append_singleton, Run.exec_append_singleton, ← ih]
      rfl

/-- **End of stream.**  Along a run on slices of one stream the end is signalled
exactly when it is reached, if and only if fewer than `2 ^ 32 - 1` leading bytes
are assembled before the first slice with the `eof` flag. -/
theorem endsExactly_iff_below_sentinel {capacity : Nat} {whole : List Byte}
    {ops : List ReassemblerOp} (hpos : 1 ≤ capacity) (hcap : capacity < 2 ^ 62)
    (hwhole : whole.length ≤ 2 ^ 62) (hops : ∀ op ∈ ops, op.SliceOf whole) :
    (∀ pre, pre <+: ops → EndsExactly capacity whole pre) ↔
      (∀ pre, pre <+: ops → eofPushed pre = false → naiveCursor capacity pre < 4294967295) := by
  have hslices : ∀ pre, pre <+: ops → ∀ op ∈ pre, op.SliceOf whole :=
    fun pre hpre op hop => hops op (hpre.subset hop)
  have hcursor : ∀ pre, pre <+: ops →
      (runPair capacity pre).1.reassembler.curIdx = naiveCursor capacity pre := by
    intro pre hpre
    have hrun := sliceRun_of_slices hpos hcap hwhole (hslices pre hpre)
    rw [hrun.coupled.cursor, runPair_snd]
    rfl
  constructor
  · intro hexact pre hpre hno
    have hrun := sliceRun_of_slices hpos hcap hwhole (hslices pre hpre)
    rw [hno] at hrun
    by_contra hge
    have hended := hrun.ended_of_sentinel (by rw [runPair_snd]; exact Nat.not_lt.mp hge)
    have hflag := ((hexact pre hpre).mp hended).1
    rw [hno] at hflag
    contradiction
  · intro hbelow pre hpre
    have hrun := sliceRun_of_slices hpos hcap hwhole (hslices pre hpre)
    have hwritten := hrun.tracks.rep.written
    constructor
    · intro hended
      obtain ⟨hflag, hcur⟩ := ended_only_at_end hpos hcap hwhole (hslices pre hpre)
        (fun q hq hno => by
          rw [hcursor q (hq.trans hpre)]
          exact hbelow q (hq.trans hpre) hno) hended
      exact ⟨hflag, hwritten.trans hcur⟩
    · rintro ⟨hflag, hall⟩
      apply hrun.tracks.rep.reached
      have hidx := hrun.inputEndIdx
      rw [hflag, if_pos rfl] at hidx
      have hall' : (runPair capacity pre).1.reassembler.outputStream.totoalWrite =
          whole.length := hall
      omega

/-- A two-byte stream arriving in order: the condition holds at every moment, and
so does the property. -/
theorem endsExactly_on_two_bytes :
    EndsExactly 4 [1, 2] [] ∧ EndsExactly 4 [1, 2] [.push [1] 0 false] ∧
      EndsExactly 4 [1, 2] [.push [1] 0 false, .push [2] 1 true] := by
  have hslices : ∀ op ∈ [ReassemblerOp.push [1] 0 false, .push [2] 1 true],
      op.SliceOf [1, 2] := by
    intro op hop
    fin_cases hop
    · exact ⟨rfl, by decide, by decide⟩
    · exact ⟨rfl, by decide, by decide⟩
  have hbelow : ∀ pre, pre <+: [ReassemblerOp.push [1] 0 false, .push [2] 1 true] →
      eofPushed pre = false → naiveCursor 4 pre < 4294967295 := by
    intro pre hpre
    rw [← List.mem_inits] at hpre
    fin_cases hpre <;> decide +kernel
  have hexact := (endsExactly_iff_below_sentinel (by decide) (by decide +kernel)
    (by decide +kernel) hslices).mpr hbelow
  exact ⟨hexact _ (by simp), hexact _ (by simp), hexact _ (by simp)⟩

/-- A slice pushed whole at the start is moved out whole. -/
theorem naiveCursor_push_start {capacity : Nat} {data : List Byte}
    (hfits : data.length ≤ capacity) (eof : Bool) :
    naiveCursor capacity [.push data 0 eof] = data.length := by
  have hrun : SparseBuffer.contiguous
      (SparseBuffer.overwrite (fun _ => none) data 0 0 (0 + capacity)) 0 capacity = data := by
    apply SparseBuffer.contiguous_eq
    · intro j hj
      have hin : 0 ≤ 0 + j ∧ 0 + j < 0 + capacity ∧ 0 ≤ 0 + j ∧ 0 + j < 0 + data.length := by omega
      simp [SparseBuffer.overwrite, hj]
      omega
    · exact hfits
    · intro _
      simp [SparseBuffer.overwrite]
  simp [naiveCursor, Run.exec, NaiveReassembler.step, NaiveReassembler.push,
    NaiveReassembler.bufferSize] at hrun ⊢
  rw [hrun]

/-- A stream of at least `2 ^ 32 - 1` bytes, pushed whole and without any flag,
ends all the same. -/
theorem not_endsExactly_unflagged {capacity : Nat} {whole : List Byte}
    (hcap : capacity < 2 ^ 62) (hfits : whole.length ≤ capacity)
    (hlen : 4294967295 ≤ whole.length) :
    ReassemblerOp.SliceOf whole (.push whole 0 false) ∧
      ¬ EndsExactly capacity whole [.push whole 0 false] := by
  have hslice : ReassemblerOp.SliceOf whole (.push whole 0 false) :=
    ⟨by simp, by simp, by simp⟩
  have hrun : SliceRun capacity whole (eofPushed [.push whole 0 false])
      (runPair capacity [.push whole 0 false]) :=
    sliceRun_of_slices (by omega) hcap (by omega) (by simpa using hslice)
  have hno : eofPushed [.push whole 0 false] = false := by
    simp [eofPushed, ReassemblerOp.carriesEof]
  have hcursor := naiveCursor_push_start hfits false
  rw [naiveCursor, ← runPair_snd] at hcursor
  rw [hno] at hrun
  have hended := hrun.ended_of_sentinel (by rw [hcursor]; exact hlen)
  refine ⟨hslice, fun hexact => ?_⟩
  have hflag := (hexact.mp hended).1
  rw [hno] at hflag
  contradiction

/-- The same on a concrete stream of zeros. -/
theorem zeros_end_without_eof :
    ReassemblerOp.SliceOf (List.replicate 4294967295 0)
        (.push (List.replicate 4294967295 0) 0 false) ∧
      ¬ EndsExactly 4294967295 (List.replicate 4294967295 0)
        [.push (List.replicate 4294967295 0) 0 false] := by
  have hlen : (List.replicate 4294967295 (0 : Byte)).length = 4294967295 := List.length_replicate
  exact not_endsExactly_unflagged (by norm_num) hlen.le hlen.ge

end Sponge

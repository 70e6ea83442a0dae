import Sponge.Reassembler.EndOfStream

/-!
# Which indices have arrived

The cursor of the reassembler is the first index that no slice has covered inside the
window it met.  A stream that fits into the capacity is never cut by the window, so it
is assembled as soon as its slices cover it, in whatever order they come.
-/

namespace Sponge

namespace StreamReassembler

variable {r r' : StreamReassembler} {data : List Byte} {index : Nat} {covered : Nat → Prop}

/-- The slice holds index `i`, and the window admits it. -/
def InWindow (r : StreamReassembler) (data : List Byte) (index i : Nat) : Prop :=
  r.curIdx ≤ i ∧ i < r.limit ∧ index ≤ i ∧ i < index + data.length

/-- What has been covered is what has been output and what is held. -/
structure Covers (r : StreamReassembler) (covered : Nat → Prop) : Prop where
  below : ∀ i, i < r.curIdx → covered i
  held_iff : ∀ i, held r.segBuffer i ≠ none ↔ r.curIdx ≤ i ∧ covered i

theorem covers_new (capacity : Nat) : Covers (new capacity) fun _ => False where
  below := by simp [new]
  held_iff := by simp [new, held]

theorem Covers.congr {covered' : Nat → Prop} (h : Covers r covered)
    (hiff : ∀ i, covered i ↔ covered' i) : Covers r covered' where
  below := fun i hi => (hiff i).mp (h.below i hi)
  held_iff := fun i => by rw [h.held_iff, hiff]

/-- The cursor is the first index that is not covered. -/
theorem Covers.not_covered_cur (h : Covers r covered) (hlayout : Layout r) :
    ¬covered r.curIdx := by
  intro hcur
  exact (h.held_iff r.curIdx).mpr ⟨le_refl _, hcur⟩ (hlayout.held_cur (le_refl _))

theorem stored_ne_none_iff (r : StreamReassembler) (data : List Byte) (index i : Nat) :
    r.stored data index i ≠ none ↔ r.InWindow data index i ∨ held r.segBuffer i ≠ none := by
  unfold stored SparseBuffer.overwrite
  split_ifs with hin
  · have hlt : i - index < data.length := by omega
    have hin' : r.InWindow data index i := hin
    simp [List.getElem?_eq_getElem hlt, hin']
  · have hout : ¬r.InWindow data index i := hin
    simp [hout]

/-- A push covers the part of the slice inside the window. -/
theorem Covers.moved (h : Covers r covered) (hmoved : Moved r data index r') :
    Covers r' fun i => covered i ∨ r.InWindow data index i := by
  have hstored : ∀ i, r.stored data index i ≠ none ↔
      r.InWindow data index i ∨ (r.curIdx ≤ i ∧ covered i) := by
    intro i
    rw [stored_ne_none_iff, h.held_iff]
  have hcur := hmoved.cur
  refine ⟨?_, ?_⟩
  · intro i hi
    by_cases hbelow : i < r.curIdx
    · exact Or.inl (h.below i hbelow)
    · -- the run that has arrived was stored
      have hrun : i - r.curIdx < (r.arrived data index).length := by omega
      have hget := SparseBuffer.getElem?_contiguous hrun
      have hne : r.stored data index i ≠ none := by
        rw [show i = r.curIdx + (i - r.curIdx) by omega, ← hget]
        simp only [ne_eq, List.getElem?_eq_none_iff, not_le]
        exact hrun
      rw [hstored] at hne
      rcases hne with hin | ⟨-, hold⟩
      · exact Or.inr hin
      · exact Or.inl hold
  · intro i
    rw [hmoved.held_eq, SparseBuffer.clearBelow]
    split_ifs with hlt
    · simp [not_le.mpr hlt]
    · rw [hstored]
      constructor
      · rintro (hin | ⟨-, hold⟩)
        · exact ⟨by omega, Or.inr hin⟩
        · exact ⟨by omega, Or.inl hold⟩
      · rintro ⟨-, hold | hin⟩
        · exact Or.inr ⟨by omega, hold⟩
        · exact Or.inl hin

theorem Covers.read (h : Covers r covered) (len : Nat) :
    Covers { r with outputStream := (r.outputStream.read len).1 } covered :=
  ⟨h.below, h.held_iff⟩

/-- The window ends `capacity` after what has been read. -/
theorem Layout.limit_eq (h : Layout r) : r.limit = r.outputStream.totoalRead + r.capacity := by
  have hread := h.read_add_size
  have hsize := h.size_le
  unfold limit
  omega

/-- Nothing is left to assemble once the whole stream has been output. -/
theorem Tracks.nothing_held {taken whole : List Byte} (h : Tracks r taken whole)
    (hall : r.curIdx = whole.length) : r.segBuffer = [] := by
  cases hbuf : r.segBuffer with
  | nil => rfl
  | cons n rest =>
      have hn : n ∈ r.segBuffer := by simp [hbuf]
      have hin := (h.rep.inside n hn).1
      obtain ⟨b, hb⟩ := Node.exists_holds (h.rep.fits n hn) (le_refl _) (h.rep.nonempty n hn)
      have hheld : StreamReassembler.held r.segBuffer n.startIdx = some b :=
        (h.rep.held_iff _ _).mpr ⟨n, hn, hb⟩
      have hlt := (List.getElem?_eq_some_iff.mp (h.held _ _ hheld)).1
      omega

@[simp] theorem endIfReached_buffer (r : StreamReassembler) :
    r.endIfReached.outputStream.buffer = r.outputStream.buffer := by
  unfold endIfReached
  split_ifs <;> rfl

@[simp] theorem endIfReached_unassembledBytes (r : StreamReassembler) :
    r.endIfReached.unassembledBytes = r.unassembledBytes := by
  unfold endIfReached
  split_ifs <;> rfl

/-- An empty slice only records the end. -/
theorem pushSubstring_nil (r : StreamReassembler) (index : Nat) (eof : Bool) :
    r.pushSubstring [] index eof =
      endIfReached { r with inputEndIdx := r.recordedEnd [] index eof } := by
  rw [pushSubstring_eq]
  simp

end StreamReassembler

/-! ## Slices in any order -/

/-- The operation pushes a slice that holds index `i`. -/
def ReassemblerOp.Reaches (i : Nat) : ReassemblerOp → Prop
  | .push data index _ => index ≤ i ∧ i < index + data.length
  | .read _ => False

namespace ReassemblerRun

/-- A reassembler of the given capacity after some pushes and reads. -/
def after (capacity : Nat) (ops : List ReassemblerOp) : ReassemblerRun :=
  Run.exec step { reassembler := StreamReassembler.new capacity } ops

theorem runPair_fst (capacity : Nat) (ops : List ReassemblerOp) :
    (runPair capacity ops).1 = after capacity ops := by
  induction ops using List.reverseRecOn with
  | nil => rfl
  | append_singleton ops op ih =>
      rw [runPair, Run.exec_append_singleton, after, Run.exec_append_singleton, ← after, ← ih]
      rfl

section OneStream

variable {capacity : Nat} {whole : List Byte} {ops : List ReassemblerOp}

/-- The slices of a stream that fits into the capacity are not cut. -/
theorem covers_after (hpos : 1 ≤ capacity) (hcap : capacity < 2 ^ 62)
    (hfits : whole.length ≤ capacity) (hops : ∀ op ∈ ops, op.SliceOf whole) :
    (after capacity ops).reassembler.Covers fun i => ∃ op ∈ ops, op.Reaches i := by
  induction ops using List.reverseRecOn with
  | nil => exact (StreamReassembler.covers_new capacity).congr (by simp)
  | append_singleton ops op ih =>
      have hcovers := ih fun o ho => hops o (by simp [ho])
      have hrun : SliceRun capacity whole (eofPushed ops) (runPair capacity ops) :=
        sliceRun_of_slices hpos hcap (by omega) fun o ho => hops o (by simp [ho])
      have htracks := hrun.tracks
      have hcapacity := hrun.capacity_eq
      rw [runPair_fst] at htracks hcapacity
      rw [after, Run.exec_append_singleton, ← after]
      have hsplit : ∀ i, (∃ o ∈ ops ++ [op], o.Reaches i) ↔
          (∃ o ∈ ops, o.Reaches i) ∨ op.Reaches i := by
        intro i
        simp [or_and_right, exists_or]
      cases op with
      | read len =>
          refine (hcovers.read len).congr fun i => ?_
          rw [hsplit]
          simp [ReassemblerOp.Reaches]
      | push data index eof =>
          obtain ⟨-, hle, -⟩ := hops (.push data index eof) (by simp)
          have hcur := htracks.cur_le
          have hlen : index + data.length < 2 ^ 64 := by omega
          obtain ⟨r', hpush, hstep⟩ := exists_step_push htracks.rep hlen (by omega) (by omega) eof
          rw [hstep]
          refine (hcovers.moved hpush.toMoved).congr fun i => ?_
          rw [hsplit]
          -- what the window cuts off has been output before
          have hlimit := htracks.rep.limit_eq
          constructor
          · rintro (hold | ⟨-, -, hin⟩)
            · exact Or.inl hold
            · exact Or.inr hin
          · rintro (hold | hin)
            · exact Or.inl hold
            · have hin' : index ≤ i ∧ i < index + data.length := hin
              by_cases hbelow : i < (after capacity ops).reassembler.curIdx
              · exact Or.inl (hcovers.below i hbelow)
              · exact Or.inr ⟨by omega, by omega, hin'⟩

/-- The stream has been assembled and ended, and nothing else is left. -/
structure Complete (s : ReassemblerRun) (whole : List Byte) : Prop where
  output : s.taken ++ s.reassembler.streamOut.buffer = whole
  ended : s.reassembler.streamOut.inputEnded = true
  unassembled : s.reassembler.unassembledBytes = 0
  empty : s.reassembler.empty = true

theorem complete_of_covered (hpos : 1 ≤ capacity) (hcap : capacity < 2 ^ 62)
    (hfits : whole.length ≤ capacity) (hops : ∀ op ∈ ops, op.SliceOf whole)
    (hcover : ∀ i, i < whole.length → ∃ op ∈ ops, op.Reaches i)
    (heof : eofPushed ops = true) : (after capacity ops).Complete whole := by
  have hcovers := covers_after hpos hcap hfits hops
  have hrun : SliceRun capacity whole (eofPushed ops) (runPair capacity ops) :=
    sliceRun_of_slices hpos hcap (by omega) hops
  have htracks := hrun.tracks
  have hidx := hrun.inputEndIdx
  rw [runPair_fst] at htracks hidx
  rw [heof, if_pos rfl] at hidx
  -- the first index that is not covered is the length of the stream
  have hall : (after capacity ops).reassembler.curIdx = whole.length := by
    have hle := htracks.cur_le
    by_contra hne
    exact hcovers.not_covered_cur htracks.rep.toLayout (hcover _ (by omega))
  have hzero : (after capacity ops).reassembler.unassembledBytes = 0 := by
    rw [htracks.rep.total, htracks.nothing_held hall]
    rfl
  refine ⟨?_, htracks.rep.reached (by omega), hzero, ?_⟩
  · have houtput := htracks.output
    rwa [hall, List.take_length] at houtput
  · simp [StreamReassembler.empty, hzero]

/-- Nothing but the end of an empty stream can arrive. -/
theorem complete_of_nil (hops : ∀ op ∈ ops, op.SliceOf []) (heof : eofPushed ops = true) :
    (after capacity ops).Complete [] := by
  have hinv : (after capacity ops).taken = [] ∧
      (after capacity ops).reassembler.outputStream.buffer = [] ∧
      (after capacity ops).reassembler.curIdx = 0 ∧
      (after capacity ops).reassembler.unassembledBytes = 0 ∧
      (eofPushed ops = true →
        (after capacity ops).reassembler.outputStream.inputEnd = true) := by
    clear heof
    induction ops using List.reverseRecOn with
    | nil => simp [after, StreamReassembler.new, eofPushed]
    | append_singleton ops op ih =>
        obtain ⟨htaken, hbuffer, hcur, hzero, hended⟩ := ih fun o ho => hops o (by simp [ho])
        rw [after, Run.exec_append_singleton, ← after, eofPushed_append_singleton]
        generalize after capacity ops = s at *
        cases op with
        | read len =>
            simp only [ReassemblerOp.carriesEof, Bool.or_false]
            refine ⟨?_, ?_, hcur, hzero, hended⟩
            · simp [step, ByteStream.read, htaken, hbuffer]
            · simp [step, ByteStream.read, hbuffer]
        | push data index eof =>
            obtain ⟨hdata, hle, -⟩ := hops (.push data index eof) (by simp)
            have hnil : data = [] := by simpa using hdata
            subst hnil
            have hindex : index = 0 := by simpa using hle
            subst hindex
            rw [step_push, StreamReassembler.pushSubstring_nil]
            refine ⟨htaken, by simpa using hbuffer, by simpa using hcur, by simpa using hzero, ?_⟩
            intro hor
            cases eof with
            | true => simp [StreamReassembler.recordedEnd, Word.add]
            | false =>
                have hbefore := hended (by simpa [ReassemblerOp.carriesEof] using hor)
                simp [hbefore]
  obtain ⟨htaken, hbuffer, -, hzero, hended⟩ := hinv
  refine ⟨?_, hended heof, hzero, ?_⟩
  · show _ ++ (after capacity ops).reassembler.outputStream.buffer = _
    rw [htaken, hbuffer]
    rfl
  · simp [StreamReassembler.empty, hzero]

end OneStream
end ReassemblerRun

/-- **The order of arrival does not matter.**  Slices that together cover a stream that
fits into the capacity, one of them flagged as its end, leave exactly the stream, ended,
in whatever order and however often they are pushed, and whatever is read in between. -/
theorem assembled_in_any_order {capacity : Nat} {whole : List Byte} {ops : List ReassemblerOp}
    (hcap : capacity < 2 ^ 62) (hfits : whole.length ≤ capacity)
    (hops : ∀ op ∈ ops, op.SliceOf whole)
    (hcover : ∀ i, i < whole.length → ∃ op ∈ ops, op.Reaches i)
    (heof : eofPushed ops = true) :
    (ReassemblerRun.after capacity ops).Complete whole := by
  by_cases hempty : whole = []
  · subst hempty
    exact ReassemblerRun.complete_of_nil hops heof
  · have hlen : 0 < whole.length := List.length_pos_of_ne_nil hempty
    exact ReassemblerRun.complete_of_covered (by omega) hcap hfits hops hcover heof

/-- The end of the stream comes first and is empty; the rest overlaps and is repeated. -/
def shuffledSlices : List ReassemblerOp :=
  [.push [] 3 true, .push [3] 2 false, .read 1, .push [1, 2] 0 false, .read 1,
    .push [2, 3] 1 true, .push [3] 2 false]

theorem assembled_in_any_order_shuffled :
    (ReassemblerRun.after 4 shuffledSlices).taken = [1] ∧
      (ReassemblerRun.after 4 shuffledSlices).Complete [1, 2, 3] := by
  refine ⟨by decide +kernel, assembled_in_any_order (by norm_num) (by decide) ?_ ?_ (by decide)⟩
  · intro op hop
    fin_cases hop
    all_goals simp [ReassemblerOp.SliceOf]
  · intro i hi
    by_cases hlast : i = 2
    · exact ⟨.push [3] 2 false, by simp [shuffledSlices], by simp [ReassemblerOp.Reaches, hlast]⟩
    · refine ⟨.push [1, 2] 0 false, by simp [shuffledSlices], ?_⟩
      have hi' : i < 3 := hi
      simp only [ReassemblerOp.Reaches, List.length_cons, List.length_nil]
      omega

end Sponge

import Sponge.Lib.Run
import Sponge.Reassembler.Push
import Sponge.Receiver.Runs

/-!
# Segments after the end of the stream

Neither the receiver nor the reassembler nor the stream tests whether the input has
ended, so a segment that carries the byte at the cursor is delivered after the end
as before it.  Apart from those, a stream that has ended stays as it is.
-/

namespace Sponge

namespace StreamReassembler

/-- Nothing is delivered exactly when the slice does not hold the byte at the cursor,
or there is no room for it. -/
theorem Rep.arrived_eq_nil_iff {r : StreamReassembler} (h : Rep r) {data : List Byte}
    {index : Nat} :
    r.arrived data index = [] ↔
      ¬(index ≤ r.curIdx ∧ r.curIdx < index + data.length ∧
        r.outputStream.size < r.capacity) := by
  have hlimit : r.limit = r.curIdx + (r.capacity - r.outputStream.size) := rfl
  unfold arrived
  by_cases hroom : r.outputStream.size < r.capacity
  · by_cases hcover : index ≤ r.curIdx ∧ r.curIdx < index + data.length
    · have hlt : r.curIdx - index < data.length := by omega
      have hstored : r.stored data index r.curIdx = some data[r.curIdx - index] := by
        rw [stored, SparseBuffer.overwrite, if_pos ⟨le_rfl, by omega, hcover.1, hcover.2⟩,
          List.getElem?_eq_getElem hlt]
      obtain ⟨fuel, hfuel⟩ := Nat.exists_eq_succ_of_ne_zero
        (show r.capacity - r.outputStream.size ≠ 0 by omega)
      rw [hfuel]
      simp [SparseBuffer.contiguous, hstored, hcover, hroom]
    · have hstored : r.stored data index r.curIdx = none := by
        rw [stored, SparseBuffer.overwrite, if_neg (by omega)]
        exact h.held_cur le_rfl
      rw [SparseBuffer.contiguous_eq_nil hstored]
      simp only [true_iff]
      omega
  · have hzero : r.capacity - r.outputStream.size = 0 := by omega
    rw [hzero]
    simp only [SparseBuffer.contiguous, true_iff]
    omega

end StreamReassembler

namespace TCPReceiver

/-- The payload of a segment holds the byte at the cursor, and there is room for it. -/
def Covers (r : TCPReceiver) (seg : TCPSegment) : Prop :=
  r.segStart seg ≤ r.streamOut.bytesWritten ∧
    r.streamOut.bytesWritten < r.segStart seg + seg.payload.length ∧
    r.streamOut.bufferSize < r.capacity

instance (r : TCPReceiver) (seg : TCPSegment) : Decidable (r.Covers seg) :=
  inferInstanceAs (Decidable (_ ∧ _ ∧ _))

/-- The capacity is the reassembler's, and the reassembler represents its window.  A
receiver without capacity never has room. -/
structure Assembles (r : TCPReceiver) : Prop where
  capacity_eq : r.reassembler.capacity = r.capacity
  stream_capacity : r.streamOut.capcity = r.capacity
  rep : 1 ≤ r.capacity → r.reassembler.Rep
  ended_isn : r.streamOut.inputEnded = true → r.recieveIsn = true

theorem assembles_new (capacity : Nat) : (new capacity).Assembles where
  capacity_eq := rfl
  stream_capacity := rfl
  rep := fun _ => StreamReassembler.rep_new capacity
  ended_isn := by simp [new, streamOut, StreamReassembler.streamOut, StreamReassembler.new,
    ByteStream.inputEnded]

/-- The indices of the segment and of the window are below `2 ^ 64`. -/
def InRange (r : TCPReceiver) (seg : TCPSegment) : Prop :=
  (r.noteSyn seg).segStart seg + seg.lengthInSequenceSpace < 2 ^ 64 ∧
    r.streamOut.bytesWritten + r.capacity < 2 ^ 64

instance (r : TCPReceiver) (seg : TCPSegment) : Decidable (r.InRange seg) :=
  inferInstanceAs (Decidable (_ ∧ _))

theorem Assembles.noteSyn {r : TCPReceiver} (h : r.Assembles) (seg : TCPSegment) :
    (r.noteSyn seg).Assembles where
  capacity_eq := by
    rw [noteSyn_reassembler, noteSyn_capacity]
    exact h.capacity_eq
  stream_capacity := by
    rw [streamOut, noteSyn_reassembler, noteSyn_capacity]
    exact h.stream_capacity
  rep := by
    rw [noteSyn_reassembler, noteSyn_capacity]
    exact h.rep
  ended_isn := by
    rw [streamOut, noteSyn_reassembler, noteSyn_recieveIsn]
    intro hended
    rw [h.ended_isn hended, Bool.true_or]

theorem Assembles.read {r : TCPReceiver} (h : r.Assembles) (len : Nat) :
    (r.read len).Assembles where
  capacity_eq := h.capacity_eq
  stream_capacity := h.stream_capacity
  rep := fun hpos => (h.rep hpos).read len
  ended_isn := h.ended_isn

theorem Assembles.pushed {r : TCPReceiver} (h : r.Assembles) {seg : TCPSegment}
    (hr : r.InRange seg) (hpos : 1 ≤ r.capacity) {pushed : StreamReassembler}
    (hpush : r.reassembler.pushSubstring seg.payload ((r.noteSyn seg).segStart seg)
      seg.header.fin = pushed) :
    StreamReassembler.Pushed r.reassembler seg.payload ((r.noteSyn seg).segStart seg)
      seg.header.fin pushed := by
  have hrep := h.rep hpos
  have hwritten : r.streamOut.bytesWritten = r.reassembler.curIdx := hrep.written
  have hcap := h.capacity_eq
  obtain ⟨hlen, hwin⟩ := hr
  have hle : seg.payload.length ≤ seg.lengthInSequenceSpace := by
    unfold TCPSegment.lengthInSequenceSpace
    omega
  rw [← hpush]
  exact StreamReassembler.pushSubstring_spec hrep (by omega) (by omega) (by omega) _

theorem Assembles.segmentReceived {r : TCPReceiver} (h : r.Assembles) {seg : TCPSegment}
    (hr : r.InRange seg) : (r.segmentReceived seg).Assembles := by
  rcases r.segmentReceived_cases seg with heq | ⟨hisn, pushed, hpush, heq⟩
  · rw [heq]
    exact h.noteSyn seg
  · obtain ⟨more, hmore⟩ := r.reassembler.pushSubstring_extends seg.payload
      ((r.noteSyn seg).segStart seg) seg.header.fin
    have hcapacity := r.reassembler.pushSubstring_capacity seg.payload
      ((r.noteSyn seg).segStart seg) seg.header.fin
    rw [hpush] at hmore hcapacity
    rw [heq]
    refine ⟨?_, ?_, ?_, fun _ => hisn⟩
    · show pushed.capacity = (r.noteSyn seg).capacity
      rw [hcapacity, noteSyn_capacity]
      exact h.capacity_eq
    · show pushed.outputStream.capcity = (r.noteSyn seg).capacity
      rw [hmore.capcity, noteSyn_capacity]
      exact h.stream_capacity
    · intro hpos
      rw [noteSyn_capacity] at hpos
      exact (h.pushed hr hpos hpush).rep

/-- The test that drops a segment before it reaches the reassembler. -/
def Outside (r : TCPReceiver) (seg : TCPSegment) : Prop :=
  r.segStart seg > r.winRight ∨
    Word.add 64 (r.segStart seg) seg.lengthInSequenceSpace ≤ r.streamOut.bytesWritten

theorem noteSyn_of_not_syn {r : TCPReceiver} {seg : TCPSegment} (hsyn : seg.header.syn = false) :
    r.noteSyn seg = r := by
  unfold noteSyn
  rw [if_neg (by simp [hsyn])]

theorem segmentReceived_of_outside {r : TCPReceiver} {seg : TCPSegment}
    (hsyn : seg.header.syn = false) (hisn : r.recieveIsn = true) (hout : r.Outside seg) :
    r.segmentReceived seg = r := by
  rw [segmentReceived]
  dsimp only
  rw [noteSyn_of_not_syn hsyn, if_neg (by simp [hisn])]
  exact if_pos hout

theorem segmentReceived_of_inside {r : TCPReceiver} {seg : TCPSegment}
    (hsyn : seg.header.syn = false) (hisn : r.recieveIsn = true) (hin : ¬r.Outside seg) :
    ∃ pushed, r.reassembler.pushSubstring seg.payload ((r.noteSyn seg).segStart seg)
        seg.header.fin = pushed ∧
      r.segmentReceived seg = { r with reassembler := pushed } := by
  refine ⟨_, rfl, ?_⟩
  rw [segmentReceived]
  dsimp only
  rw [noteSyn_of_not_syn hsyn, if_neg (by simp [hisn])]
  generalize r.reassembler.pushSubstring seg.payload (r.segStart seg) seg.header.fin = pushed
  exact if_neg hin

/-- What covers the cursor passes the window test. -/
theorem not_outside_of_covers {r : TCPReceiver} {seg : TCPSegment}
    (hsyn : seg.header.syn = false) (hr : r.InRange seg) (hcover : r.Covers seg) :
    ¬r.Outside seg := by
  obtain ⟨hlo, hhi, hroom⟩ := hcover
  obtain ⟨hlen, hwin⟩ := hr
  rw [noteSyn_of_not_syn hsyn] at hlen
  have hle : seg.payload.length ≤ seg.lengthInSequenceSpace := by
    unfold TCPSegment.lengthInSequenceSpace
    omega
  have hsize : r.windowSize = r.capacity - r.streamOut.bufferSize :=
    Word.sub_of_le (by omega) hroom.le
  have hright : r.winRight =
      r.capacity - r.streamOut.bufferSize + r.streamOut.bytesWritten - 1 := by
    unfold winRight
    rw [hsize]
    exact Word.sub_add_of_le (by omega) (by omega)
  unfold Outside
  rw [hright, Word.add_of_lt hlen]
  omega

/-- A segment without SYN delivers something exactly when it covers the cursor. -/
theorem Assembles.delivers_iff {r : TCPReceiver} (h : r.Assembles) {seg : TCPSegment}
    (hsyn : seg.header.syn = false) (hisn : r.recieveIsn = true) (hr : r.InRange seg)
    {more : List Byte} (hmore : r.streamOut.Extends (r.segmentReceived seg).streamOut more) :
    more = [] ↔ ¬r.Covers seg := by
  have hcap := h.stream_capacity
  have hfits := hmore.fits
  have hbuffer := hmore.buffer
  by_cases hroom : r.streamOut.bufferSize < r.capacity
  · have hpos : 1 ≤ r.capacity := by omega
    have hwritten : r.streamOut.bytesWritten = r.reassembler.curIdx := (h.rep hpos).written
    by_cases hout : r.Outside seg
    · have hnot : ¬r.Covers seg := fun hcover => not_outside_of_covers hsyn hr hcover hout
      rw [segmentReceived_of_outside hsyn hisn hout, List.self_eq_append_right] at hbuffer
      simp [hbuffer, hnot]
    · obtain ⟨pushed, hpush, heq⟩ := segmentReceived_of_inside hsyn hisn hout
      have hspec := h.pushed hr hpos hpush
      have hgrown : (r.segmentReceived seg).streamOut.buffer =
          r.streamOut.buffer ++
            r.reassembler.arrived seg.payload ((r.noteSyn seg).segStart seg) := by
        rw [heq]
        exact hspec.output
      rw [hbuffer, List.append_cancel_left_eq, noteSyn_of_not_syn hsyn] at hgrown
      rw [hgrown, (h.rep hpos).arrived_eq_nil_iff, ← hwritten, h.capacity_eq]
      exact Iff.rfl
  · -- no room: whatever the reassembler does, the stream accepts nothing
    have hsize : r.streamOut.bufferSize = r.streamOut.size := rfl
    have hnil : more = [] := List.length_eq_zero_iff.mp (by omega)
    have hnot : ¬r.Covers seg := fun hcover => hroom hcover.2.2
    simp [hnil, hnot]

end TCPReceiver

namespace ReceiverRun

/-- At most one segment carries a SYN, and nothing wraps around. -/
def Ordinary (h : ReceiverRun) : ReceiverOp → Prop
  | .receive seg => (seg.header.syn = true → h.firstSyn = none) ∧ h.receiver.InRange seg
  | .read _ => True

/-- After the end, no segment covers the cursor. -/
def QuietAfterEnd (h : ReceiverRun) : ReceiverOp → Prop
  | .receive seg => h.receiver.streamOut.inputEnded = true → ¬h.receiver.Covers seg
  | .read _ => True

instance (h : ReceiverRun) : ∀ op, Decidable (h.Ordinary op)
  | .receive _ => inferInstanceAs (Decidable (_ ∧ _))
  | .read _ => inferInstanceAs (Decidable True)

instance (h : ReceiverRun) : ∀ op, Decidable (h.QuietAfterEnd op)
  | .receive _ => inferInstanceAs (Decidable (_ → _))
  | .read _ => inferInstanceAs (Decidable True)

/-- What was delivered, its count and the acknowledgment number are the same. -/
structure SameInbound (h h' : ReceiverRun) : Prop where
  placed : h'.placed = h.placed
  bytesWritten : h'.receiver.streamOut.bytesWritten = h.receiver.streamOut.bytesWritten
  ackno : h'.receiver.ackno = h.receiver.ackno

/-- The invariant of ordinary runs. -/
structure Assembling (h : ReceiverRun) : Prop where
  counted : h.Counted
  assembles : h.receiver.Assembles

theorem assembling_start (capacity : Nat) : (start capacity).Assembling :=
  ⟨counted_start capacity, TCPReceiver.assembles_new capacity⟩

theorem Assembling.step {h : ReceiverRun} (ha : h.Assembling) {op : ReceiverOp}
    (hop : h.Ordinary op) : (h.step op).Assembling := by
  refine ⟨ha.counted.step op, ?_⟩
  cases op with
  | receive seg => exact ha.assembles.segmentReceived hop.2
  | read len => exact ha.assembles.read len

/-- Once the stream has ended, a quiet step changes nothing, and only a quiet step
delivers nothing. -/
theorem Assembling.quiet_step {h : ReceiverRun} (ha : h.Assembling)
    (hended : h.receiver.streamOut.inputEnded = true) {op : ReceiverOp} (hop : h.Ordinary op) :
    (h.QuietAfterEnd op → SameInbound h (h.step op)) ∧
      ((h.step op).placed = h.placed → h.QuietAfterEnd op) := by
  cases op with
  | read len =>
      exact ⟨fun _ => ⟨placed_read ha.counted.valid len, rfl, rfl⟩, fun _ => trivial⟩
  | receive seg =>
      have hisn : h.receiver.recieveIsn = true := ha.assembles.ended_isn hended
      -- the first SYN has come, and an ordinary run brings no second one
      have hsyn : seg.header.syn = false := by
        by_contra hne
        have hnone := hop.1 (Bool.eq_true_of_not_eq_false hne)
        rw [ha.counted.isn, hnone] at hisn
        contradiction
      obtain ⟨more, hmore, hplaced⟩ := h.exists_placed_receive seg
      have hiff : more = [] ↔ ¬h.receiver.Covers seg :=
        ha.assembles.delivers_iff hsyn hisn hop.2 hmore
      simp only [QuietAfterEnd, hended, true_implies]
      rw [← hiff]
      refine ⟨?_, ?_⟩
      · rintro rfl
        have hended' : (h.receiver.segmentReceived seg).streamOut.inputEnded = true :=
          TCPReceiver.segmentReceived_keeps_end hended seg
        have hisn' : (h.receiver.segmentReceived seg).recieveIsn = true :=
          TCPReceiver.segmentReceived_keeps_isn hisn seg
        have hnum : (h.receiver.segmentReceived seg).isn = h.receiver.isn := by
          rw [TCPReceiver.segmentReceived_isn, if_neg (by simp [hsyn])]
        have hcount : (h.receiver.segmentReceived seg).streamOut.bytesWritten =
            h.receiver.streamOut.bytesWritten := by
          have hlt := ha.counted.counter_lt
          have hlt' : (h.receiver.segmentReceived seg).streamOut.totoalWrite < 2 ^ 64 :=
            hmore.counter_lt hlt
          -- two counters below the width that agree modulo it are equal
          have hwritten : (h.receiver.segmentReceived seg).streamOut.totoalWrite % 2 ^ 64 =
            (h.receiver.streamOut.totoalWrite + 0) % 2 ^ 64 := hmore.written
          simp only [ByteStream.bytesWritten] at hlt ⊢
          omega
        refine ⟨by simpa using hplaced, hcount, ?_⟩
        show (h.receiver.segmentReceived seg).ackno = h.receiver.ackno
        unfold TCPReceiver.ackno
        rw [if_pos hisn', if_pos hisn, if_pos hended', if_pos hended, hcount, hnum]
      · intro hsame
        rwa [hplaced, List.append_right_eq_self] at hsame

theorem placed_prefix_step {h : ReceiverRun} (hc : h.Counted) (op : ReceiverOp) :
    h.placed <+: (h.step op).placed := by
  cases op with
  | receive seg =>
      obtain ⟨more, -, hplaced⟩ := h.exists_placed_receive seg
      rw [hplaced]
      exact List.prefix_append _ _
  | read len => rw [placed_read hc.valid]

theorem ended_step {h : ReceiverRun} (hended : h.receiver.streamOut.inputEnded = true)
    (op : ReceiverOp) : (h.step op).receiver.streamOut.inputEnded = true := by
  cases op with
  | receive seg => exact TCPReceiver.segmentReceived_keeps_end hended seg
  | read len => exact hended

theorem SameInbound.trans {h h' h'' : ReceiverRun} (h₁ : SameInbound h h')
    (h₂ : SameInbound h' h'') : SameInbound h h'' :=
  ⟨h₂.placed.trans h₁.placed, h₂.bytesWritten.trans h₁.bytesWritten, h₂.ackno.trans h₁.ackno⟩

/-- Quiet steps after the end change nothing. -/
theorem Assembling.sameInbound_exec {h : ReceiverRun} (ha : h.Assembling)
    (hended : h.receiver.streamOut.inputEnded = true) {ops : List ReceiverOp}
    (hops : Run.Admitted ReceiverRun.step Ordinary h ops)
    (hquiet : Run.Admitted ReceiverRun.step QuietAfterEnd h ops) :
    SameInbound h (Run.exec ReceiverRun.step h ops) := by
  induction ops generalizing h with
  | nil => exact ⟨rfl, rfl, rfl⟩
  | cons op rest ih =>
      have hfirst := (ha.quiet_step hended hops.1).1 hquiet.1
      exact hfirst.trans (ih (ha.step hops.1) (ended_step hended op) hops.2 hquiet.2)

/-- Once the stream has ended, a continuation changes it exactly when one of its steps
is not quiet. -/
theorem Assembling.sameInbound_exec_iff {h : ReceiverRun} (ha : h.Assembling)
    (hended : h.receiver.streamOut.inputEnded = true) {ops : List ReceiverOp}
    (hops : Run.Admitted ReceiverRun.step Ordinary h ops) :
    SameInbound h (Run.exec ReceiverRun.step h ops) ↔
      Run.Admitted ReceiverRun.step QuietAfterEnd h ops := by
  refine ⟨?_, ha.sameInbound_exec hended hops⟩
  intro hsame
  -- what has been placed only grows: it is the log of the run
  have hlog := Run.exec_log_eq_iff (L := placed)
    (P := fun h => h.Assembling ∧ h.receiver.streamOut.inputEnded = true)
    (fun _ op hop h => ⟨h.1.step hop, ended_step h.2 op⟩)
    (fun _ op _ h => placed_prefix_step h.1.counted op)
    (fun _ op hop h =>
      ⟨(h.1.quiet_step h.2 hop).2, fun hq => ((h.1.quiet_step h.2 hop).1 hq).placed⟩)
    ⟨ha, hended⟩ hops
  exact hlog.2.mp hsame.placed

end ReceiverRun

/-- **Nothing is delivered after the end of the stream**, exactly when no segment
that arrives after it covers the cursor. -/
theorem nothing_delivered_after_end_iff {capacity : Nat} {h : ReceiverRun}
    (hr : Run.Reach ReceiverRun.step ReceiverRun.Ordinary (ReceiverRun.start capacity) h)
    (hended : h.receiver.streamOut.inputEnded = true) {ops : List ReceiverOp}
    (hops : Run.Admitted ReceiverRun.step ReceiverRun.Ordinary h ops) :
    ReceiverRun.SameInbound h (Run.exec ReceiverRun.step h ops) ↔
      Run.Admitted ReceiverRun.step ReceiverRun.QuietAfterEnd h ops := by
  have hinv : h.Assembling := Run.Reach.invariant (P := ReceiverRun.Assembling) hr
    (ReceiverRun.assembling_start capacity) fun _ _ hop ha => ha.step hop
  exact hinv.sameInbound_exec_iff hended hops

/-- A SYN with one byte and a FIN. -/
def oneByteStream : List ReceiverOp :=
  [.receive { header := { syn := true, fin := true, seqno := ⟨0⟩ }, payload := [97] }]

/-- A retransmission of the byte, a byte beyond the next one, and a read. -/
theorem nothing_delivered_after_one_byte :
    ReceiverRun.SameInbound (Run.exec ReceiverRun.step (ReceiverRun.start 8) oneByteStream)
      (Run.exec ReceiverRun.step (Run.exec ReceiverRun.step (ReceiverRun.start 8) oneByteStream)
        [.receive { header := { fin := true, seqno := ⟨1⟩ }, payload := [97] },
          .receive { header := { seqno := ⟨3⟩ }, payload := [98] }, .read 1]) :=
  (nothing_delivered_after_end_iff (Run.Reach.exec .start (by decide +kernel))
    (by decide +kernel) (by decide +kernel)).mpr (by decide +kernel)

/-- A byte right after the end is delivered. -/
theorem byte_delivered_after_end :
    (Run.exec ReceiverRun.step (ReceiverRun.start 8) oneByteStream).receiver.streamOut.inputEnded
        = true ∧
      ¬ReceiverRun.SameInbound (Run.exec ReceiverRun.step (ReceiverRun.start 8) oneByteStream)
        (Run.exec ReceiverRun.step
          (Run.exec ReceiverRun.step (ReceiverRun.start 8) oneByteStream)
          [.receive { header := { seqno := ⟨2⟩ }, payload := [98] }]) := by
  refine ⟨by decide +kernel, fun hsame => ?_⟩
  have hcount := hsame.bytesWritten
  revert hcount
  decide +kernel

end Sponge

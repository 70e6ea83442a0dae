import Sponge.Connection.Outbound
import Sponge.Reassembler.EndOfStream
import Sponge.Receiver.Runs

/-!
# What a connection receives

The receiving half of a connection.  When everything that arrives belongs to one stream of the
peer, `Inbound` is kept: the receiver assembles a prefix of that stream, knows
the peer's initial sequence number, and ends its own stream only where the peer's
ends.
-/

namespace Sponge
namespace StreamReassembler

theorem Tracks.setError {r : StreamReassembler} {taken whole : List Byte}
    (h : Tracks r taken whole) :
    Tracks { r with outputStream := r.outputStream.setError } taken whole where
  rep := {
    stream := h.rep.stream.setError
    capacity_eq := h.rep.capacity_eq
    written := h.rep.written
    read_add_size := h.rep.read_add_size
    cur_lt := h.rep.cur_lt
    fits := h.rep.fits
    nonempty := h.rep.nonempty
    inside := h.rep.inside
    sorted := h.rep.sorted
    total := h.rep.total
    reached := h.rep.reached }
  held := h.held
  output := h.output
  cur_le := h.cur_le

end StreamReassembler

namespace TCPReceiver

/-- One more than the largest of the peer's sequence numbers that has been
assembled, SYN and FIN included. -/
def ackLimit (r : TCPReceiver) : Nat :=
  if r.recieveIsn then
    1 + r.streamOut.bytesWritten + (if r.streamOut.inputEnded then 1 else 0)
  else 0

end TCPReceiver

/-- The receiver `r` assembles the peer's stream `whole`, of which the application
has read `taken`; `isn` is the peer's initial sequence number and `ended` says
whether the peer has ended its stream. -/
structure Inbound (r : TCPReceiver) (taken : List Byte) (isn : WrappingInt32) (whole : List Byte)
    (ended : Bool) : Prop where
  capacity_eq : r.reassembler.capacity = r.capacity
  capacity_pos : 1 ≤ r.capacity
  capacity_lt : r.capacity < 2 ^ 62
  isn_eq : r.recieveIsn = true → r.isn = wrap 1 isn
  tracks : r.reassembler.Tracks taken whole
  endIdx : r.reassembler.inputEndIdx = 4294967295 ∨
    (r.reassembler.inputEndIdx = whole.length ∧ ended = true)
  at_end : r.reassembler.outputStream.inputEnd = true →
    ended = true ∧ r.reassembler.curIdx = whole.length

namespace Inbound

variable {r : TCPReceiver} {taken whole : List Byte} {isn : WrappingInt32} {ended : Bool}

theorem start {capacity : Nat} (hpos : 1 ≤ capacity) (hlt : capacity < 2 ^ 62)
    (isn : WrappingInt32) : Inbound (TCPReceiver.new capacity) [] isn [] false where
  capacity_eq := rfl
  capacity_pos := hpos
  capacity_lt := hlt
  isn_eq := by simp [TCPReceiver.new]
  tracks := StreamReassembler.tracks_new capacity []
  endIdx := Or.inl rfl
  at_end := by simp [TCPReceiver.new, StreamReassembler.new]

/-- The peer writes more. -/
theorem append (h : Inbound r taken isn whole false) (more : List Byte) :
    Inbound r taken isn (whole ++ more) false where
  capacity_eq := h.capacity_eq
  capacity_pos := h.capacity_pos
  capacity_lt := h.capacity_lt
  isn_eq := h.isn_eq
  tracks := h.tracks.append more
  endIdx := by
    cases h.endIdx with
    | inl hnone => exact Or.inl hnone
    | inr hsome => exact absurd hsome.2 (by simp)
  at_end := fun hend => absurd (h.at_end hend).1 (by simp)

/-- The peer ends its stream. -/
theorem of_ended (h : Inbound r taken isn whole ended) : Inbound r taken isn whole true where
  capacity_eq := h.capacity_eq
  capacity_pos := h.capacity_pos
  capacity_lt := h.capacity_lt
  isn_eq := h.isn_eq
  tracks := h.tracks
  endIdx := by
    cases h.endIdx with
    | inl hnone => exact Or.inl hnone
    | inr hsome => exact Or.inr ⟨hsome.1, rfl⟩
  at_end := fun hend => ⟨rfl, (h.at_end hend).2⟩

theorem read (h : Inbound r taken isn whole ended) (len : Nat) :
    Inbound (r.read len) (taken ++ (r.reassembler.outputStream.read len).2) isn whole ended where
  capacity_eq := h.capacity_eq
  capacity_pos := h.capacity_pos
  capacity_lt := h.capacity_lt
  isn_eq := h.isn_eq
  tracks := h.tracks.read len
  endIdx := h.endIdx
  at_end := h.at_end

theorem setError (h : Inbound r taken isn whole ended) :
    Inbound r.setError taken isn whole ended where
  capacity_eq := h.capacity_eq
  capacity_pos := h.capacity_pos
  capacity_lt := h.capacity_lt
  isn_eq := h.isn_eq
  tracks := h.tracks.setError
  endIdx := h.endIdx
  at_end := h.at_end

/-- A SYN tells the peer's initial sequence number. -/
theorem noteSyn (h : Inbound r taken isn whole ended) {seg : TCPSegment}
    (hwire : OnWire isn whole ended seg) : Inbound (r.noteSyn seg) taken isn whole ended where
  capacity_eq := by
    rw [TCPReceiver.noteSyn_reassembler, TCPReceiver.noteSyn_capacity]
    exact h.capacity_eq
  capacity_pos := by
    rw [TCPReceiver.noteSyn_capacity]
    exact h.capacity_pos
  capacity_lt := by
    rw [TCPReceiver.noteSyn_capacity]
    exact h.capacity_lt
  isn_eq := by
    unfold TCPReceiver.noteSyn
    split_ifs with hsyn
    · intro _
      rcases hwire with ⟨-, -, -, hseq⟩ | ⟨hno, -⟩
      · rw [← hseq]
      · rw [hsyn] at hno
        exact absurd hno (by simp)
    · exact h.isn_eq
  tracks := by
    rw [TCPReceiver.noteSyn_reassembler]
    exact h.tracks
  endIdx := by
    rw [TCPReceiver.noteSyn_reassembler]
    exact h.endIdx
  at_end := by
    rw [TCPReceiver.noteSyn_reassembler]
    exact h.at_end

/-- What goes to the reassembler is a slice of the stream, at the index the segment
was sent for, flagged only at the end. -/
theorem segStart_slice (h : Inbound r taken isn whole ended) {seg : TCPSegment}
    (hwire : OnWire isn whole ended seg) (hisn : r.recieveIsn = true)
    (hlen : whole.length < 2 ^ 31 - 2) :
    seg.payload = (whole.drop (r.segStart seg)).take seg.payload.length ∧
      r.segStart seg + seg.payload.length < 2 ^ 64 ∧
      (seg.header.fin = true →
        ended = true ∧ r.segStart seg + seg.payload.length = whole.length) := by
  rcases hwire with ⟨hsyn, hfin, hpayload, -⟩ | ⟨hsyn, k, hseq, hslice, hk, hfit, hend⟩
  · have hzero : r.segStart seg = 0 := if_pos hsyn
    rw [hzero, hpayload, hfin]
    exact ⟨by simp, by simp, by simp⟩
  · have hcur := h.tracks.cur_le
    have hwritten : r.streamOut.bytesWritten = r.reassembler.curIdx := h.tracks.rep.written
    -- the stream is short enough for the checkpoint to single out `k`
    have hstart : r.segStart seg = k := by
      unfold TCPReceiver.segStart
      rw [if_neg (by simp [hsyn]), hseq, h.isn_eq hisn, ← wrap_wrap, hwritten]
      exact unwrap_wrap_of_near _ (by omega) (by omega) (by omega) (by omega)
    rw [hstart]
    refine ⟨hslice, ?_, hend⟩
    by_cases hne : seg.payload = []
    · rw [hne]
      simp only [List.length_nil]
      omega
    · have hle := hfit hne
      omega

/-- What goes to the reassembler is pushed as its specification says. -/
theorem pushed_spec (h : Inbound r taken isn whole ended) {seg : TCPSegment}
    (hwire : OnWire isn whole ended seg) (hlen : whole.length < 2 ^ 31 - 2)
    (hisn : (r.noteSyn seg).recieveIsn = true) {pushed : StreamReassembler}
    (hpush : r.reassembler.pushSubstring seg.payload ((r.noteSyn seg).segStart seg)
      seg.header.fin = pushed) :
    StreamReassembler.Pushed r.reassembler seg.payload ((r.noteSyn seg).segStart seg)
      seg.header.fin pushed := by
  obtain ⟨-, hfits, -⟩ := (h.noteSyn hwire).segStart_slice hwire hisn hlen
  have hcur := h.tracks.cur_le
  have hcap := h.capacity_eq
  have hpos := h.capacity_pos
  have hlt := h.capacity_lt
  have hspec := StreamReassembler.pushSubstring_spec h.tracks.rep hfits
    (by omega : r.reassembler.curIdx + r.reassembler.capacity < 2 ^ 64) (by omega) seg.header.fin
  rwa [hpush] at hspec

/-- A segment of the peer's stream. -/
theorem segmentReceived (h : Inbound r taken isn whole ended) {seg : TCPSegment}
    (hwire : OnWire isn whole ended seg) (hlen : whole.length < 2 ^ 31 - 2) :
    Inbound (r.segmentReceived seg) taken isn whole ended ∧
      r.reassembler.curIdx ≤ (r.segmentReceived seg).reassembler.curIdx := by
  have hsyn := h.noteSyn hwire
  rcases r.segmentReceived_cases seg with heq | ⟨hisn, pushed, hpush, heq⟩
  · rw [heq]
    refine ⟨hsyn, ?_⟩
    rw [TCPReceiver.noteSyn_reassembler]
  · obtain ⟨hslice, -, hend⟩ := hsyn.segStart_slice hwire hisn hlen
    have hspec := h.pushed_spec hwire hlen hisn hpush
    have htracks := h.tracks.pushed hslice hspec
    have hidx : pushed.inputEndIdx = 4294967295 ∨
        (pushed.inputEndIdx = whole.length ∧ ended = true) := by
      rw [hspec.inputEndIdx]
      split_ifs with hfin
      · exact Or.inr ⟨(hend hfin).2, (hend hfin).1⟩
      · exact h.endIdx
    have hmono : r.reassembler.curIdx ≤ pushed.curIdx := by
      rw [hspec.cur]
      exact Nat.le_add_right _ _
    have hcur' := htracks.cur_le
    rw [heq]
    refine ⟨?_, hmono⟩
    exact {
      capacity_eq := by
        show pushed.capacity = (r.noteSyn seg).capacity
        rw [hspec.capacity, TCPReceiver.noteSyn_capacity]
        exact h.capacity_eq
      capacity_pos := hsyn.capacity_pos
      capacity_lt := hsyn.capacity_lt
      isn_eq := hsyn.isn_eq
      tracks := htracks
      endIdx := hidx
      at_end := by
        intro hended
        have hended' : pushed.outputStream.inputEnd = true := hended
        rw [hspec.inputEnd, Bool.or_eq_true, decide_eq_true_eq] at hended'
        show ended = true ∧ pushed.curIdx = whole.length
        cases hended' with
        | inl hbefore =>
            obtain ⟨hyes, hall⟩ := h.at_end hbefore
            exact ⟨hyes, by omega⟩
        | inr hreached =>
            -- the sentinel is out of reach, so the recorded end is the end
            rcases hidx with hnone | ⟨hwhole, hyes⟩
            · omega
            · exact ⟨hyes, by omega⟩ }

/-- A FIN records the end of the stream, and the stream ends only when the end has been
recorded. -/
theorem endIdx_received (h : Inbound r taken isn whole ended) {seg : TCPSegment}
    (hwire : OnWire isn whole ended seg) (hlen : whole.length < 2 ^ 31 - 2) :
    ((r.segmentReceived seg).reassembler.inputEndIdx = r.reassembler.inputEndIdx ∨
        (seg.header.fin = true ∧
          (r.segmentReceived seg).reassembler.inputEndIdx = whole.length)) ∧
      ((r.segmentReceived seg).streamOut.inputEnded = true →
        r.streamOut.inputEnded = true ∨
          (r.segmentReceived seg).reassembler.inputEndIdx ≠ 4294967295) := by
  rcases r.segmentReceived_cases seg with heq | ⟨hisn, pushed, hpush, heq⟩
  · rw [heq, TCPReceiver.streamOut, TCPReceiver.noteSyn_reassembler]
    exact ⟨Or.inl rfl, Or.inl⟩
  · obtain ⟨hslice, -, hend⟩ := (h.noteSyn hwire).segStart_slice hwire hisn hlen
    have hspec := h.pushed_spec hwire hlen hisn hpush
    have hcur := (h.tracks.pushed hslice hspec).cur_le
    have hidx := hspec.inputEndIdx
    rw [heq]
    refine ⟨?_, ?_⟩
    · show pushed.inputEndIdx = _ ∨ _ ∧ pushed.inputEndIdx = _
      rw [hidx]
      split_ifs with hfin
      · exact Or.inr ⟨hfin, (hend hfin).2⟩
      · exact Or.inl rfl
    · intro hended
      have hended' : pushed.outputStream.inputEnd = true := hended
      rw [hspec.inputEnd, Bool.or_eq_true, decide_eq_true_eq] at hended'
      cases hended' with
      | inl hbefore => exact Or.inl hbefore
      | inr hreached =>
          -- the cursor is still far from the sentinel
          have hne : pushed.inputEndIdx ≠ 4294967295 := by omega
          exact Or.inr hne

/-! ### Acknowledgments -/

theorem bytesWritten_eq (h : Inbound r taken isn whole ended) :
    r.streamOut.bytesWritten = r.reassembler.curIdx :=
  h.tracks.rep.written

/-- The acknowledgment sent is the peer's number of the first byte missing. -/
theorem ackno_eq (h : Inbound r taken isn whole ended) (hisn : r.recieveIsn = true)
    (hlen : whole.length < 2 ^ 31 - 2) : r.ackno = some (wrap r.ackLimit isn) := by
  have hcur := h.tracks.cur_le
  have hwritten := h.bytesWritten_eq
  have hsum : Word.add 64 1 r.streamOut.bytesWritten = 1 + r.streamOut.bytesWritten :=
    Word.add_of_lt (by omega)
  unfold TCPReceiver.ackno TCPReceiver.ackLimit
  rw [if_pos hisn, if_pos hisn, h.isn_eq hisn, hsum, wrap_wrap, wrap_wrap]
  split_ifs
  · rw [show 1 + (1 + r.streamOut.bytesWritten) = 1 + r.streamOut.bytesWritten + 1 by omega]
  · rfl

theorem ackLimit_le (h : Inbound r taken isn whole ended) : r.ackLimit ≤ whole.length + 2 := by
  have hcur := h.tracks.cur_le
  have hwritten := h.bytesWritten_eq
  unfold TCPReceiver.ackLimit
  split_ifs <;> omega

theorem ackLimit_mono (h : Inbound r taken isn whole ended) {seg : TCPSegment}
    (hwire : OnWire isn whole ended seg) (hlen : whole.length < 2 ^ 31 - 2) :
    r.ackLimit ≤ (r.segmentReceived seg).ackLimit := by
  obtain ⟨h', hcur⟩ := h.segmentReceived hwire hlen
  have hwritten := h.bytesWritten_eq
  have hwritten' := h'.bytesWritten_eq
  have hend : r.streamOut.inputEnded = true →
      (r.segmentReceived seg).streamOut.inputEnded = true :=
    fun he => TCPReceiver.segmentReceived_keeps_end he seg
  have hisn : r.recieveIsn = true → (r.segmentReceived seg).recieveIsn = true :=
    fun hi => TCPReceiver.segmentReceived_keeps_isn hi seg
  generalize r.segmentReceived seg = r' at *
  unfold TCPReceiver.ackLimit
  by_cases hopen : r.recieveIsn = true
  · rw [if_pos hopen, if_pos (hisn hopen)]
    by_cases hover : r.streamOut.inputEnded = true
    · rw [if_pos hover, if_pos (hend hover)]
      omega
    · rw [if_neg hover]
      split_ifs <;> omega
  · rw [if_neg hopen]
    exact Nat.zero_le _

end Inbound
end Sponge

import Sponge.TCPReceiver

/-!
# Runs of a receiver

What every segment does to a receiver, whatever it holds: the inbound stream only
grows, and once ended it stays ended.  A `ReceiverRun` is a receiver with the
history of its run: the sequence number of the first SYN and the bytes the
application has read.
-/

namespace Sponge

/-- `s'` is `s` with more bytes written to it, and perhaps ended. -/
structure ByteStream.Extends (s s' : ByteStream) (more : List Byte) : Prop where
  buffer : s'.buffer = s.buffer ++ more
  written : s'.totoalWrite % 2 ^ 64 = (s.totoalWrite + more.length) % 2 ^ 64
  inputEnd : s.inputEnd = true → s'.inputEnd = true
  valid : s.Valid → s'.Valid
  fits : more.length ≤ s.capcity - s.size
  capcity : s'.capcity = s.capcity
  counter_lt : s.totoalWrite < 2 ^ 64 → s'.totoalWrite < 2 ^ 64

namespace ByteStream.Extends

theorem refl (s : ByteStream) : s.Extends s [] where
  buffer := by simp
  written := by simp
  inputEnd := id
  valid := id
  fits := Nat.zero_le _
  capcity := rfl
  counter_lt := id

theorem write (s : ByteStream) (data : List Byte) :
    s.Extends (s.write data).1 (s.accepted data) where
  buffer := s.write_buffer data
  written := by
    rw [write_totoalWrite]
    unfold Word.add
    rw [Nat.mod_mod]
  inputEnd := id
  valid := fun h => h.write data
  fits := by
    rw [length_accepted]
    exact Nat.min_le_right _ _
  capcity := rfl
  counter_lt := fun _ => by
    rw [write_totoalWrite]
    exact Word.add_lt _ _ _

theorem endInput {s s' : ByteStream} {more : List Byte} (h : s.Extends s' more) :
    s.Extends s'.endInput more where
  buffer := h.buffer
  written := h.written
  inputEnd := fun _ => rfl
  valid := fun hs => (h.valid hs).endInput
  fits := h.fits
  capcity := h.capcity
  counter_lt := h.counter_lt

end ByteStream.Extends

namespace StreamReassembler

theorem endIfReached_extends {r : StreamReassembler} {s : ByteStream} {more : List Byte}
    (h : s.Extends r.outputStream more) : s.Extends r.endIfReached.outputStream more := by
  unfold endIfReached
  split
  · exact h.endInput
  · exact h

theorem commit_extends (r : StreamReassembler) (nd : Node) :
    ∃ more, r.outputStream.Extends (r.commit nd).outputStream more := by
  unfold commit
  split
  · exact ⟨_, endIfReached_extends (.write r.outputStream nd.data)⟩
  · exact ⟨[], .refl r.outputStream⟩

/-- Before `push_substring` writes anything, the output and the capacity are those it has
found. -/
theorem pushSubstring_cases (r : StreamReassembler) (data : List Byte) (index : Nat) (eof : Bool) :
    ∃ r' : StreamReassembler, r'.outputStream = r.outputStream ∧ r'.capacity = r.capacity ∧
      (r.pushSubstring data index eof = r'.endIfReached ∨
        ∃ nd, r.pushSubstring data index eof = r'.commit nd) := by
  -- recording the end leaves both as they are
  have hrecorded : (if eof = true then { r with inputEndIdx := Word.add 64 index data.length }
        else r).outputStream = r.outputStream ∧
      (if eof = true then { r with inputEndIdx := Word.add 64 index data.length }
        else r).capacity = r.capacity := by
    split <;> exact ⟨rfl, rfl⟩
  rw [pushSubstring]
  dsimp only
  generalize
    (if eof = true then { r with inputEndIdx := Word.add 64 index data.length } else r) = r'
    at hrecorded ⊢
  generalize trimRight r.maxIdx (trimLeft r'.curIdx (Node.new index data)) = nd
  have habsorbed : (absorbBuffered r' nd).1.outputStream = r.outputStream ∧
      (absorbBuffered r' nd).1.capacity = r.capacity := hrecorded
  generalize absorbBuffered r' nd = absorbed at habsorbed ⊢
  split
  · exact ⟨r', hrecorded.1, hrecorded.2, Or.inl rfl⟩
  · exact ⟨absorbed.1, habsorbed.1, habsorbed.2, Or.inr ⟨absorbed.2, rfl⟩⟩

/-- Whatever is pushed, the output only grows. -/
theorem pushSubstring_extends (r : StreamReassembler) (data : List Byte) (index : Nat)
    (eof : Bool) :
    ∃ more, r.outputStream.Extends (r.pushSubstring data index eof).outputStream more := by
  obtain ⟨r', hout, -, heq | ⟨nd, heq⟩⟩ := r.pushSubstring_cases data index eof
  · rw [heq, ← hout]
    exact ⟨[], endIfReached_extends (.refl r'.outputStream)⟩
  · rw [heq, ← hout]
    exact commit_extends r' nd

@[simp] theorem endIfReached_capacity (r : StreamReassembler) :
    r.endIfReached.capacity = r.capacity := by
  unfold endIfReached
  split <;> rfl

theorem commit_capacity (r : StreamReassembler) (nd : Node) :
    (r.commit nd).capacity = r.capacity := by
  unfold commit
  split
  · rw [endIfReached_capacity]
  · rfl

theorem pushSubstring_capacity (r : StreamReassembler) (data : List Byte) (index : Nat)
    (eof : Bool) : (r.pushSubstring data index eof).capacity = r.capacity := by
  obtain ⟨r', -, hcap, heq | ⟨nd, heq⟩⟩ := r.pushSubstring_cases data index eof
  · rw [heq, endIfReached_capacity, hcap]
  · rw [heq, commit_capacity, hcap]

end StreamReassembler

namespace TCPReceiver

@[simp] theorem noteSyn_reassembler (r : TCPReceiver) (seg : TCPSegment) :
    (r.noteSyn seg).reassembler = r.reassembler := by
  unfold noteSyn
  split <;> rfl

@[simp] theorem noteSyn_capacity (r : TCPReceiver) (seg : TCPSegment) :
    (r.noteSyn seg).capacity = r.capacity := by
  unfold noteSyn
  split <;> rfl

@[simp] theorem noteSyn_recieveIsn (r : TCPReceiver) (seg : TCPSegment) :
    (r.noteSyn seg).recieveIsn = (r.recieveIsn || seg.header.syn) := by
  unfold noteSyn
  split_ifs with hsyn
  · simp [hsyn]
  · simp [hsyn]

/-- A segment is dropped, apart from its SYN, or its payload goes to the
reassembler. -/
theorem segmentReceived_cases (r : TCPReceiver) (seg : TCPSegment) :
    r.segmentReceived seg = r.noteSyn seg ∨
      ((r.noteSyn seg).recieveIsn = true ∧
        ∃ pushed, r.reassembler.pushSubstring seg.payload ((r.noteSyn seg).segStart seg)
            seg.header.fin = pushed ∧
          r.segmentReceived seg = { r.noteSyn seg with reassembler := pushed }) := by
  rw [segmentReceived]
  dsimp only
  rw [noteSyn_reassembler]
  generalize r.reassembler.pushSubstring seg.payload ((r.noteSyn seg).segStart seg)
    seg.header.fin = pushed
  split_ifs with hisn hout
  · exact Or.inl rfl
  · exact Or.inl rfl
  · exact Or.inr ⟨Bool.eq_true_of_not_eq_false hisn, pushed, rfl, rfl⟩

/-- Before the first SYN, a segment without one is ignored. -/
theorem segmentReceived_of_listen {r : TCPReceiver} {seg : TCPSegment}
    (hisn : r.recieveIsn = false) (hsyn : seg.header.syn = false) :
    r.segmentReceived seg = r := by
  have hnote : r.noteSyn seg = r := by
    unfold noteSyn
    rw [if_neg (by simp [hsyn])]
  rcases r.segmentReceived_cases seg with heq | ⟨hyes, -, -, -⟩
  · rw [heq, hnote]
  · rw [hnote, hisn] at hyes
    contradiction

theorem segmentReceived_extends (r : TCPReceiver) (seg : TCPSegment) :
    ∃ more, r.streamOut.Extends (r.segmentReceived seg).streamOut more := by
  rcases r.segmentReceived_cases seg with heq | ⟨-, pushed, hpush, heq⟩
  · rw [heq, streamOut, streamOut, noteSyn_reassembler]
    exact ⟨[], .refl _⟩
  · obtain ⟨more, hmore⟩ := r.reassembler.pushSubstring_extends seg.payload
      ((r.noteSyn seg).segStart seg) seg.header.fin
    rw [hpush] at hmore
    rw [heq]
    exact ⟨more, hmore⟩

theorem segmentReceived_keeps_end {r : TCPReceiver} (h : r.streamOut.inputEnded = true)
    (seg : TCPSegment) : (r.segmentReceived seg).streamOut.inputEnded = true := by
  obtain ⟨more, hmore⟩ := r.segmentReceived_extends seg
  exact hmore.inputEnd h

theorem segmentReceived_recieveIsn (r : TCPReceiver) (seg : TCPSegment) :
    (r.segmentReceived seg).recieveIsn = (r.recieveIsn || seg.header.syn) := by
  rcases r.segmentReceived_cases seg with heq | ⟨-, pushed, -, heq⟩
  · rw [heq, noteSyn_recieveIsn]
  · rw [heq, ← noteSyn_recieveIsn]

theorem segmentReceived_isn (r : TCPReceiver) (seg : TCPSegment) :
    (r.segmentReceived seg).isn = if seg.header.syn then wrap 1 seg.header.seqno else r.isn := by
  have hnote : (r.noteSyn seg).isn = if seg.header.syn then wrap 1 seg.header.seqno else r.isn := by
    unfold noteSyn
    split <;> rfl
  rcases r.segmentReceived_cases seg with heq | ⟨-, pushed, -, heq⟩
  · rw [heq, hnote]
  · rw [heq, ← hnote]

@[simp] theorem segmentReceived_capacity (r : TCPReceiver) (seg : TCPSegment) :
    (r.segmentReceived seg).capacity = r.capacity := by
  rcases r.segmentReceived_cases seg with heq | ⟨-, pushed, -, heq⟩
  · rw [heq, noteSyn_capacity]
  · rw [heq]
    exact noteSyn_capacity r seg

theorem segmentReceived_keeps_isn {r : TCPReceiver} (h : r.recieveIsn = true) (seg : TCPSegment) :
    (r.segmentReceived seg).recieveIsn = true := by
  rw [segmentReceived_recieveIsn, h, Bool.true_or]

end TCPReceiver

/-- What can happen to a receiver. -/
inductive ReceiverOp where
  | receive (seg : TCPSegment)
  | read (len : Nat)
deriving DecidableEq, Repr

/-- A receiver and the history of its run. -/
structure ReceiverRun where
  receiver : TCPReceiver
  /-- the sequence number of the first SYN -/
  firstSyn : Option WrappingInt32 := none
  /-- the bytes read by the application -/
  taken : List Byte := []
deriving DecidableEq, Repr

namespace ReceiverRun

def start (capacity : Nat) : ReceiverRun where
  receiver := TCPReceiver.new capacity

def step (h : ReceiverRun) : ReceiverOp → ReceiverRun
  | .receive seg =>
      { h with
        receiver := h.receiver.segmentReceived seg
        firstSyn := h.firstSyn.or (if seg.header.syn then some seg.header.seqno else none) }
  | .read len =>
      { h with
        receiver := h.receiver.read len
        taken := h.taken ++ (h.receiver.streamOut.read len).2 }

/-- Everything ever placed in the inbound stream, already read or still buffered. -/
def placed (h : ReceiverRun) : List Byte :=
  h.taken ++ h.receiver.streamOut.buffer

/-- The counter of the stream counts what was placed, modulo its width, and the
receiver knows whether it has seen a SYN. -/
structure Counted (h : ReceiverRun) : Prop where
  valid : h.receiver.streamOut.Valid
  written : h.receiver.streamOut.bytesWritten % 2 ^ 64 = h.placed.length % 2 ^ 64
  counter_lt : h.receiver.streamOut.bytesWritten < 2 ^ 64
  isn : h.receiver.recieveIsn = h.firstSyn.isSome

theorem counted_start (capacity : Nat) : (start capacity).Counted where
  valid := ByteStream.valid_new capacity
  written := rfl
  counter_lt := Nat.two_pow_pos 64
  isn := rfl

/-- A segment adds to what was placed. -/
theorem exists_placed_receive (h : ReceiverRun) (seg : TCPSegment) :
    ∃ more, h.receiver.streamOut.Extends (h.step (.receive seg)).receiver.streamOut more ∧
      (h.step (.receive seg)).placed = h.placed ++ more := by
  obtain ⟨more, hmore⟩ := h.receiver.segmentReceived_extends seg
  refine ⟨more, hmore, ?_⟩
  show h.taken ++ (h.receiver.segmentReceived seg).streamOut.buffer = _
  rw [hmore.buffer, placed, List.append_assoc]

/-- Reading moves bytes out of the stream. -/
theorem placed_read {h : ReceiverRun} (hvalid : h.receiver.streamOut.Valid) (len : Nat) :
    (h.step (.read len)).placed = h.placed := by
  show h.taken ++ (h.receiver.streamOut.read len).2 ++ (h.receiver.streamOut.read len).1.buffer = _
  rw [ByteStream.read_bytes _ _ hvalid, ByteStream.read_buffer _ _ hvalid, List.append_assoc,
    List.take_append_drop, placed]

theorem Counted.step {h : ReceiverRun} (hc : h.Counted) (op : ReceiverOp) :
    (h.step op).Counted := by
  cases op with
  | receive seg =>
      obtain ⟨more, hmore, hplaced⟩ := h.exists_placed_receive seg
      refine ⟨hmore.valid hc.valid, ?_, hmore.counter_lt hc.counter_lt, ?_⟩
      · rw [hplaced, List.length_append]
        have hwritten := hc.written
        have hmod := hmore.written
        simp only [ByteStream.bytesWritten] at hwritten ⊢
        omega
      · show (h.receiver.segmentReceived seg).recieveIsn = _
        rw [TCPReceiver.segmentReceived_recieveIsn, hc.isn]
        simp only [ReceiverRun.step]
        cases h.firstSyn <;> cases seg.header.syn <;> rfl
  | read len =>
      refine ⟨hc.valid.read len, ?_, hc.counter_lt, hc.isn⟩
      rw [placed_read hc.valid]
      exact hc.written

end ReceiverRun
end Sponge

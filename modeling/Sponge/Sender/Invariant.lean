import Sponge.Sender.Segments

/-!
# The sender's invariant

`Sent` ties a sender to the bytes its stream has accepted and to the segments it
has sent for the first time: their shape, the bytes still buffered, and the
retransmission buffer, which holds the ones not yet acknowledged.  Each method
of the sender has one specification here: what it sends, what it keeps, and that
`Sent` survives it.  None of them depends on what `segments_out` holds, so the
owner may drain the queue at any moment.
-/

namespace Sponge
namespace TCPSender

/-- Nothing has been sent, or the SYN and after it the first `n` bytes. -/
def FirstSent (isn : WrappingInt32) (whole : List Byte) (firsts : List TCPSegment) (n : Nat)
    (fin : Bool) : Prop :=
  (firsts = [] ∧ n = 0 ∧ fin = false) ∨
    ∃ rest, firsts = segment isn 0 [] true false :: rest ∧ Carries isn whole rest n fin

section FirstSent

variable {isn : WrappingInt32} {whole : List Byte} {firsts : List TCPSegment} {n : Nat} {fin : Bool}

theorem FirstSent.append (h : FirstSent isn whole firsts n fin) (more : List Byte) :
    FirstSent isn (whole ++ more) firsts n fin := by
  rcases h with h | ⟨rest, hfirsts, hcarries⟩
  · exact Or.inl h
  · exact Or.inr ⟨rest, hfirsts, hcarries.append more⟩

theorem FirstSent.le_length (h : FirstSent isn whole firsts n fin) : n ≤ whole.length := by
  rcases h with ⟨-, rfl, -⟩ | ⟨rest, -, hcarries⟩
  · exact Nat.zero_le _
  · exact hcarries.le_length

/-- Once something has been sent, the SYN, the bytes and the FIN add up. -/
theorem FirstSent.span_eq (h : FirstSent isn whole firsts n fin) (hne : span firsts ≠ 0) :
    span firsts = 1 + n + (if fin then 1 else 0) := by
  rcases h with ⟨rfl, -, -⟩ | ⟨rest, rfl, hcarries⟩
  · exact absurd span_nil hne
  · rw [span_cons, segment_length, hcarries.span_eq]
    simp
    omega

theorem FirstSent.eq_nil (h : FirstSent isn whole firsts n fin) (hzero : span firsts = 0) :
    firsts = [] ∧ n = 0 ∧ fin = false := by
  rcases h with h | ⟨rest, rfl, -⟩
  · exact h
  · rw [span_cons, segment_length] at hzero
    simp at hzero

theorem FirstSent.span_ne_zero (h : FirstSent isn whole firsts n fin) (hfin : fin = true) :
    span firsts ≠ 0 := by
  intro hzero
  have hnone := (h.eq_nil hzero).2.2
  rw [hfin] at hnone
  exact absurd hnone (by simp)

end FirstSent

/-- The retransmission buffer holds the segments after the acknowledged ones. -/
def Outstanding (s : TCPSender) (firsts : List TCPSegment) : Prop :=
  ∃ done pending, firsts = done ++ pending ∧ s.curAckIndex = span done ∧
    s.segBuffer = nodesFrom s.curAckIndex pending

/-- `s` has sent `firsts`, which carry the first `n` bytes of `whole`, and the FIN
if `fin` says so. -/
structure Sent (s : TCPSender) (whole : List Byte) (firsts : List TCPSegment) (n : Nat)
    (fin : Bool) : Prop where
  stream : s.stream.Valid
  buffer : s.stream.buffer = whole.drop n
  shape : FirstSent s.isn whole firsts n fin
  next : s.nextSeqno = span firsts
  next_lt : s.nextSeqno < 2 ^ 64
  finIndex : s.finAckIndex = if fin then s.nextSeqno else 18446744073709551615
  outstanding : s.Outstanding firsts

/-- The right edge of the window stays within one window of the next number. -/
structure EdgeInRange (s : TCPSender) : Prop where
  pos : 1 ≤ s.wdRightEdge
  lt : s.wdRightEdge < 2 ^ 64
  le : s.wdRightEdge ≤ s.nextSeqno + 65535

theorem sent_new (capacity : Nat) (retxTimeout : UInt16) (isn : WrappingInt32) :
    Sent (new capacity retxTimeout isn) [] [] 0 false where
  stream := ByteStream.valid_new capacity
  buffer := rfl
  shape := Or.inl ⟨rfl, rfl, rfl⟩
  next := rfl
  next_lt := by simp [new]
  finIndex := rfl
  outstanding := ⟨[], [], rfl, rfl, rfl⟩

theorem edgeInRange_new (capacity : Nat) (retxTimeout : UInt16) (isn : WrappingInt32) :
    EdgeInRange (new capacity retxTimeout isn) := by
  constructor <;> simp [new]

section Sent

variable {s : TCPSender} {whole : List Byte} {firsts : List TCPSegment} {n : Nat} {fin : Bool}

theorem Sent.cur_le (h : Sent s whole firsts n fin) : s.curAckIndex ≤ s.nextSeqno := by
  obtain ⟨done, pending, hsplit, hcur, -⟩ := h.outstanding
  rw [h.next, hsplit, span_append, hcur]
  exact Nat.le_add_right _ _

theorem Sent.inFlight (h : Sent s whole firsts n fin) :
    s.bytesInFlight = s.nextSeqno - s.curAckIndex :=
  Word.sub_of_le h.next_lt h.cur_le

theorem Sent.next_eq (h : Sent s whole firsts n fin) (hsyn : s.nextSeqno ≠ 0) :
    s.nextSeqno = 1 + n + (if fin then 1 else 0) := by
  rw [h.next] at hsyn ⊢
  exact h.shape.span_eq hsyn

theorem Sent.next_ne_zero (h : Sent s whole firsts n fin) (hfin : fin = true) :
    s.nextSeqno ≠ 0 := by
  rw [h.next]
  exact h.shape.span_ne_zero hfin

theorem Sent.done_of_fin (h : Sent s whole firsts n fin) (hfin : fin = true) :
    s.nextSeqno = s.finAckIndex := by
  rw [h.finIndex, if_pos hfin]

/-- Short of the last sequence number there is, `fin_ack_index` tells whether the
FIN has been sent. -/
theorem Sent.fin_of_done (h : Sent s whole firsts n fin) (hdone : s.nextSeqno = s.finAckIndex)
    (hlast : s.nextSeqno ≠ 18446744073709551615) : fin = true := by
  by_contra hfin
  rw [h.finIndex, if_neg hfin] at hdone
  exact hlast hdone

/-- What an outstanding segment is, and which number acknowledges it. -/
theorem Sent.node_shape (h : Sent s whole firsts n fin) {node : SegNode}
    (hnode : node ∈ s.segBuffer) :
    (node.seg = segment s.isn 0 [] true false ∧ node.ackIndex = 1) ∨
      ∃ k payload flag, node.seg = segment s.isn (1 + k) payload false flag ∧
        payload = (whole.drop k).take payload.length ∧
        node.ackIndex = 1 + k + payload.length + (if flag then 1 else 0) ∧
        k + payload.length ≤ n ∧ (flag = true → fin = true ∧ k + payload.length = n) := by
  obtain ⟨done, pending, hsplit, hcur, hbuf⟩ := h.outstanding
  rw [hbuf] at hnode
  obtain ⟨before, after, hpending, hindex⟩ := mem_nodesFrom hnode
  have hfirsts : firsts = (done ++ before) ++ node.seg :: after := by
    rw [hsplit, hpending, List.append_assoc]
  rw [hcur, ← span_append] at hindex
  rcases h.shape with ⟨hnil, -, -⟩ | ⟨rest, hsyn, hcarries⟩
  · rw [hnil] at hfirsts
    exact absurd hfirsts (by simp)
  · rw [hsyn] at hfirsts
    generalize done ++ before = sent at hfirsts hindex
    cases sent with
    | nil =>
        -- nothing before it: the SYN
        obtain ⟨hseg, -⟩ := List.cons.inj hfirsts
        rw [← hseg] at hindex ⊢
        exact Or.inl ⟨rfl, hindex⟩
    | cons first sent =>
        obtain ⟨hseg, hrest⟩ := List.cons.inj hfirsts
        obtain ⟨payload, flag, heq, hslice, hle, hflag⟩ := hcarries.start_eq hrest
        refine Or.inr ⟨span sent, payload, flag, heq, hslice, ?_, hle, hflag⟩
        rw [hindex, span_cons, ← hseg, heq, segment_length, segment_length]
        simp
        omega

/-- Replacing fields that `Sent` does not mention. -/
theorem Sent.congr {s' : TCPSender} (h : Sent s whole firsts n fin) (hstream : s'.stream = s.stream)
    (hisn : s'.isn = s.isn) (hnext : s'.nextSeqno = s.nextSeqno)
    (hfin : s'.finAckIndex = s.finAckIndex) (hcur : s'.curAckIndex = s.curAckIndex)
    (hbuf : s'.segBuffer = s.segBuffer) : Sent s' whole firsts n fin where
  stream := by rw [hstream]; exact h.stream
  buffer := by rw [hstream]; exact h.buffer
  shape := by rw [hisn]; exact h.shape
  next := by rw [hnext]; exact h.next
  next_lt := by rw [hnext]; exact h.next_lt
  finIndex := by rw [hfin, hnext]; exact h.finIndex
  outstanding := by
    rw [Outstanding, hcur, hbuf]
    exact h.outstanding

/-- The queue of outgoing segments may be emptied. -/
theorem Sent.drained (h : Sent s whole firsts n fin) :
    Sent { s with segmentsOut := [] } whole firsts n fin :=
  h.congr rfl rfl rfl rfl rfl rfl

theorem EdgeInRange.drained (h : EdgeInRange s) : EdgeInRange { s with segmentsOut := [] } :=
  ⟨h.pos, h.lt, h.le⟩

/-! ## Writing to the outgoing stream -/

theorem Sent.write (h : Sent s whole firsts n fin) (data : List Byte) :
    Sent { s with stream := (s.stream.write data).1 } (whole ++ s.stream.accepted data)
      firsts n fin where
  stream := h.stream.write data
  buffer := by
    rw [ByteStream.write_buffer, h.buffer, List.drop_append_of_le_length h.shape.le_length]
  shape := h.shape.append _
  next := h.next
  next_lt := h.next_lt
  finIndex := h.finIndex
  outstanding := h.outstanding

/-- The stream may change in everything but the bytes it holds. -/
theorem Sent.withStream (h : Sent s whole firsts n fin) {stream : ByteStream}
    (hvalid : stream.Valid) (hbuffer : stream.buffer = s.stream.buffer) :
    Sent { s with stream := stream } whole firsts n fin where
  stream := hvalid
  buffer := hbuffer.trans h.buffer
  shape := h.shape
  next := h.next
  next_lt := h.next_lt
  finIndex := h.finIndex
  outstanding := h.outstanding

theorem Sent.endInput (h : Sent s whole firsts n fin) :
    Sent { s with stream := s.stream.endInput } whole firsts n fin :=
  h.withStream h.stream.endInput rfl

theorem Sent.setError (h : Sent s whole firsts n fin) :
    Sent { s with stream := s.stream.setError } whole firsts n fin :=
  h.withStream h.stream.setError rfl

end Sent

/-! ## Filling the window -/

/-- Sequence numbers waiting to be sent: the SYN, or the buffered bytes and the
FIN of an ended input. -/
def backlog (s : TCPSender) : Nat :=
  if s.nextSeqno = s.finAckIndex then 0
  else if s.nextSeqno = 0 then 1
  else s.stream.buffer.length + (if s.stream.inputEnd then 1 else 0)

/-- `s'` differs from `s` by the segments `new`, sent for the first time, and by
the bytes they took from the stream. -/
structure Advanced (s s' : TCPSender) (new : List TCPSegment) : Prop where
  isn : s'.isn = s.isn
  segmentsOut : s'.segmentsOut = s.segmentsOut ++ new
  nextSeqno : s'.nextSeqno = s.nextSeqno + span new
  segBuffer : s'.segBuffer = s.segBuffer ++ nodesFrom s.nextSeqno new
  curAckIndex : s'.curAckIndex = s.curAckIndex
  wdRightEdge : s'.wdRightEdge = s.wdRightEdge
  inputEnd : s'.stream.inputEnd = s.stream.inputEnd
  error : s'.stream.error = s.stream.error

theorem advanced_refl (s : TCPSender) : Advanced s s [] where
  isn := rfl
  segmentsOut := by simp
  nextSeqno := by simp
  segBuffer := by simp [nodesFrom]
  curAckIndex := rfl
  wdRightEdge := rfl
  inputEnd := rfl
  error := rfl

theorem advanced_afterSending (s : TCPSender) (segs : List TCPSegment) :
    Advanced s (s.afterSending segs) segs where
  isn := rfl
  segmentsOut := rfl
  nextSeqno := rfl
  segBuffer := rfl
  curAckIndex := rfl
  wdRightEdge := rfl
  inputEnd := rfl
  error := rfl

section Fill

variable {s s' : TCPSender} {whole : List Byte} {firsts new : List TCPSegment} {n : Nat}
  {fin : Bool}

theorem Advanced.next_le (h : Advanced s s' new) : s.nextSeqno ≤ s'.nextSeqno := by
  rw [h.nextSeqno]
  exact Nat.le_add_right _ _

theorem Advanced.outstanding (hadv : Advanced s s' new) (h : Sent s whole firsts n fin) :
    s'.Outstanding (firsts ++ new) := by
  obtain ⟨done, pending, hsplit, hcur, hbuf⟩ := h.outstanding
  refine ⟨done, pending ++ new, ?_, hadv.curAckIndex.trans hcur, ?_⟩
  · rw [hsplit, List.append_assoc]
  · have hnext : s.nextSeqno = s.curAckIndex + span pending := by
      rw [h.next, hsplit, span_append, hcur]
    rw [hadv.segBuffer, hbuf, hadv.curAckIndex, nodesFrom_append, hnext]

/-- The SYN, sent by `fill_window` and by `send_empty_ack`. -/
theorem Sent.syn (h : Sent s whole firsts n fin) (hzero : s.nextSeqno = 0) :
    Sent (s.afterSending [segment s.isn 0 [] true false]) whole
      (firsts ++ [segment s.isn 0 [] true false]) 0 false := by
  have hnone := h.shape.eq_nil (h.next.symm.trans hzero)
  have hspan : span [segment s.isn 0 [] true false] = 1 := by simp
  obtain ⟨hfirsts, hn, hfin⟩ := hnone
  exact {
    stream := h.stream
    buffer := by rw [← hn]; exact h.buffer
    shape := Or.inr ⟨[], by rw [hfirsts]; rfl, .nil⟩
    next := by
      rw [(advanced_afterSending s _).nextSeqno, span_append, h.next]
    next_lt := by
      rw [(advanced_afterSending s _).nextSeqno, hzero, hspan]
      omega
    finIndex := by
      have hidx := h.finIndex
      rw [hfin] at hidx
      exact hidx
    outstanding := (advanced_afterSending s _).outstanding h }

/-- The bytes that fit the window are cut into segments that follow those sent so far. -/
theorem Sent.firstSent_cut (h : Sent s whole firsts n false) (hsyn : s.nextSeqno ≠ 0)
    {room : Nat} {data : List Byte} (hd : s.stream.buffer.take room = data) (flag : Bool) :
    FirstSent s.isn whole (firsts ++ cutSegments s.isn data.length s.nextSeqno data flag)
      (n + data.length) flag := by
  have hnext := h.next_eq hsyn
  simp only [Bool.false_eq_true, if_false, Nat.add_zero] at hnext
  have hlen : data.length = min room s.stream.buffer.length := by rw [← hd, List.length_take]
  have hbuflen : s.stream.buffer.length = whole.length - n := by rw [h.buffer, List.length_drop]
  have hcarried := h.shape.le_length
  rcases h.shape with ⟨hnil, -, -⟩ | ⟨rest, hfirsts, hcarries⟩
  · rw [h.next, hnil] at hsyn
    exact absurd span_nil hsyn
  · refine Or.inr ⟨rest ++ cutSegments s.isn data.length s.nextSeqno data flag,
      by rw [hfirsts]; rfl, ?_⟩
    rw [hnext]
    refine hcarries.cutSegments flag (le_refl _) ?_ (by omega)
    rw [← h.buffer, hlen, ← hd, ← List.take_eq_take_min]

/-- The window is filled, or everything that waits is sent. -/
theorem next_add_span_cut (hdone : s.nextSeqno ≠ s.finAckIndex) (hsyn : s.nextSeqno ≠ 0)
    {room : Nat} {data : List Byte} {flag : Bool} (hr : s.wdRightEdge - s.nextSeqno = room)
    (hd : s.stream.buffer.take room = data)
    (hf : (s.stream.inputEnd && decide (s.stream.buffer.length < room)) = flag) :
    s.nextSeqno + span (cutSegments s.isn data.length s.nextSeqno data flag) =
      min (s.nextSeqno + s.backlog) (max s.nextSeqno s.wdRightEdge) := by
  have hlen : data.length = min room s.stream.buffer.length := by rw [← hd, List.length_take]
  rw [span_cutSegments, hlen, backlog, if_neg hdone, if_neg hsyn]
  by_cases hshort : s.stream.buffer.length < room
  · have hsame : flag = s.stream.inputEnd := by rw [← hf]; simp [hshort]
    rw [hsame]
    split_ifs <;> omega
  · -- no sequence number is left for the FIN
    have hno : flag = false := by rw [← hf]; simp [hshort]
    rw [hno]
    simp only [Bool.false_eq_true, if_false]
    split_ifs <;> omega

/-- **What `fill_window` does.**  It sends `new` for the first time; a FIN is sent
only when every byte accepted so far is, and nothing is sent after it. -/
theorem Sent.fillWindow (h : Sent s whole firsts n fin) (hlt : s.wdRightEdge < 2 ^ 64)
    (hroom : s.wdRightEdge ≤ s.nextSeqno + 65536) (hpos : 1 ≤ s.wdRightEdge ∨ s.nextSeqno ≠ 0) :
    ∃ new n' fin', Advanced s s.fillWindow new ∧ Sent s.fillWindow whole (firsts ++ new) n' fin' ∧
      n ≤ n' ∧ (fin = true → fin' = true ∧ new = []) ∧
      (fin = false → fin' = true → n' = whole.length ∧ s.stream.inputEnd = true) ∧
      s.fillWindow.nextSeqno =
        min (s.nextSeqno + s.backlog) (max s.nextSeqno s.wdRightEdge) := by
  by_cases hdone : s.nextSeqno = s.finAckIndex
  · -- everything has been sent
    rw [fillWindow_done hdone, backlog, if_pos hdone]
    refine ⟨[], n, fin, advanced_refl s, ?_, le_refl _, fun hf => ⟨hf, rfl⟩, ?_, by omega⟩
    · rw [List.append_nil]
      exact h
    · intro hf hf'
      rw [hf] at hf'
      exact absurd hf' (by simp)
  have hopen : fin = false := by
    by_contra hfin
    exact hdone (h.done_of_fin (by simpa using hfin))
  subst hopen
  by_cases hsyn : s.nextSeqno = 0
  · rw [fillWindow_syn hdone hsyn, backlog, if_neg hdone, if_pos hsyn]
    have hn := (h.shape.eq_nil (h.next.symm.trans hsyn)).2.1
    refine ⟨_, 0, false, advanced_afterSending s _, h.syn hsyn, hn.le, by simp, by simp, ?_⟩
    have hspan : span [segment s.isn 0 [] true false] = 1 := by simp
    rw [(advanced_afterSending s _).nextSeqno, hspan]
    omega
  -- the SYN is out and the FIN is not
  generalize hr : s.wdRightEdge - s.nextSeqno = room
  generalize hd : s.stream.buffer.take room = data
  generalize hf : (s.stream.inputEnd && decide (s.stream.buffer.length < room)) = flag
  have heq := fillWindow_eq h.stream hdone hsyn h.next_lt (by omega) hlt hr.symm hd.symm hf.symm
  have hcarries := h.firstSent_cut hsyn hd flag
  have hcount := next_add_span_cut hdone hsyn hr hd hf
  have hspan := span_cutSegments s.isn data.length s.nextSeqno data flag
  generalize cutSegments s.isn data.length s.nextSeqno data flag = new
    at heq hspan hcarries hcount
  have hlen : data.length = min room s.stream.buffer.length := by rw [← hd, List.length_take]
  have hbuflen : s.stream.buffer.length = whole.length - n := by rw [h.buffer, List.length_drop]
  have hcarried := h.shape.le_length
  have hflag : flag = true → s.stream.inputEnd = true ∧ s.stream.buffer.length < room := by
    intro ht
    rw [ht] at hf
    simpa using hf
  have hadv : Advanced s s.fillWindow new := by
    rw [heq]
    exact ⟨rfl, rfl, rfl, rfl, rfl, rfl, rfl, rfl⟩
  have hstream : s.fillWindow.stream = (s.stream.read room).1 := by rw [heq]; rfl
  have hidx : s.fillWindow.finAckIndex =
      if flag then s.nextSeqno + data.length + 1 else s.finAckIndex := by rw [heq]
  refine ⟨new, n + data.length, flag, hadv, ?_, Nat.le_add_right _ _, by simp, ?_, ?_⟩
  · exact {
      stream := by rw [hstream]; exact h.stream.read room
      buffer := by
        rw [hstream, ByteStream.read_buffer _ _ h.stream, h.buffer, List.drop_drop, hlen]
        rcases le_total room s.stream.buffer.length with hle | hle
        · rw [min_eq_left hle]
        · rw [min_eq_right hle, List.drop_eq_nil_of_le (by omega),
            List.drop_eq_nil_of_le (by omega)]
      shape := by rw [hadv.isn]; exact hcarries
      next := by rw [hadv.nextSeqno, span_append, h.next]
      next_lt := by
        rw [hadv.nextSeqno, hcount]
        have hnow := h.next_lt
        omega
      finIndex := by
        rw [hidx, hadv.nextSeqno, hspan]
        cases flag with
        | true => simp [Nat.add_assoc]
        | false => simpa using h.finIndex
      outstanding := hadv.outstanding h }
  · intro _ ht
    obtain ⟨hended, hshort⟩ := hflag ht
    refine ⟨?_, hended⟩
    omega
  · rw [hadv.nextSeqno]
    exact hcount

end Fill

/-! ## Acknowledgments -/

/-- The loop removes whole segments, up to the acknowledged number. -/
theorem popAcked_nodesFrom (ack : Nat) (pending : List TCPSegment) (cur : Nat) (newAck : Bool)
    (hle : cur ≤ ack) :
    ∃ acked rest flag, pending = acked ++ rest ∧ cur + span acked ≤ ack ∧
      popAcked ack cur newAck (nodesFrom cur pending) =
        (cur + span acked, flag, nodesFrom (cur + span acked) rest) := by
  induction pending generalizing cur newAck with
  | nil => exact ⟨[], [], newAck, rfl, hle, rfl⟩
  | cons seg pending ih =>
      rw [nodesFrom, popAcked]
      by_cases hacked : cur + seg.lengthInSequenceSpace ≤ ack
      · obtain ⟨acked, rest, flag, hsplit, hbound, heq⟩ :=
          ih (cur + seg.lengthInSequenceSpace) true hacked
        rw [if_pos hacked, heq]
        refine ⟨seg :: acked, rest, flag, ?_, ?_, ?_⟩
        · rw [hsplit, List.cons_append]
        · rw [span_cons]
          omega
        · rw [span_cons, Nat.add_assoc]
      · rw [if_neg hacked]
        exact ⟨[], seg :: pending, newAck, rfl, hle, rfl⟩

section Acknowledge

variable (s : TCPSender) (ack : Nat) (windowSize : UInt16)

@[simp] theorem acknowledge_isn : (s.acknowledge ack).isn = s.isn := by
  simp only [acknowledge]
  split <;> rfl

@[simp] theorem acknowledge_segmentsOut : (s.acknowledge ack).segmentsOut = s.segmentsOut := by
  simp only [acknowledge]
  split <;> rfl

@[simp] theorem acknowledge_stream : (s.acknowledge ack).stream = s.stream := by
  simp only [acknowledge]
  split <;> rfl

@[simp] theorem acknowledge_nextSeqno : (s.acknowledge ack).nextSeqno = s.nextSeqno := by
  simp only [acknowledge]
  split <;> rfl

@[simp] theorem acknowledge_finAckIndex : (s.acknowledge ack).finAckIndex = s.finAckIndex := by
  simp only [acknowledge]
  split <;> rfl

@[simp] theorem acknowledge_wdRightEdge : (s.acknowledge ack).wdRightEdge = s.wdRightEdge := by
  simp only [acknowledge]
  split <;> rfl

theorem acknowledge_curAckIndex :
    (s.acknowledge ack).curAckIndex = (popAcked ack s.curAckIndex false s.segBuffer).1 := by
  simp only [acknowledge]
  split <;> rfl

theorem acknowledge_segBuffer :
    (s.acknowledge ack).segBuffer = (popAcked ack s.curAckIndex false s.segBuffer).2.2 := by
  simp only [acknowledge]
  split <;> rfl

/-- Only the right edge of the window moves, and only to the right. -/
theorem widen_eq : s.widen ack windowSize =
    { s with wdRightEdge := max s.wdRightEdge (Word.add 64 ack windowSize.toNat) } := by
  rw [widen]
  split_ifs with hgt
  · rw [max_eq_right (le_of_lt hgt)]
  · rw [max_eq_left (not_lt.mp hgt)]

end Acknowledge

/-- The right edge in force while `ack_received` fills the window: one more than
the edge when the window is closed. -/
def probeEdge (edge : Nat) (windowSize : UInt16) : Nat :=
  if windowSize = 0 then Word.add 64 edge 1 else edge

/-- The sender as `ack_received` hands it to `fill_window`. -/
def readyToFill (s : TCPSender) (ack : Nat) (windowSize : UInt16) : TCPSender :=
  { s.acknowledge ack with
    wdRightEdge := probeEdge (max s.wdRightEdge (Word.add 64 ack windowSize.toNat)) windowSize }

section ReadyToFill

variable (s : TCPSender) (ack : Nat) (windowSize : UInt16)

@[simp] theorem readyToFill_isn : (s.readyToFill ack windowSize).isn = s.isn :=
  acknowledge_isn s ack

@[simp] theorem readyToFill_segmentsOut :
    (s.readyToFill ack windowSize).segmentsOut = s.segmentsOut :=
  acknowledge_segmentsOut s ack

@[simp] theorem readyToFill_stream : (s.readyToFill ack windowSize).stream = s.stream :=
  acknowledge_stream s ack

@[simp] theorem readyToFill_nextSeqno : (s.readyToFill ack windowSize).nextSeqno = s.nextSeqno :=
  acknowledge_nextSeqno s ack

@[simp] theorem readyToFill_finAckIndex :
    (s.readyToFill ack windowSize).finAckIndex = s.finAckIndex :=
  acknowledge_finAckIndex s ack

@[simp] theorem readyToFill_curAckIndex :
    (s.readyToFill ack windowSize).curAckIndex = (s.acknowledge ack).curAckIndex := rfl

@[simp] theorem readyToFill_wdRightEdge :
    (s.readyToFill ack windowSize).wdRightEdge =
      probeEdge (max s.wdRightEdge (Word.add 64 ack windowSize.toNat)) windowSize := rfl

@[simp] theorem readyToFill_backlog : (s.readyToFill ack windowSize).backlog = s.backlog := by
  simp [backlog]

end ReadyToFill

section AckReceived

variable {s : TCPSender} {whole : List Byte} {firsts : List TCPSegment} {n : Nat} {fin : Bool}

theorem ackReceived_of_rejects {ackno : WrappingInt32} (windowSize : UInt16)
    (h : s.rejects (unwrap ackno s.isn s.nextSeqno) = true) :
    s.ackReceived ackno windowSize = s := by
  rw [ackReceived, if_pos h]

theorem accepts_iff {ack : Nat} :
    s.rejects ack = false ↔ s.curAckIndex ≤ ack ∧ ack ≤ s.nextSeqno := by
  rw [rejects, decide_eq_false_iff_not]
  omega

theorem Sent.acknowledge (h : Sent s whole firsts n fin) {ack : Nat} (hack : s.curAckIndex ≤ ack) :
    Sent (s.acknowledge ack) whole firsts n fin ∧
      s.curAckIndex ≤ (s.acknowledge ack).curAckIndex ∧
      (s.acknowledge ack).curAckIndex ≤ ack := by
  obtain ⟨done, pending, hsplit, hcur, hbuf⟩ := h.outstanding
  obtain ⟨acked, rest, flag, hpending, hbound, hpop⟩ :=
    popAcked_nodesFrom ack pending s.curAckIndex false hack
  have hcur' : (s.acknowledge ack).curAckIndex = s.curAckIndex + span acked := by
    rw [acknowledge_curAckIndex, hbuf, hpop]
  have hbuf' : (s.acknowledge ack).segBuffer = nodesFrom (s.curAckIndex + span acked) rest := by
    rw [acknowledge_segBuffer, hbuf, hpop]
  refine ⟨?_, by omega, by omega⟩
  exact {
    stream := by simpa using h.stream
    buffer := by simpa using h.buffer
    shape := by simpa using h.shape
    next := by simpa using h.next
    next_lt := by simpa using h.next_lt
    finIndex := by simpa using h.finIndex
    outstanding := by
      refine ⟨done ++ acked, rest, ?_, ?_, ?_⟩
      · rw [hsplit, hpending, List.append_assoc]
      · rw [hcur', span_append, hcur]
      · rw [hbuf', hcur'] }

/-- A segment that leaves the buffer has been acknowledged as a whole. -/
theorem Sent.acknowledge_kept (h : Sent s whole firsts n fin) {ack : Nat}
    (hack : s.curAckIndex ≤ ack) :
    ∀ node ∈ s.segBuffer, node ∈ (s.acknowledge ack).segBuffer ∨
      node.ackIndex ≤ (s.acknowledge ack).curAckIndex := by
  intro node hnode
  obtain ⟨done, pending, -, -, hbuf⟩ := h.outstanding
  obtain ⟨acked, rest, flag, hpending, -, hpop⟩ :=
    popAcked_nodesFrom ack pending s.curAckIndex false hack
  rw [hbuf, hpending, nodesFrom_append] at hnode
  rw [acknowledge_segBuffer, acknowledge_curAckIndex, hbuf, hpop]
  cases List.mem_append.mp hnode with
  | inl hacked => exact Or.inr (nodesFrom_le hacked)
  | inr hrest => exact Or.inl hrest

theorem Sent.readyToFill (h : Sent s whole firsts n fin) {ack : Nat} (hack : s.curAckIndex ≤ ack)
    (windowSize : UInt16) : Sent (s.readyToFill ack windowSize) whole firsts n fin :=
  (h.acknowledge hack).1.congr rfl rfl rfl rfl rfl rfl

theorem EdgeInRange.widened (hedge : EdgeInRange s) {ack : Nat} (hack : ack ≤ s.nextSeqno)
    (windowSize : UInt16) :
    max s.wdRightEdge (Word.add 64 ack windowSize.toNat) < 2 ^ 64 ∧
      max s.wdRightEdge (Word.add 64 ack windowSize.toNat) ≤ s.nextSeqno + 65535 := by
  have hlt := Word.add_lt 64 ack windowSize.toNat
  have hle := Word.add_le 64 ack windowSize.toNat
  have hwin := windowSize.toNat_lt
  have h1 := hedge.lt
  have h2 := hedge.le
  omega

/-- The edge used for one call is an edge `fill_window` can work with. -/
theorem probeEdge_bounds {edge next : Nat} (windowSize : UInt16) (hlt : edge < 2 ^ 64)
    (hle : edge ≤ next + 65535) :
    probeEdge edge windowSize < 2 ^ 64 ∧ probeEdge edge windowSize ≤ next + 65536 ∧
      probeEdge edge windowSize ≤ edge + 1 := by
  rw [probeEdge]
  have h1 := Word.add_lt 64 edge 1
  have h2 := Word.add_le 64 edge 1
  split_ifs <;> omega

/-- `fill_window` as an accepted acknowledgment calls it. -/
theorem Sent.readyToFill_fillWindow (h : Sent s whole firsts n fin) (hedge : EdgeInRange s)
    {ack : Nat} (windowSize : UInt16) (hrej : s.rejects ack = false) :
    ∃ new n' fin',
      Advanced (s.readyToFill ack windowSize) (s.readyToFill ack windowSize).fillWindow new ∧
      Sent (s.readyToFill ack windowSize).fillWindow whole (firsts ++ new) n' fin' ∧
      n ≤ n' ∧ (fin = true → fin' = true ∧ new = []) ∧
      (fin = false → fin' = true →
        n' = whole.length ∧ (s.readyToFill ack windowSize).stream.inputEnd = true) ∧
      (s.readyToFill ack windowSize).fillWindow.nextSeqno =
        min ((s.readyToFill ack windowSize).nextSeqno + (s.readyToFill ack windowSize).backlog)
          (max (s.readyToFill ack windowSize).nextSeqno
            (s.readyToFill ack windowSize).wdRightEdge) := by
  obtain ⟨hcur, hnext⟩ := accepts_iff.mp hrej
  obtain ⟨hwlt, hwle⟩ := hedge.widened hnext windowSize
  obtain ⟨hplt, hple, -⟩ := probeEdge_bounds windowSize hwlt hwle
  have hpos : 1 ≤ (s.readyToFill ack windowSize).wdRightEdge ∨
      (s.readyToFill ack windowSize).nextSeqno ≠ 0 := by
    rw [readyToFill_wdRightEdge, readyToFill_nextSeqno]
    by_cases hzero : s.nextSeqno = 0
    · have hone := hedge.pos
      rw [probeEdge]
      split_ifs
      · rw [Word.add_of_lt (by omega)]
        omega
      · omega
    · exact Or.inr hzero
  exact (h.readyToFill hcur windowSize).fillWindow hplt
    (by rw [readyToFill_nextSeqno]; exact hple) hpos

/-- An accepted acknowledgment fills the window under the probe edge and puts the
edge back. -/
theorem ackReceived_of_accepts {ackno : WrappingInt32} {ack : Nat} (windowSize : UInt16)
    (hack : ack = unwrap ackno s.isn s.nextSeqno) (hrej : s.rejects ack = false)
    (hlt : max s.wdRightEdge (Word.add 64 ack windowSize.toNat) < 2 ^ 64)
    (hframe : (s.readyToFill ack windowSize).fillWindow.wdRightEdge =
      (s.readyToFill ack windowSize).wdRightEdge) :
    s.ackReceived ackno windowSize =
      { (s.readyToFill ack windowSize).fillWindow with
        wdRightEdge := max s.wdRightEdge (Word.add 64 ack windowSize.toNat) } := by
  have hno : ¬ s.rejects (unwrap ackno s.isn s.nextSeqno) = true := by
    rw [← hack, hrej]
    simp
  rw [ackReceived, if_neg hno, ← hack]
  simp only [widen_eq, acknowledge_wdRightEdge, readyToFill] at hframe ⊢
  generalize s.acknowledge ack = t at hframe ⊢
  generalize max s.wdRightEdge (Word.add 64 ack windowSize.toNat) = edge at hlt hframe ⊢
  by_cases hzero : windowSize = 0
  · have hprobe : probeEdge edge windowSize = Word.add 64 edge 1 := if_pos hzero
    rw [hprobe] at hframe ⊢
    rw [if_pos hzero, hframe, Word.sub_add_cancel hlt]
  · have hprobe : probeEdge edge windowSize = edge := if_neg hzero
    rw [hprobe] at hframe ⊢
    rw [if_neg hzero]
    generalize fillWindow { t with wdRightEdge := edge } = u at hframe ⊢
    rw [← hframe]

end AckReceived

/-! ## One call of a method -/

/-- What every method of the sender does.  It pushes `pushed`: segments sent for
the first time, or else copies of earlier ones and empty segments. -/
structure Stepped (s s' : TCPSender) (whole : List Byte) (firsts : List TCPSegment) (n : Nat)
    (fin : Bool) (pushed firsts' : List TCPSegment) (n' : Nat) (fin' : Bool) : Prop where
  isn : s'.isn = s.isn
  segmentsOut : s'.segmentsOut = s.segmentsOut ++ pushed
  sent : Sent s' whole firsts' n' fin'
  edge : EdgeInRange s'
  pushes : firsts' = firsts ++ pushed ∨
    (firsts' = firsts ∧ s'.nextSeqno = s.nextSeqno ∧
      ∀ seg ∈ pushed, seg ∈ firsts ∨
        (s.nextSeqno ≠ 0 ∧ seg = segment s.isn s.nextSeqno [] false false))
  carried_le : n ≤ n'
  after_fin : fin = true → fin' = true ∧ firsts' = firsts
  fin_now : fin = false → fin' = true → n' = whole.length ∧ s.stream.inputEnd = true
  cur_le : s.curAckIndex ≤ s'.curAckIndex
  /-- only acknowledged segments leave the retransmission buffer -/
  kept : ∀ node ∈ s.segBuffer, node ∈ s'.segBuffer ∨ node.ackIndex ≤ s'.curAckIndex
  inputEnd : s'.stream.inputEnd = s.stream.inputEnd
  error : s'.stream.error = s.stream.error

section Stepped

variable {s : TCPSender} {whole : List Byte} {firsts : List TCPSegment} {n : Nat} {fin : Bool}

/-- `fill_window`: the right edge bounds what is sent. -/
theorem Sent.fillWindow_stepped (h : Sent s whole firsts n fin) (hedge : EdgeInRange s) :
    ∃ pushed firsts' n' fin',
      Stepped s s.fillWindow whole firsts n fin pushed firsts' n' fin' ∧
      s.fillWindow.curAckIndex = s.curAckIndex ∧ s.fillWindow.wdRightEdge = s.wdRightEdge ∧
      s.fillWindow.nextSeqno =
        min (s.nextSeqno + s.backlog) (max s.nextSeqno s.wdRightEdge) := by
  have hle := hedge.le
  obtain ⟨new, n', fin', hadv, hsent, hn, hafter, hnow, hnext⟩ :=
    h.fillWindow hedge.lt (by omega) (Or.inl hedge.pos)
  refine ⟨new, firsts ++ new, n', fin', ?_, hadv.curAckIndex, hadv.wdRightEdge, hnext⟩
  exact {
    isn := hadv.isn
    segmentsOut := hadv.segmentsOut
    sent := hsent
    edge := by
      have hmono := hadv.next_le
      exact ⟨by rw [hadv.wdRightEdge]; exact hedge.pos, by rw [hadv.wdRightEdge]; exact hedge.lt,
        by rw [hadv.wdRightEdge]; omega⟩
    pushes := Or.inl rfl
    carried_le := hn
    after_fin := by
      intro hf
      obtain ⟨hf', hnil⟩ := hafter hf
      exact ⟨hf', by rw [hnil, List.append_nil]⟩
    fin_now := hnow
    cur_le := hadv.curAckIndex.ge
    kept := by
      intro node hnode
      rw [hadv.segBuffer]
      exact Or.inl (List.mem_append_left _ hnode)
    inputEnd := hadv.inputEnd
    error := hadv.error }

/-- A call that changes nothing the invariant looks at and pushes only copies and
empty segments. -/
theorem Sent.stepped_of_same {s' : TCPSender} (h : Sent s whole firsts n fin)
    (hedge : EdgeInRange s) {pushed : List TCPSegment} (hstream : s'.stream = s.stream)
    (hisn : s'.isn = s.isn) (hnext : s'.nextSeqno = s.nextSeqno)
    (hfin : s'.finAckIndex = s.finAckIndex) (hcur : s'.curAckIndex = s.curAckIndex)
    (hbuf : s'.segBuffer = s.segBuffer) (hright : s'.wdRightEdge = s.wdRightEdge)
    (hout : s'.segmentsOut = s.segmentsOut ++ pushed)
    (hpushed : ∀ seg ∈ pushed, seg ∈ firsts ∨
      (s.nextSeqno ≠ 0 ∧ seg = segment s.isn s.nextSeqno [] false false)) :
    Stepped s s' whole firsts n fin pushed firsts n fin where
  isn := hisn
  segmentsOut := hout
  sent := h.congr hstream hisn hnext hfin hcur hbuf
  edge := by
    refine ⟨?_, ?_, ?_⟩
    · rw [hright]; exact hedge.pos
    · rw [hright]; exact hedge.lt
    · rw [hright, hnext]; exact hedge.le
  pushes := Or.inr ⟨rfl, hnext, hpushed⟩
  carried_le := le_refl _
  after_fin := fun hf => ⟨hf, rfl⟩
  fin_now := by
    intro hf hf'
    rw [hf] at hf'
    exact absurd hf' (by simp)
  cur_le := hcur.ge
  kept := by
    intro node hnode
    rw [hbuf]
    exact Or.inl hnode
  inputEnd := by rw [hstream]
  error := by rw [hstream]

/-- `ack_received`: nothing happens to a rejected acknowledgment; an accepted one
removes segments up to it, moves the edge and fills the window. -/
theorem Sent.ackReceived_stepped (h : Sent s whole firsts n fin) (hedge : EdgeInRange s)
    {ackno : WrappingInt32} {ack : Nat} (hack : ack = unwrap ackno s.isn s.nextSeqno)
    (windowSize : UInt16) (hrej : s.rejects ack = false) :
    ∃ pushed firsts' n' fin',
      Stepped s (s.ackReceived ackno windowSize) whole firsts n fin pushed firsts' n' fin' ∧
      (s.ackReceived ackno windowSize).curAckIndex = (s.acknowledge ack).curAckIndex ∧
      (s.acknowledge ack).curAckIndex ≤ ack ∧
      (s.ackReceived ackno windowSize).wdRightEdge =
        max s.wdRightEdge (Word.add 64 ack windowSize.toNat) ∧
      (s.ackReceived ackno windowSize).nextSeqno =
        min (s.nextSeqno + s.backlog)
          (max s.nextSeqno
            (probeEdge (max s.wdRightEdge (Word.add 64 ack windowSize.toNat)) windowSize)) := by
  obtain ⟨hcur, hnext⟩ := accepts_iff.mp hrej
  obtain ⟨hwlt, hwle⟩ := hedge.widened hnext windowSize
  have hacked := (h.acknowledge hcur).2
  obtain ⟨new, n', fin', hadv, hsent, hn, hafter, hnow, hformula⟩ :=
    h.readyToFill_fillWindow hedge windowSize hrej
  have heq := ackReceived_of_accepts windowSize hack hrej hwlt hadv.wdRightEdge
  have hmono := hadv.next_le
  rw [readyToFill_nextSeqno] at hmono
  rw [readyToFill_nextSeqno, readyToFill_backlog, readyToFill_wdRightEdge] at hformula
  rw [readyToFill_stream] at hnow
  rw [heq]
  refine ⟨new, firsts ++ new, n', fin', ?_, hadv.curAckIndex, hacked.2, rfl, hformula⟩
  exact {
    isn := hadv.isn.trans (readyToFill_isn s ack windowSize)
    segmentsOut := hadv.segmentsOut.trans (by rw [readyToFill_segmentsOut])
    sent := hsent.congr rfl rfl rfl rfl rfl rfl
    edge := ⟨le_trans hedge.pos (le_max_left _ _), hwlt,
      le_trans hwle (Nat.add_le_add_right hmono _)⟩
    pushes := Or.inl rfl
    carried_le := hn
    after_fin := by
      intro hf
      obtain ⟨hf', hnil⟩ := hafter hf
      exact ⟨hf', by rw [hnil, List.append_nil]⟩
    fin_now := hnow
    cur_le := le_trans hacked.1 (le_of_eq hadv.curAckIndex.symm)
    kept := by
      intro node hnode
      show node ∈ (s.readyToFill ack windowSize).fillWindow.segBuffer ∨
        node.ackIndex ≤ (s.readyToFill ack windowSize).fillWindow.curAckIndex
      rw [hadv.segBuffer, hadv.curAckIndex]
      cases h.acknowledge_kept hcur node hnode with
      | inl hstays => exact Or.inl (List.mem_append_left _ hstays)
      | inr hleaves => exact Or.inr hleaves
    inputEnd := hadv.inputEnd.trans (by rw [readyToFill_stream])
    error := hadv.error.trans (by rw [readyToFill_stream]) }

/-- `tick` sends a copy of the oldest outstanding segment, or nothing. -/
theorem Sent.tick_stepped (h : Sent s whole firsts n fin) (hedge : EdgeInRange s) (ms : Nat) :
    ∃ pushed, Stepped s (s.tick ms) whole firsts n fin pushed firsts n fin ∧
      (s.tick ms).curAckIndex = s.curAckIndex ∧ (s.tick ms).wdRightEdge = s.wdRightEdge ∧
      (s.tick ms).nextSeqno = s.nextSeqno := by
  obtain ⟨done, pending, hsplit, hcur, hbuf⟩ := h.outstanding
  cases pending with
  | nil =>
      rw [nodesFrom] at hbuf
      have htick : s.tick ms = s := by rw [tick, hbuf]
      rw [htick]
      exact ⟨[], h.stepped_of_same hedge rfl rfl rfl rfl rfl rfl rfl (by simp) (by simp),
        rfl, rfl, rfl⟩
  | cons front rest =>
      rw [nodesFrom] at hbuf
      have hmem : front ∈ firsts := by rw [hsplit]; simp
      rw [tick, hbuf]
      simp only
      split_ifs
      · refine ⟨[], h.stepped_of_same hedge rfl rfl rfl rfl rfl ?_ rfl (by simp) (by simp),
          rfl, rfl, rfl⟩
        exact hbuf.symm
      all_goals
        refine ⟨[front], h.stepped_of_same hedge rfl rfl rfl rfl rfl ?_ rfl rfl ?_, rfl, rfl, rfl⟩
        · exact hbuf.symm
        · intro seg hseg
          rw [List.mem_singleton.mp hseg]
          exact Or.inl hmem

/-- `send_empty_ack` sends the SYN if nothing has been sent, and otherwise an
empty segment at the next sequence number. -/
theorem Sent.sendEmptyAck_stepped (h : Sent s whole firsts n fin) (hedge : EdgeInRange s) :
    ∃ pushed firsts' n' fin',
      Stepped s s.sendEmptyAck whole firsts n fin pushed firsts' n' fin' ∧
      s.sendEmptyAck.curAckIndex = s.curAckIndex ∧ s.sendEmptyAck.wdRightEdge = s.wdRightEdge ∧
      s.sendEmptyAck.nextSeqno = max s.nextSeqno 1 := by
  rw [sendEmptyAck]
  split_ifs with hzero
  · have hspan : span [segment s.isn 0 [] true false] = 1 := by simp
    have hsend : s.sendNewSeg s.synSeg = s.afterSending [segment s.isn 0 [] true false] := by
      rw [synSeg_eq, hzero]
      apply sendNewSeg_eq
      rw [hzero]
      simp
    have hadv := advanced_afterSending s [segment s.isn 0 [] true false]
    have hnone := h.shape.eq_nil (h.next.symm.trans hzero)
    have hle := hedge.le
    rw [hsend]
    refine ⟨[segment s.isn 0 [] true false], firsts ++ [segment s.isn 0 [] true false], 0, false,
      ?_, rfl, rfl, ?_⟩
    · exact {
        isn := rfl
        segmentsOut := rfl
        sent := h.syn hzero
        edge := ⟨hedge.pos, hedge.lt, by
          rw [hadv.wdRightEdge, hadv.nextSeqno]
          omega⟩
        pushes := Or.inl rfl
        carried_le := hnone.2.1.le
        after_fin := by
          intro hf
          rw [hnone.2.2] at hf
          exact absurd hf (by simp)
        fin_now := by simp
        cur_le := le_refl _
        kept := by
          intro node hnode
          rw [hadv.segBuffer]
          exact Or.inl (List.mem_append_left _ hnode)
        inputEnd := rfl
        error := rfl }
    · rw [hadv.nextSeqno, hspan]
      omega
  · refine ⟨[s.getInitSeg], firsts, n, fin,
      h.stepped_of_same hedge rfl rfl rfl rfl rfl rfl rfl rfl ?_, rfl, rfl, ?_⟩
    · intro seg hseg
      rw [List.mem_singleton.mp hseg]
      exact Or.inr ⟨hzero, rfl⟩
    · change s.nextSeqno = max s.nextSeqno 1
      omega

end Stepped

end TCPSender
end Sponge

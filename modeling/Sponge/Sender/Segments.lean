import Sponge.TCPSender

/-!
# The segments of an outgoing stream

A segment sent for the first time is determined by its absolute sequence number,
its payload and its flags.  `Carries` describes the segments that follow the
SYN: consecutive slices of the stream, each of one to `MAX_PAYLOAD_SIZE` bytes,
with a FIN on the last one at most.  `cutSegments` is the cut one call of
`fill_window` makes, and `fillWindow_eq` says that the call does just that.
-/

namespace Sponge
namespace TCPSender

/-- The segment at absolute sequence number `start`. -/
def segment (isn : WrappingInt32) (start : Nat) (payload : List Byte) (syn fin : Bool) :
    TCPSegment where
  header := { seqno := wrap start isn, syn := syn, fin := fin }
  payload := payload

@[simp] theorem segment_length (isn : WrappingInt32) (start : Nat) (payload : List Byte)
    (syn fin : Bool) :
    (segment isn start payload syn fin).lengthInSequenceSpace =
      payload.length + (if syn then 1 else 0) + (if fin then 1 else 0) := rfl

/-- Sequence space occupied by a list of segments. -/
def span (segs : List TCPSegment) : Nat :=
  (segs.map TCPSegment.lengthInSequenceSpace).sum

@[simp] theorem span_nil : span [] = 0 := rfl

@[simp] theorem span_cons (seg : TCPSegment) (segs : List TCPSegment) :
    span (seg :: segs) = seg.lengthInSequenceSpace + span segs := by
  simp [span]

@[simp] theorem span_append (xs ys : List TCPSegment) : span (xs ++ ys) = span xs + span ys := by
  simp [span]

/-- Segments sent one after the other from `start`, with the sequence numbers
that acknowledge them. -/
def nodesFrom : Nat → List TCPSegment → List SegNode
  | _, [] => []
  | start, seg :: rest =>
      ⟨seg, start + seg.lengthInSequenceSpace⟩ ::
        nodesFrom (start + seg.lengthInSequenceSpace) rest

theorem nodesFrom_append (start : Nat) (xs ys : List TCPSegment) :
    nodesFrom start (xs ++ ys) = nodesFrom start xs ++ nodesFrom (start + span xs) ys := by
  induction xs generalizing start with
  | nil => simp [nodesFrom]
  | cons x rest ih =>
      simp only [List.cons_append, nodesFrom, ih, span_cons]
      rw [Nat.add_assoc]

/-- A node is acknowledged by the number after its own segment. -/
theorem mem_nodesFrom {start : Nat} {segs : List TCPSegment} {node : SegNode}
    (h : node ∈ nodesFrom start segs) :
    ∃ before after, segs = before ++ node.seg :: after ∧
      node.ackIndex = start + span before + node.seg.lengthInSequenceSpace := by
  induction segs generalizing start with
  | nil => exact absurd h (by simp [nodesFrom])
  | cons seg rest ih =>
      rw [nodesFrom] at h
      cases List.mem_cons.mp h with
      | inl hhead =>
          rw [hhead]
          exact ⟨[], rest, rfl, rfl⟩
      | inr htail =>
          obtain ⟨before, after, hsplit, hindex⟩ := ih htail
          refine ⟨seg :: before, after, ?_, ?_⟩
          · rw [hsplit, List.cons_append]
          · rw [hindex, span_cons]
            omega

theorem nodesFrom_le {start : Nat} {segs : List TCPSegment} {node : SegNode}
    (h : node ∈ nodesFrom start segs) : node.ackIndex ≤ start + span segs := by
  obtain ⟨before, after, hsplit, hindex⟩ := mem_nodesFrom h
  rw [hindex, hsplit, span_append, span_cons]
  omega

/-- `segs` carry the first `n` bytes of `whole` after the SYN; `fin` says whether
the last of them has the FIN flag. -/
inductive Carries (isn : WrappingInt32) (whole : List Byte) : List TCPSegment → Nat → Bool → Prop
  | nil : Carries isn whole [] 0 false
  | data {segs : List TCPSegment} {n : Nat} (payload : List Byte)
      (h : Carries isn whole segs n false)
      (hpos : 1 ≤ payload.length) (hmax : payload.length ≤ TCPConfig.maxPayloadSize)
      (hslice : payload = (whole.drop n).take payload.length)
      (hle : n + payload.length ≤ whole.length) :
      Carries isn whole (segs ++ [segment isn (1 + n) payload false false])
        (n + payload.length) false
  | fin {segs : List TCPSegment} {n : Nat} (payload : List Byte)
      (h : Carries isn whole segs n false)
      (hmax : payload.length ≤ TCPConfig.maxPayloadSize)
      (hslice : payload = (whole.drop n).take payload.length)
      (hle : n + payload.length ≤ whole.length) :
      Carries isn whole (segs ++ [segment isn (1 + n) payload false true])
        (n + payload.length) true

section Carries

variable {isn : WrappingInt32} {whole : List Byte} {segs : List TCPSegment} {n : Nat} {fin : Bool}

theorem Carries.le_length (h : Carries isn whole segs n fin) : n ≤ whole.length := by
  cases h with
  | nil => exact Nat.zero_le _
  | data _ _ _ _ _ hle => exact hle
  | fin _ _ _ _ hle => exact hle

theorem Carries.span_eq (h : Carries isn whole segs n fin) :
    span segs = n + (if fin then 1 else 0) := by
  induction h with
  | nil => rfl
  | data payload _ _ _ _ _ ih => simp [ih]
  | fin payload _ _ _ _ ih => simp [ih]; omega

private theorem slice_append {n : Nat} {payload : List Byte} (more : List Byte)
    (hslice : payload = (whole.drop n).take payload.length)
    (hle : n + payload.length ≤ whole.length) :
    payload = ((whole ++ more).drop n).take payload.length := by
  rw [List.drop_append_of_le_length (by omega), List.take_append_of_le_length (by simp; omega)]
  exact hslice

/-- The stream may grow after the segments have been sent. -/
theorem Carries.append (h : Carries isn whole segs n fin) (more : List Byte) :
    Carries isn (whole ++ more) segs n fin := by
  induction h with
  | nil => exact .nil
  | data payload _ hpos hmax hslice hle ih =>
      exact .data payload ih hpos hmax (slice_append more hslice hle) (by simp; omega)
  | fin payload _ hmax hslice hle ih =>
      exact .fin payload ih hmax (slice_append more hslice hle) (by simp; omega)

/-- The sequence number of a segment counts what comes before it. -/
theorem Carries.start_eq (h : Carries isn whole segs n fin) {before after : List TCPSegment}
    {seg : TCPSegment} (hsplit : segs = before ++ seg :: after) :
    ∃ payload flag, seg = segment isn (1 + span before) payload false flag ∧
      payload = (whole.drop (span before)).take payload.length ∧
      span before + payload.length ≤ n ∧
      (flag = true → fin = true ∧ span before + payload.length = n) := by
  induction h generalizing after with
  | nil => exact absurd hsplit (by simp)
  | @data segs n payload hcarries hpos hmax hslice hle ih =>
      rcases List.eq_nil_or_concat after with rfl | ⟨after', last, rfl⟩
      · obtain ⟨hsegs, hseg⟩ := List.append_inj' hsplit rfl
        have hspan := hcarries.span_eq
        simp only [Bool.false_eq_true, if_false, Nat.add_zero] at hspan
        rw [← hsegs, hspan]
        exact ⟨payload, false, by simpa using hseg.symm, hslice, le_refl _, by simp⟩
      · have hsplit' : segs ++ [segment isn (1 + n) payload false false] =
            (before ++ seg :: after') ++ [last] := by simpa using hsplit
        obtain ⟨p, flag, heq, hp, hk, hflag⟩ := ih (List.append_inj' hsplit' rfl).1
        refine ⟨p, flag, heq, hp, by omega, ?_⟩
        intro hf
        exact absurd (hflag hf).1 (by simp)
  | @fin segs n payload hcarries hmax hslice hle ih =>
      rcases List.eq_nil_or_concat after with rfl | ⟨after', last, rfl⟩
      · obtain ⟨hsegs, hseg⟩ := List.append_inj' hsplit rfl
        have hspan := hcarries.span_eq
        simp only [Bool.false_eq_true, if_false, Nat.add_zero] at hspan
        rw [← hsegs, hspan]
        exact ⟨payload, true, by simpa using hseg.symm, hslice, le_refl _, fun _ => ⟨rfl, rfl⟩⟩
      · have hsplit' : segs ++ [segment isn (1 + n) payload false true] =
            (before ++ seg :: after') ++ [last] := by simpa using hsplit
        obtain ⟨p, flag, heq, hp, hk, hflag⟩ := ih (List.append_inj' hsplit' rfl).1
        refine ⟨p, flag, heq, hp, by omega, ?_⟩
        intro hf
        exact absurd (hflag hf).1 (by simp)

/-- Each segment carries the slice its sequence number says, without SYN; a FIN
sits at the end of what has been carried. -/
theorem Carries.mem (h : Carries isn whole segs n fin) {seg : TCPSegment} (hseg : seg ∈ segs) :
    ∃ k payload flag, seg = segment isn (1 + k) payload false flag ∧
      payload = (whole.drop k).take payload.length ∧ k + payload.length ≤ n ∧
      (flag = true → fin = true ∧ k + payload.length = n) := by
  obtain ⟨before, after, hsplit⟩ := List.append_of_mem hseg
  exact ⟨span before, h.start_eq hsplit⟩

end Carries

/-! ## The cut made by one call -/

/-- Full segments followed by a shorter last one, which carries the FIN. -/
def cutSegments (isn : WrappingInt32) : Nat → Nat → List Byte → Bool → List TCPSegment
  | 0, start, data, fin =>
      if data ≠ [] ∨ fin = true then [segment isn start data false fin] else []
  | fuel + 1, start, data, fin =>
      if TCPConfig.maxPayloadSize < data.length then
        segment isn start (data.take TCPConfig.maxPayloadSize) false false ::
          cutSegments isn fuel (start + TCPConfig.maxPayloadSize)
            (data.drop TCPConfig.maxPayloadSize) fin
      else if data ≠ [] ∨ fin = true then [segment isn start data false fin] else []

private theorem length_take_full {data : List Byte}
    (h : TCPConfig.maxPayloadSize < data.length) :
    (data.take TCPConfig.maxPayloadSize).length = TCPConfig.maxPayloadSize := by
  rw [List.length_take]
  omega

/-- The last segment of a cut takes what is left. -/
private theorem span_last (isn : WrappingInt32) (start : Nat) (data : List Byte) (fin : Bool) :
    span (if data ≠ [] ∨ fin = true then [segment isn start data false fin] else []) =
      data.length + (if fin then 1 else 0) := by
  split_ifs with h1 h2 h2
  · simp [h2]
  · simp [h2]
  · simp [h2] at h1
  · have hnil : data = [] := by
      by_contra hne
      exact h1 (Or.inl hne)
    simp [hnil]

theorem span_cutSegments (isn : WrappingInt32) (fuel start : Nat) (data : List Byte) (fin : Bool) :
    span (cutSegments isn fuel start data fin) = data.length + (if fin then 1 else 0) := by
  induction fuel generalizing start data with
  | zero => exact span_last isn start data fin
  | succ fuel ih =>
      rw [cutSegments]
      by_cases hfull : TCPConfig.maxPayloadSize < data.length
      · rw [if_pos hfull, span_cons, ih, segment_length, length_take_full hfull, List.length_drop]
        simp
        omega
      · rw [if_neg hfull]
        exact span_last isn start data fin

/-- A cut of the next bytes of the stream extends what is carried. -/
private theorem Carries.last {isn : WrappingInt32} {whole : List Byte} {segs : List TCPSegment}
    {n : Nat} (h : Carries isn whole segs n false) {data : List Byte} (fin : Bool)
    (hslice : data = (whole.drop n).take data.length) (hle : n + data.length ≤ whole.length)
    (hmax : data.length ≤ TCPConfig.maxPayloadSize) :
    Carries isn whole
      (segs ++ if data ≠ [] ∨ fin = true then [segment isn (1 + n) data false fin] else [])
      (n + data.length) fin := by
  cases fin with
  | true =>
      rw [if_pos (Or.inr rfl)]
      exact .fin data h hmax hslice hle
  | false =>
      by_cases hne : data = []
      · simpa [hne] using h
      · rw [if_pos (Or.inl hne)]
        exact .data data h (List.length_pos_of_ne_nil hne) hmax hslice hle

theorem Carries.cutSegments {isn : WrappingInt32} {whole : List Byte} {segs : List TCPSegment}
    {n : Nat} (h : Carries isn whole segs n false) {fuel : Nat} {data : List Byte} (fin : Bool)
    (hfuel : data.length ≤ fuel)
    (hslice : data = (whole.drop n).take data.length) (hle : n + data.length ≤ whole.length) :
    Carries isn whole (segs ++ cutSegments isn fuel (1 + n) data fin) (n + data.length) fin := by
  induction fuel generalizing segs n data with
  | zero => exact h.last fin hslice hle (by omega)
  | succ fuel ih =>
      rw [TCPSender.cutSegments]
      by_cases hfull : TCPConfig.maxPayloadSize < data.length
      · -- one full segment, then the rest of the data from `n + MAX_PAYLOAD_SIZE` on
        have hmax : 1 ≤ TCPConfig.maxPayloadSize := by decide
        have htake := length_take_full hfull
        have hhead : data.take TCPConfig.maxPayloadSize =
            (whole.drop n).take (data.take TCPConfig.maxPayloadSize).length := by
          rw [htake]
          conv_lhs => rw [hslice]
          rw [List.take_take, Nat.min_eq_left hfull.le]
        have hstep : Carries isn whole
            (segs ++ [segment isn (1 + n) (data.take TCPConfig.maxPayloadSize) false false])
            (n + TCPConfig.maxPayloadSize) false := by
          have hdata := Carries.data (data.take TCPConfig.maxPayloadSize) h (by omega) (by omega)
            hhead (by omega)
          rwa [htake] at hdata
        have hlen : (data.drop TCPConfig.maxPayloadSize).length =
            data.length - TCPConfig.maxPayloadSize := List.length_drop
        have htail : data.drop TCPConfig.maxPayloadSize =
            (whole.drop (n + TCPConfig.maxPayloadSize)).take
              (data.drop TCPConfig.maxPayloadSize).length := by
          rw [hlen]
          conv_lhs => rw [hslice]
          rw [List.drop_take, List.drop_drop]
        have hrec : Carries isn whole
            (segs ++ [segment isn (1 + n) (data.take TCPConfig.maxPayloadSize) false false] ++
              TCPSender.cutSegments isn fuel (1 + (n + TCPConfig.maxPayloadSize))
                (data.drop TCPConfig.maxPayloadSize) fin)
            (n + TCPConfig.maxPayloadSize + (data.drop TCPConfig.maxPayloadSize).length) fin :=
          ih hstep (by omega) htail (by omega)
        rw [if_pos hfull, List.append_cons]
        rwa [show 1 + n + TCPConfig.maxPayloadSize = 1 + (n + TCPConfig.maxPayloadSize) by omega,
          show n + data.length = n + TCPConfig.maxPayloadSize +
            (data.drop TCPConfig.maxPayloadSize).length by omega]
      · rw [if_neg hfull]
        exact h.last fin hslice hle (by omega)

/-! ## Sending a list of segments -/

/-- The sender after `segs` have been sent for the first time. -/
def afterSending (s : TCPSender) (segs : List TCPSegment) : TCPSender :=
  { s with
    segmentsOut := s.segmentsOut ++ segs
    nextSeqno := s.nextSeqno + span segs
    segBuffer := s.segBuffer ++ nodesFrom s.nextSeqno segs }

@[simp] theorem afterSending_nil (s : TCPSender) : s.afterSending [] = s := by
  simp [afterSending, nodesFrom]

theorem afterSending_append (s : TCPSender) (xs ys : List TCPSegment) :
    (s.afterSending xs).afterSending ys = s.afterSending (xs ++ ys) := by
  simp [afterSending, nodesFrom_append, Nat.add_assoc]

theorem sendNewSeg_eq {s : TCPSender} {seg : TCPSegment}
    (h : s.nextSeqno + seg.lengthInSequenceSpace < 2 ^ 64) :
    s.sendNewSeg seg = s.afterSending [seg] := by
  rw [sendNewSeg, Word.add_of_lt h]
  simp [afterSending, nodesFrom]

theorem synSeg_eq (s : TCPSender) : s.synSeg = segment s.isn s.nextSeqno [] true false := rfl

/-- The loop and the last segment after it send the cut of the data. -/
theorem sendFull_eq {s : TCPSender} (fuel : Nat) {data : List Byte} (fin : Bool)
    (hroom : s.nextSeqno + data.length + (if fin then 1 else 0) < 2 ^ 64) :
    (if (sendFull fuel s data).2 ≠ [] ∨ fin = true then
      (sendFull fuel s data).1.sendNewSeg
        { header := { (sendFull fuel s data).1.getInitSeg.header with fin := fin }
          payload := (sendFull fuel s data).2 }
     else (sendFull fuel s data).1) =
      s.afterSending (cutSegments s.isn fuel s.nextSeqno data fin) := by
  -- what the loop leaves over goes into one last segment, with the FIN
  have hlast : ∀ (s : TCPSender) (data : List Byte),
      s.nextSeqno + data.length + (if fin then 1 else 0) < 2 ^ 64 →
      (if data ≠ [] ∨ fin = true then
        s.sendNewSeg { header := { s.getInitSeg.header with fin := fin }, payload := data }
       else s) =
      s.afterSending
        (if data ≠ [] ∨ fin = true then [segment s.isn s.nextSeqno data false fin] else []) := by
    intro s data hroom
    split_ifs
    · apply sendNewSeg_eq
      simpa [TCPSegment.lengthInSequenceSpace, getInitSeg, Nat.add_assoc] using hroom
    · simp
  induction fuel generalizing s data with
  | zero => exact hlast s data hroom
  | succ fuel ih =>
      by_cases hfull : TCPConfig.maxPayloadSize < data.length
      · have htake := length_take_full hfull
        have hsend : s.sendNewSeg
            { s.getInitSeg with payload := data.take TCPConfig.maxPayloadSize } =
            s.afterSending
              [segment s.isn s.nextSeqno (data.take TCPConfig.maxPayloadSize) false false] := by
          apply sendNewSeg_eq
          simp only [TCPSegment.lengthInSequenceSpace, getInitSeg, htake]
          simp
          omega
        have hstep : sendFull (fuel + 1) s data = sendFull fuel
            (s.afterSending
              [segment s.isn s.nextSeqno (data.take TCPConfig.maxPayloadSize) false false])
            (data.drop TCPConfig.maxPayloadSize) := by
          rw [sendFull, if_pos hfull, hsend]
        have hspan : span
            [segment s.isn s.nextSeqno (data.take TCPConfig.maxPayloadSize) false false] =
            TCPConfig.maxPayloadSize := by
          simp [htake]
        rw [hstep, ih, afterSending_append, cutSegments, if_pos hfull]
        · simp only [afterSending, hspan]
          rfl
        · simp only [afterSending, hspan, List.length_drop]
          omega
      · have hstop : sendFull (fuel + 1) s data = (s, data) := by
          rw [sendFull, if_neg hfull]
        rw [hstop, cutSegments, if_neg hfull]
        exact hlast s data hroom

theorem sendData_eq {s : TCPSender} {data : List Byte} {fin : Bool}
    (hroom : s.nextSeqno + data.length + (if fin then 1 else 0) < 2 ^ 64) :
    s.sendData data fin =
      { s.afterSending (cutSegments s.isn data.length s.nextSeqno data fin) with
        finAckIndex := if fin then s.nextSeqno + data.length + 1 else s.finAckIndex } := by
  have hloop := sendFull_eq data.length fin hroom
  have hspan := span_cutSegments s.isn data.length s.nextSeqno data fin
  rw [sendData]
  cases fin with
  | true =>
      rw [if_pos (Or.inr rfl)] at hloop
      simp only [or_true, if_true, hloop]
      simp only [afterSending, hspan, if_true, Nat.add_assoc]
  | false =>
      simp only [Bool.false_eq_true, or_false, if_false] at hloop ⊢
      rw [hloop]
      rfl

/-- **`fill_window`, once the SYN is out and while the FIN is not.**  With `room`
sequence numbers left in the window, the first `room` bytes buffered are sent,
and the FIN if the input has ended and there is room for it. -/
theorem fillWindow_eq {s : TCPSender} (hvalid : s.stream.Valid)
    (hfin : s.nextSeqno ≠ s.finAckIndex) (hsyn : s.nextSeqno ≠ 0) (hnext : s.nextSeqno < 2 ^ 64)
    (hroom : s.wdRightEdge - s.nextSeqno < 2 ^ 32) (hedge : s.wdRightEdge < 2 ^ 64)
    {room : Nat} (hr : room = s.wdRightEdge - s.nextSeqno)
    {data : List Byte} (hd : data = s.stream.buffer.take room)
    {fin : Bool} (hf : fin = (s.stream.inputEnd && decide (s.stream.buffer.length < room))) :
    s.fillWindow =
      { { s with stream := (s.stream.read room).1 }.afterSending
          (cutSegments s.isn data.length s.nextSeqno data fin) with
        finAckIndex := if fin then s.nextSeqno + data.length + 1 else s.finAckIndex } := by
  have hfill : s.fillSize = room := by
    rw [fillSize]
    split_ifs with hgt
    · rw [hr]
      exact Nat.mod_eq_of_lt hroom
    · rw [Nat.zero_mod]
      omega
  have hdata : (s.stream.read room).2 = data := (ByteStream.read_bytes _ _ hvalid).trans hd.symm
  have hsize := hvalid.size_eq
  have hlen : data.length = min room s.stream.buffer.length := by rw [hd, List.length_take]
  have hflag : ((s.stream.read room).1.eof && decide (data.length < room)) = fin := by
    rw [ByteStream.eof, ByteStream.read_inputEnd, ByteStream.read_size, hsize, hlen, hf]
    by_cases hlt : s.stream.buffer.length < room
    · have h2 : s.stream.buffer.length - room = 0 := by omega
      simp [hlt, h2]
    · simp [hlt]
  have hfits : s.nextSeqno + data.length + (if fin then 1 else 0) < 2 ^ 64 := by
    cases hfin : fin with
    | true =>
        have hlt : s.stream.buffer.length < room := by
          rw [hf] at hfin
          simpa using (Bool.and_eq_true_iff.mp hfin).2
        simp only [if_true]
        omega
    | false =>
        simp only [Bool.false_eq_true, if_false]
        omega
  rw [fillWindow, if_neg hfin, if_neg hsyn, hfill]
  simp only [hdata, hflag]
  exact sendData_eq hfits

/-- `fill_window` when nothing has been sent: the SYN. -/
theorem fillWindow_syn {s : TCPSender} (hfin : s.nextSeqno ≠ s.finAckIndex)
    (hsyn : s.nextSeqno = 0) :
    s.fillWindow = s.afterSending [segment s.isn 0 [] true false] := by
  rw [fillWindow, if_neg hfin, if_pos hsyn, synSeg_eq, hsyn]
  apply sendNewSeg_eq
  rw [hsyn]
  simp

theorem fillWindow_done {s : TCPSender} (hfin : s.nextSeqno = s.finAckIndex) :
    s.fillWindow = s := by
  rw [fillWindow, if_pos hfin]

end TCPSender
end Sponge

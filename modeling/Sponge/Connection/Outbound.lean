import Sponge.Sender.Fidelity
import Sponge.TCPConnection

/-!
# What a connection emits

A connection drives its sender and stamps the segments on their way out.
`Outbound` is the invariant of the sending half: the sender's own invariant, and
every segment emitted so far is a SYN, a slice of the written bytes (with the FIN
at their end only) or empty, whatever acknowledgment it carries.
-/

namespace Sponge

namespace TCPSender

/-- Several calls of methods in a row: what they push are segments sent for the
first time, copies of these, or empty segments. -/
structure Emitted (s s' : TCPSender) (whole : List Byte) (firsts : List TCPSegment) (n : Nat)
    (fin : Bool) (pushed firsts' : List TCPSegment) (n' : Nat) (fin' : Bool) : Prop where
  isn : s'.isn = s.isn
  segmentsOut : s'.segmentsOut = s.segmentsOut ++ pushed
  sent : Sent s' whole firsts' n' fin'
  edge : EdgeInRange s'
  kinds : ∀ seg ∈ pushed, seg ∈ firsts' ∨
    ∃ m, m ≠ 0 ∧ m ≤ s'.nextSeqno ∧ seg = segment s.isn m [] false false
  mono : ∀ seg ∈ firsts, seg ∈ firsts'
  new_pushed : ∀ seg ∈ firsts', seg ∈ firsts ∨ seg ∈ pushed
  next_le : s.nextSeqno ≤ s'.nextSeqno
  carried_le : n ≤ n'
  after_fin : fin = true → fin' = true
  fin_now : fin = false → fin' = true → n' = whole.length ∧ s.stream.inputEnd = true
  cur_le : s.curAckIndex ≤ s'.curAckIndex
  kept : ∀ node ∈ s.segBuffer, node ∈ s'.segBuffer ∨ node.ackIndex ≤ s'.curAckIndex
  inputEnd : s'.stream.inputEnd = s.stream.inputEnd
  error : s'.stream.error = s.stream.error

section Emitted

variable {s s' s'' : TCPSender} {whole : List Byte} {firsts firsts' firsts'' : List TCPSegment}
  {pushed pushed' : List TCPSegment} {n n' n'' : Nat} {fin fin' fin'' : Bool}

theorem Sent.emitted_refl (h : Sent s whole firsts n fin) (hedge : EdgeInRange s) :
    Emitted s s whole firsts n fin [] firsts n fin where
  isn := rfl
  segmentsOut := by simp
  sent := h
  edge := hedge
  kinds := by simp
  mono := fun _ hseg => hseg
  new_pushed := fun _ hseg => Or.inl hseg
  next_le := le_refl _
  carried_le := le_refl _
  after_fin := fun hf => hf
  fin_now := by
    intro hf hf'
    rw [hf] at hf'
    exact absurd hf' (by simp)
  cur_le := le_refl _
  kept := fun _ hnode => Or.inl hnode
  inputEnd := rfl
  error := rfl

theorem Stepped.emitted (h : Stepped s s' whole firsts n fin pushed firsts' n' fin')
    (hnext : s.nextSeqno = span firsts) :
    Emitted s s' whole firsts n fin pushed firsts' n' fin' where
  isn := h.isn
  segmentsOut := h.segmentsOut
  sent := h.sent
  edge := h.edge
  kinds := by
    intro seg hseg
    rcases h.pushes with hnew | ⟨hsame, hnum, hcopies⟩
    · rw [hnew]
      exact Or.inl (List.mem_append_right _ hseg)
    · rw [hsame, hnum]
      cases hcopies seg hseg with
      | inl hcopy => exact Or.inl hcopy
      | inr hempty => exact Or.inr ⟨_, hempty.1, le_refl _, hempty.2⟩
  mono := by
    intro seg hseg
    rcases h.pushes with hnew | ⟨hsame, -⟩
    · rw [hnew]
      exact List.mem_append_left _ hseg
    · rw [hsame]
      exact hseg
  new_pushed := by
    intro seg hseg
    rcases h.pushes with hnew | ⟨hsame, -⟩
    · rw [hnew] at hseg
      exact List.mem_append.mp hseg
    · rw [hsame] at hseg
      exact Or.inl hseg
  next_le := by
    rcases h.pushes with hnew | ⟨-, hnum, -⟩
    · rw [h.sent.next, hnew, span_append, hnext]
      exact Nat.le_add_right _ _
    · exact hnum.ge
  carried_le := h.carried_le
  after_fin := fun hf => (h.after_fin hf).1
  fin_now := h.fin_now
  cur_le := h.cur_le
  kept := h.kept
  inputEnd := h.inputEnd
  error := h.error

theorem Emitted.trans (h : Emitted s s' whole firsts n fin pushed firsts' n' fin')
    (h' : Emitted s' s'' whole firsts' n' fin' pushed' firsts'' n'' fin'') :
    Emitted s s'' whole firsts n fin (pushed ++ pushed') firsts'' n'' fin'' where
  isn := h'.isn.trans h.isn
  segmentsOut := by rw [h'.segmentsOut, h.segmentsOut, List.append_assoc]
  sent := h'.sent
  edge := h'.edge
  kinds := by
    intro seg hseg
    cases List.mem_append.mp hseg with
    | inl hfirst =>
        rcases h.kinds seg hfirst with hcopy | ⟨m, hm, hle, heq⟩
        · exact Or.inl (h'.mono seg hcopy)
        · exact Or.inr ⟨m, hm, le_trans hle h'.next_le, heq⟩
    | inr hsecond =>
        have hkind := h'.kinds seg hsecond
        rw [h.isn] at hkind
        exact hkind
  mono := fun seg hseg => h'.mono seg (h.mono seg hseg)
  new_pushed := by
    intro seg hseg
    cases h'.new_pushed seg hseg with
    | inl hmid =>
        cases h.new_pushed seg hmid with
        | inl hold => exact Or.inl hold
        | inr hnew => exact Or.inr (List.mem_append_left _ hnew)
    | inr hnew => exact Or.inr (List.mem_append_right _ hnew)
  next_le := le_trans h.next_le h'.next_le
  carried_le := le_trans h.carried_le h'.carried_le
  after_fin := fun hf => h'.after_fin (h.after_fin hf)
  fin_now := by
    intro hf hf''
    cases hmid : fin' with
    | true =>
        -- the FIN was sent by the first part, when everything had been carried
        obtain ⟨hall, hended⟩ := h.fin_now hf hmid
        have hle := h'.carried_le
        have hbound := h'.sent.shape.le_length
        exact ⟨by omega, hended⟩
    | false =>
        have hnow := h'.fin_now hmid hf''
        rw [h.inputEnd] at hnow
        exact hnow
  cur_le := le_trans h.cur_le h'.cur_le
  kept := by
    intro node hnode
    cases h.kept node hnode with
    | inl hmid => exact h'.kept node hmid
    | inr hacked => exact Or.inr (le_trans hacked h'.cur_le)
  inputEnd := h'.inputEnd.trans h.inputEnd
  error := h'.error.trans h.error

/-- Segments leave the sender without an acknowledgment. -/
theorem FirstSent.ack_eq_false {isn : WrappingInt32} (h : FirstSent isn whole firsts n fin)
    {seg : TCPSegment} (hseg : seg ∈ firsts) : seg.header.ack = false := by
  rcases h with ⟨rfl, -, -⟩ | ⟨rest, rfl, hcarries⟩
  · exact absurd hseg (by simp)
  · cases List.mem_cons.mp hseg with
    | inl hsyn =>
        rw [hsyn]
        rfl
    | inr hrest =>
        obtain ⟨k, payload, flag, heq, -⟩ := hcarries.mem hrest
        rw [heq]
        rfl

theorem Emitted.ack_eq_false (h : Emitted s s' whole firsts n fin pushed firsts' n' fin')
    {seg : TCPSegment} (hseg : seg ∈ pushed) : seg.header.ack = false := by
  rcases h.kinds seg hseg with hcopy | ⟨m, -, -, heq⟩
  · exact h.sent.shape.ack_eq_false hcopy
  · rw [heq]
    rfl

/-- The acknowledgment on a segment: nothing happens unless it is accepted. -/
theorem Sent.takeAck_emitted (h : Sent s whole firsts n fin) (hedge : EdgeInRange s)
    (seg : TCPSegment) :
    ∃ pushed firsts' n' fin',
      Emitted s (TCPConnection.takeAck s seg) whole firsts n fin pushed firsts' n' fin' := by
  unfold TCPConnection.takeAck
  split_ifs
  · cases hrej : s.rejects (unwrap seg.header.ackno s.isn s.nextSeqno) with
    | true =>
        rw [ackReceived_of_rejects seg.header.win hrej]
        exact ⟨[], firsts, n, fin, h.emitted_refl hedge⟩
    | false =>
        obtain ⟨pushed, firsts', n', fin', hstep, -⟩ :=
          h.ackReceived_stepped hedge rfl seg.header.win hrej
        exact ⟨pushed, firsts', n', fin', hstep.emitted h.next⟩
  · exact ⟨[], firsts, n, fin, h.emitted_refl hedge⟩

/-- The sender's half of `segment_received`. -/
theorem Sent.respond_emitted (h : Sent s whole firsts n fin) (hedge : EdgeInRange s)
    (seg : TCPSegment) :
    ∃ pushed firsts' n' fin',
      Emitted s (TCPConnection.respond s seg) whole firsts n fin pushed firsts' n' fin' := by
  obtain ⟨pushed, firsts', n', fin', hack⟩ := h.takeAck_emitted hedge seg
  unfold TCPConnection.respond
  split_ifs
  · obtain ⟨pushed', firsts'', n'', fin'', hstep, -⟩ := hack.sent.sendEmptyAck_stepped hack.edge
    exact ⟨_, firsts'', n'', fin'', hack.trans (hstep.emitted hack.sent.next)⟩
  · exact ⟨pushed, firsts', n', fin', hack⟩

/-- Where the acknowledged number of a sender comes from. -/
theorem Sent.respond_curAckIndex (h : Sent s whole firsts n fin) (hedge : EdgeInRange s)
    (seg : TCPSegment) :
    (TCPConnection.respond s seg).curAckIndex = s.curAckIndex ∨
      (seg.header.ack = true ∧
        s.rejects (unwrap seg.header.ackno s.isn s.nextSeqno) = false ∧
        (TCPConnection.respond s seg).curAckIndex ≤
          unwrap seg.header.ackno s.isn s.nextSeqno) := by
  have hack : (TCPConnection.takeAck s seg).curAckIndex = s.curAckIndex ∨
      (seg.header.ack = true ∧
        s.rejects (unwrap seg.header.ackno s.isn s.nextSeqno) = false ∧
        (TCPConnection.takeAck s seg).curAckIndex ≤
          unwrap seg.header.ackno s.isn s.nextSeqno) := by
    unfold TCPConnection.takeAck
    split_ifs with hflag
    · cases hrej : s.rejects (unwrap seg.header.ackno s.isn s.nextSeqno) with
      | true =>
          rw [ackReceived_of_rejects seg.header.win hrej]
          exact Or.inl rfl
      | false =>
          obtain ⟨-, -, -, -, -, hcur, hbelow, -⟩ :=
            h.ackReceived_stepped hedge rfl seg.header.win hrej
          exact Or.inr ⟨hflag, rfl, hcur.trans_le hbelow⟩
    · exact Or.inl rfl
  obtain ⟨pushed, firsts', n', fin', hemit⟩ := h.takeAck_emitted hedge seg
  have hsame : (TCPConnection.respond s seg).curAckIndex =
      (TCPConnection.takeAck s seg).curAckIndex := by
    unfold TCPConnection.respond
    split_ifs
    · obtain ⟨-, -, -, -, -, hcur, -⟩ := hemit.sent.sendEmptyAck_stepped hemit.edge
      exact hcur
    · rfl
  rw [hsame]
  exact hack

end Emitted
end TCPSender

/-! ## Segments on the wire -/

/-- A segment that belongs to the stream `whole`, which has ended if `ended` says
so; its acknowledgment and window do not matter. -/
def OnWire (isn : WrappingInt32) (whole : List Byte) (ended : Bool) (seg : TCPSegment) : Prop :=
  (seg.header.syn = true ∧ seg.header.fin = false ∧ seg.payload = [] ∧ seg.header.seqno = isn) ∨
    (seg.header.syn = false ∧ ∃ k, seg.header.seqno = wrap (1 + k) isn ∧
      seg.payload = (whole.drop k).take seg.payload.length ∧ k ≤ whole.length + 1 ∧
      (seg.payload ≠ [] → k + seg.payload.length ≤ whole.length) ∧
      (seg.header.fin = true → ended = true ∧ k + seg.payload.length = whole.length))

namespace OnWire

variable {isn : WrappingInt32} {whole : List Byte} {ended : Bool} {seg : TCPSegment}

/-- More may be written as long as the stream has not ended. -/
theorem append (h : OnWire isn whole false seg) (more : List Byte) :
    OnWire isn (whole ++ more) false seg := by
  rcases h with hsyn | ⟨hsyn, k, hseq, hslice, hk, hfit, hfin⟩
  · exact Or.inl hsyn
  · refine Or.inr ⟨hsyn, k, hseq, ?_, ?_, ?_, ?_⟩
    -- an empty segment may stand one past the end, where the FIN was
    · by_cases hne : seg.payload = []
      · simp [hne]
      · have hle := hfit hne
        rw [List.drop_append_of_le_length (by omega), List.take_append_of_le_length]
        · exact hslice
        · rw [List.length_drop]
          omega
    · rw [List.length_append]
      omega
    · intro hne
      have hle := hfit hne
      rw [List.length_append]
      omega
    · intro hf
      exact absurd (hfin hf).1 (by simp)

theorem of_ended (h : OnWire isn whole ended seg) : OnWire isn whole true seg := by
  rcases h with hsyn | ⟨hsyn, k, hseq, hslice, hk, hfit, hfin⟩
  · exact Or.inl hsyn
  · exact Or.inr ⟨hsyn, k, hseq, hslice, hk, hfit, fun hf => ⟨rfl, (hfin hf).2⟩⟩

theorem of_firstSent {firsts : List TCPSegment} {n : Nat} {fin : Bool}
    (h : TCPSender.FirstSent isn whole firsts n fin)
    (hfin : fin = true → ended = true ∧ n = whole.length) (hseg : seg ∈ firsts) :
    OnWire isn whole ended seg := by
  have hle := h.le_length
  rcases h with ⟨rfl, -, -⟩ | ⟨rest, rfl, hcarries⟩
  · exact absurd hseg (by simp)
  · cases List.mem_cons.mp hseg with
    | inl hsyn =>
        rw [hsyn]
        exact Or.inl ⟨rfl, rfl, rfl, wrap_zero isn⟩
    | inr hrest =>
        obtain ⟨k, payload, flag, heq, hslice, hk, hflag⟩ := hcarries.mem hrest
        rw [heq]
        refine Or.inr ⟨rfl, k, rfl, hslice, by omega, fun _ => ?_, ?_⟩
        · exact le_trans hk hle
        · intro hf
          obtain ⟨hsent, hend⟩ := hflag hf
          obtain ⟨hended, hall⟩ := hfin hsent
          exact ⟨hended, hend.trans hall⟩

theorem of_empty {m : Nat} (hm : m ≠ 0) (hle : m ≤ whole.length + 2) :
    OnWire isn whole ended (TCPSender.segment isn m [] false false) := by
  refine Or.inr ⟨rfl, m - 1, ?_, by simp [TCPSender.segment], by omega, ?_, ?_⟩
  · show wrap m isn = wrap (1 + (m - 1)) isn
    rw [show 1 + (m - 1) = m by omega]
  · intro hne
    exact absurd rfl hne
  · intro hf
    exact absurd hf (by simp [TCPSender.segment])

end OnWire

/-! ## The sending half of a connection -/

/-- The sender `s` has been given the stream `whole`, and the connection has emitted
`log`. -/
structure Outbound (s : TCPSender) (log : List TCPSegment) (whole : List Byte) (ended : Bool)
    (firsts : List TCPSegment) (n : Nat) (fin : Bool) : Prop where
  sent : s.Sent whole firsts n fin
  edge : s.EdgeInRange
  drained : s.segmentsOut = []
  ended_eq : s.stream.inputEnd = ended
  fin_last : fin = true → ended = true ∧ n = whole.length
  wire : ∀ seg ∈ log, seg.header.rst = true ∨ OnWire s.isn whole ended seg
  fin_logged : fin = true → ∃ seg ∈ log, seg.header.fin = true

section Outbound

variable {s t : TCPSender} {log : List TCPSegment} {whole : List Byte} {ended : Bool}
  {firsts firsts' pushed : List TCPSegment} {n n' : Nat} {fin fin' : Bool}

theorem outbound_new (capacity : Nat) (retxTimeout : UInt16) (isn : WrappingInt32) :
    Outbound (TCPSender.new capacity retxTimeout isn) [] [] false [] 0 false where
  sent := TCPSender.sent_new capacity retxTimeout isn
  edge := TCPSender.edgeInRange_new capacity retxTimeout isn
  drained := rfl
  ended_eq := rfl
  fin_last := by simp
  wire := by simp
  fin_logged := by simp

/-- Calls of the sender's methods, and the flush after them. -/
theorem Outbound.emit (h : Outbound s log whole ended firsts n fin)
    (hemit : s.Emitted t whole firsts n fin pushed firsts' n' fin') (r : TCPReceiver) :
    Outbound { t with segmentsOut := [] }
      (log ++ t.segmentsOut.map (TCPConnection.stamp r)) whole ended firsts' n' fin' := by
  have hpushed : t.segmentsOut = pushed := by
    rw [hemit.segmentsOut, h.drained, List.nil_append]
  -- the FIN was sent before, or goes out in this step with the last byte
  have hlast : fin' = true → ended = true ∧ n' = whole.length := by
    intro hf'
    cases hf : fin with
    | true =>
        obtain ⟨hended, hall⟩ := h.fin_last hf
        have hle := hemit.carried_le
        have hbound := hemit.sent.shape.le_length
        exact ⟨hended, by omega⟩
    | false =>
        obtain ⟨hall, hended⟩ := hemit.fin_now hf hf'
        exact ⟨h.ended_eq.symm.trans hended, hall⟩
  have hnext : t.nextSeqno ≤ whole.length + 2 := by
    by_cases hzero : t.nextSeqno = 0
    · omega
    · have heq := hemit.sent.next_eq hzero
      have hbound := hemit.sent.shape.le_length
      split_ifs at heq <;> omega
  have hshape := hemit.sent.shape
  rw [hemit.isn] at hshape
  exact {
    sent := hemit.sent.drained
    edge := hemit.edge.drained
    drained := rfl
    ended_eq := hemit.inputEnd.trans h.ended_eq
    fin_last := hlast
    wire := by
      intro seg hseg
      show seg.header.rst = true ∨ OnWire t.isn whole ended seg
      rw [hemit.isn]
      cases List.mem_append.mp hseg with
      | inl hold => exact h.wire seg hold
      | inr hnew =>
          obtain ⟨orig, horig, rfl⟩ := List.mem_map.mp hnew
          rw [hpushed] at horig
          -- the stamp does not touch what `OnWire` looks at
          have hwire : OnWire s.isn whole ended orig := by
            rcases hemit.kinds orig horig with hcopy | ⟨m, hm, hle, heq⟩
            · exact OnWire.of_firstSent hshape hlast hcopy
            · rw [heq]
              exact OnWire.of_empty hm (le_trans hle hnext)
          right
          simpa [OnWire] using hwire
    fin_logged := by
      intro hf'
      cases hf : fin with
      | true =>
          obtain ⟨seg, hseg, hflag⟩ := h.fin_logged hf
          exact ⟨seg, List.mem_append_left _ hseg, hflag⟩
      | false =>
          obtain ⟨seg, hseg, hflag⟩ := hshape.fin_iff.mp hf'
          cases hemit.new_pushed seg hseg with
          | inl hold =>
              have hno := h.sent.shape.fin_iff.mpr ⟨seg, hold, hflag⟩
              rw [hf] at hno
              exact absurd hno (by simp)
          | inr hnew =>
              refine ⟨TCPConnection.stamp r seg, List.mem_append_right _ ?_, by simpa using hflag⟩
              rw [hpushed]
              exact List.mem_map_of_mem hnew }

theorem Outbound.write (h : Outbound s log whole false firsts n fin) (data : List Byte) :
    Outbound { s with stream := (s.stream.write data).1 } log
      (whole ++ s.stream.accepted data) false firsts n fin where
  sent := h.sent.write data
  edge := ⟨h.edge.pos, h.edge.lt, h.edge.le⟩
  drained := h.drained
  ended_eq := h.ended_eq
  fin_last := by
    intro hf
    exact absurd (h.fin_last hf).1 (by simp)
  wire := by
    intro seg hseg
    cases h.wire seg hseg with
    | inl hrst => exact Or.inl hrst
    | inr hwire => exact Or.inr (hwire.append _)
  fin_logged := h.fin_logged

theorem Outbound.endInput (h : Outbound s log whole ended firsts n fin) :
    Outbound { s with stream := s.stream.endInput } log whole true firsts n fin where
  sent := h.sent.endInput
  edge := ⟨h.edge.pos, h.edge.lt, h.edge.le⟩
  drained := h.drained
  ended_eq := rfl
  fin_last := fun hf => ⟨rfl, (h.fin_last hf).2⟩
  wire := by
    intro seg hseg
    cases h.wire seg hseg with
    | inl hrst => exact Or.inl hrst
    | inr hwire => exact Or.inr hwire.of_ended
  fin_logged := h.fin_logged

/-- An unclean shutdown marks the stream, and may emit a RST. -/
theorem Outbound.setError (h : Outbound s log whole ended firsts n fin) {rsts : List TCPSegment}
    (hrst : ∀ seg ∈ rsts, seg.header.rst = true) :
    Outbound { s with stream := s.stream.setError } (log ++ rsts) whole ended firsts n fin where
  sent := h.sent.setError
  edge := ⟨h.edge.pos, h.edge.lt, h.edge.le⟩
  drained := h.drained
  ended_eq := h.ended_eq
  fin_last := h.fin_last
  wire := by
    intro seg hseg
    cases List.mem_append.mp hseg with
    | inl hold => exact h.wire seg hold
    | inr hnew => exact Or.inl (hrst seg hnew)
  fin_logged := by
    intro hf
    obtain ⟨seg, hseg, hflag⟩ := h.fin_logged hf
    exact ⟨seg, List.mem_append_left _ hseg, hflag⟩

end Outbound

end Sponge

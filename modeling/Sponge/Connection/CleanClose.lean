import Sponge.Connection.Endpoint
import Sponge.Connection.Inbound

/-!
# What a clean close means

`check_close` never looks at the FIN: it goes by the end of the outgoing stream and
by the bytes in flight.  The two agree as long as the FIN does not wait with
nothing in flight.  This can only begin at a call of `end_input_stream` made when
everything has been sent and acknowledged and the peer's window is closed; a run
without such a call closes cleanly only after its FIN has been acknowledged.
-/

namespace Sponge
namespace TCPSender

/-- A stream that has ended, with nothing in flight, has had its FIN sent. -/
def Flushed (s : TCPSender) : Prop :=
  s.stream.eof = true → s.nextSeqno ≠ 0 → s.bytesInFlight = 0 → s.nextSeqno = s.finAckIndex

/-- The FIN is due, nothing is in flight and the window has no room for it. -/
def Stuck (s : TCPSender) : Prop :=
  s.stream.eof = true ∧ s.nextSeqno ≠ 0 ∧ s.bytesInFlight = 0 ∧ s.nextSeqno ≠ s.finAckIndex ∧
    s.wdRightEdge ≤ s.nextSeqno

instance (s : TCPSender) : Decidable s.Stuck :=
  inferInstanceAs (Decidable (_ ∧ _))

section Flushed

variable {s s' : TCPSender} {whole : List Byte} {firsts firsts' pushed : List TCPSegment}
  {n n' : Nat} {fin fin' : Bool}

theorem Sent.eof_iff (h : Sent s whole firsts n fin) :
    s.stream.eof = true ↔ s.stream.inputEnd = true ∧ n = whole.length := by
  have hsize := h.stream.size_eq
  have hle := h.shape.le_length
  rw [h.buffer, List.length_drop] at hsize
  rw [ByteStream.eof, Bool.and_eq_true, beq_iff_eq, hsize]
  constructor
  · intro hboth
    exact ⟨hboth.1, by omega⟩
  · intro hboth
    exact ⟨hboth.1, by omega⟩

/-- `Flushed` in terms of the invariant. -/
theorem Sent.flushed_iff (h : Sent s whole firsts n fin) :
    s.Flushed ↔ (s.stream.inputEnd = true → n = whole.length → s.nextSeqno ≠ 0 →
      s.curAckIndex = s.nextSeqno → s.nextSeqno = s.finAckIndex) := by
  have hcur := h.cur_le
  rw [Flushed, h.eof_iff, h.inFlight]
  constructor
  · intro hflush hended hall hsyn hacked
    exact hflush ⟨hended, hall⟩ hsyn (by omega)
  · intro hflush hboth hsyn hnone
    exact hflush hboth.1 hboth.2 hsyn (by omega)

/-- Nothing that `Flushed` looks at has changed. -/
theorem Sent.flushed_of_same (h : Sent s whole firsts n fin) (h' : Sent s' whole firsts' n fin)
    (hflush : s.Flushed) (hended : s'.stream.inputEnd = s.stream.inputEnd)
    (hnext : s'.nextSeqno = s.nextSeqno) (hcur : s'.curAckIndex = s.curAckIndex) : s'.Flushed := by
  have hidx : s'.finAckIndex = s.finAckIndex := by rw [h'.finIndex, h.finIndex, hnext]
  rw [h.flushed_iff] at hflush
  rw [h'.flushed_iff, hended, hnext, hcur, hidx]
  exact hflush

/-- A call of `fill_window` leaves the FIN waiting only if it found it so, with no
room in the window. -/
theorem Sent.flushed_of_filled (h : Sent s whole firsts n fin)
    (h' : Sent s' whole firsts' n' fin') (hafter : fin = true → fin' = true)
    (hended : s'.stream.inputEnd = s.stream.inputEnd) (hcur : s'.curAckIndex = s.curAckIndex)
    (hnext : s'.nextSeqno = min (s.nextSeqno + s.backlog) (max s.nextSeqno s.wdRightEdge))
    (hstuck : ¬ s.Stuck) : s'.Flushed := by
  have hcurle := h.cur_le
  rw [h'.flushed_iff]
  intro hinput hall hsyn' hacked
  by_contra hopen
  -- the FIN is still out, so nothing at all was sent
  have hfin' : fin' = false := by
    by_contra hne
    exact hopen (h'.done_of_fin (by simpa using hne))
  have hfin : fin = false := by
    by_contra hne
    rw [hafter (by simpa using hne)] at hfin'
    exact absurd hfin' (by simp)
  have hsame : s'.nextSeqno = s.nextSeqno := by omega
  have hidx : s'.finAckIndex = s.finAckIndex := by
    rw [h'.finIndex, h.finIndex, hfin', hfin]
    rfl
  have hmore : s.nextSeqno ≠ s.finAckIndex := by
    rw [← hsame, ← hidx]
    exact hopen
  have hsyn : s.nextSeqno ≠ 0 := by
    rw [← hsame]
    exact hsyn'
  have hcarried : n = n' := by
    have h1 := h.next_eq hsyn
    have h2 := h'.next_eq hsyn'
    rw [hfin] at h1
    rw [hfin'] at h2
    simp only [Bool.false_eq_true, if_false] at h1 h2
    omega
  have heof : s.stream.eof = true := by
    rw [h.eof_iff, ← hended]
    exact ⟨hinput, hcarried.trans hall⟩
  have hbacklog : 1 ≤ s.backlog := by
    rw [hended] at hinput
    rw [backlog, if_neg hmore, if_neg hsyn, if_pos hinput]
    omega
  refine hstuck ⟨heof, hsyn, ?_, hmore, by omega⟩
  rw [h.inFlight]
  omega

theorem Sent.flushed_fillWindow (h : Sent s whole firsts n fin) (hedge : EdgeInRange s)
    (hstuck : ¬ s.Stuck) : s.fillWindow.Flushed := by
  obtain ⟨pushed, firsts', n', fin', hstep, hcur, -, hnext⟩ := h.fillWindow_stepped hedge
  exact h.flushed_of_filled hstep.sent (fun hf => (hstep.after_fin hf).1)
    hstep.inputEnd hcur hnext hstuck

/-- After a call of `fill_window` the SYN is out. -/
theorem Sent.fillWindow_next_ne_zero (h : Sent s whole firsts n fin) (hedge : EdgeInRange s) :
    s.fillWindow.nextSeqno ≠ 0 := by
  obtain ⟨-, -, -, -, -, -, -, hnext⟩ := h.fillWindow_stepped hedge
  have hpos := hedge.pos
  by_cases hzero : s.nextSeqno = 0
  · have hfin : fin = false := by
      by_contra hne
      exact h.next_ne_zero (by simpa using hne) hzero
    have hmore : s.nextSeqno ≠ s.finAckIndex := by
      rw [h.finIndex, hfin, hzero]
      simp
    have hone : s.backlog = 1 := by rw [backlog, if_neg hmore, if_pos hzero]
    omega
  · omega

theorem Sent.flushed_tick (h : Sent s whole firsts n fin) (hedge : EdgeInRange s) (ms : Nat)
    (hflush : s.Flushed) : (s.tick ms).Flushed := by
  obtain ⟨pushed, hstep, hcur, -, hnext⟩ := h.tick_stepped hedge ms
  exact h.flushed_of_same hstep.sent hflush hstep.inputEnd hnext hcur

/-- The edge in force for an acknowledgment of everything sent lies beyond the next
sequence number, away from the end of the sequence space. -/
theorem EdgeInRange.lt_probeEdge (hedge : EdgeInRange s) (hroom : s.nextSeqno + 65537 < 2 ^ 64)
    (windowSize : UInt16) :
    s.nextSeqno <
      probeEdge (max s.wdRightEdge (Word.add 64 s.nextSeqno windowSize.toNat)) windowSize := by
  have hwin := windowSize.toNat_lt
  have hle := hedge.le
  have hadd : Word.add 64 s.nextSeqno windowSize.toNat = s.nextSeqno + windowSize.toNat :=
    Word.add_of_lt (by omega)
  rw [hadd, probeEdge]
  by_cases hzero : windowSize = 0
  · subst hzero
    rw [if_pos rfl, Word.add_of_lt]
    · omega
    · show max s.wdRightEdge (s.nextSeqno + 0) + 1 < 2 ^ 64
      omega
  · have hpos : windowSize.toNat ≠ 0 := by
      intro h0
      exact hzero (UInt16.toNat_inj.mp h0)
    rw [if_neg hzero]
    omega

/-- An acknowledgment that leaves nothing in flight makes room for the FIN. -/
theorem Sent.flushed_takeAck (h : Sent s whole firsts n fin) (hedge : EdgeInRange s)
    (hroom : s.nextSeqno + 65537 < 2 ^ 64) (hflush : s.Flushed) (seg : TCPSegment) :
    (TCPConnection.takeAck s seg).Flushed ∧
      (TCPConnection.takeAck s seg).nextSeqno ≤ s.nextSeqno + 65536 := by
  unfold TCPConnection.takeAck
  split_ifs
  · cases hrej : s.rejects (unwrap seg.header.ackno s.isn s.nextSeqno) with
    | true =>
        rw [ackReceived_of_rejects seg.header.win hrej]
        exact ⟨hflush, Nat.le_add_right _ _⟩
    | false =>
        generalize hack : unwrap seg.header.ackno s.isn s.nextSeqno = ack at hrej
        obtain ⟨hcurle, hackle⟩ := accepts_iff.mp hrej
        obtain ⟨hwlt, hwle⟩ := hedge.widened hackle seg.header.win
        have hbounds := probeEdge_bounds seg.header.win hwlt hwle
        obtain ⟨pushed, firsts', n', fin', hstep, hcur, hbelow, -, hnext⟩ :=
          h.ackReceived_stepped hedge hack.symm seg.header.win hrej
        refine ⟨?_, by omega⟩
        refine (h.readyToFill hcurle seg.header.win).flushed_of_filled hstep.sent
          (fun hf => (hstep.after_fin hf).1) ?_ hcur ?_ ?_
        · rw [readyToFill_stream]
          exact hstep.inputEnd
        · rw [readyToFill_nextSeqno, readyToFill_backlog, readyToFill_wdRightEdge]
          exact hnext
        -- a window that stays shut when everything is acknowledged: the probe opens it
        · intro hstuck
          obtain ⟨-, -, hnone, -, hshut⟩ := hstuck
          rw [(h.readyToFill hcurle seg.header.win).inFlight, readyToFill_nextSeqno,
            readyToFill_curAckIndex] at hnone
          have hfull : ack = s.nextSeqno := by omega
          rw [readyToFill_nextSeqno, readyToFill_wdRightEdge, hfull] at hshut
          have hbeyond := hedge.lt_probeEdge hroom seg.header.win
          omega
  · exact ⟨hflush, Nat.le_add_right _ _⟩

theorem Sent.flushed_sendEmptyAck (h : Sent s whole firsts n fin) (hedge : EdgeInRange s)
    (hflush : s.Flushed) : s.sendEmptyAck.Flushed := by
  obtain ⟨pushed, firsts', n', fin', hstep, hcur, -, hnext⟩ := h.sendEmptyAck_stepped hedge
  have hcurle := h.cur_le
  by_cases hzero : s.nextSeqno = 0
  · -- the SYN is in flight now
    rw [hstep.sent.flushed_iff]
    intro _ _ _ hacked
    omega
  · rw [sendEmptyAck, if_neg hzero]
    exact hflush

theorem Sent.flushed_respond (h : Sent s whole firsts n fin) (hedge : EdgeInRange s)
    (hroom : s.nextSeqno + 65537 < 2 ^ 64) (hflush : s.Flushed) (seg : TCPSegment) :
    (TCPConnection.respond s seg).Flushed ∧
      (TCPConnection.respond s seg).nextSeqno ≤ s.nextSeqno + 65536 := by
  obtain ⟨hack, hle⟩ := h.flushed_takeAck hedge hroom hflush seg
  obtain ⟨pushed, firsts', n', fin', hemit⟩ := h.takeAck_emitted hedge seg
  unfold TCPConnection.respond
  split_ifs
  · refine ⟨hemit.sent.flushed_sendEmptyAck hemit.edge hack, ?_⟩
    obtain ⟨-, -, -, -, -, -, -, hnext⟩ := hemit.sent.sendEmptyAck_stepped hemit.edge
    omega
  · exact ⟨hack, hle⟩

end Flushed
end TCPSender

namespace Endpoint

/-- No RST arrives, and nothing is written after the end. -/
def Ordinary (e : Endpoint) (op : ConnectionOp) : Prop :=
  e.WritesBeforeEnd op ∧
    match op with
    | .receive seg => seg.header.rst = false
    | _ => True

instance (e : Endpoint) : ∀ op, Decidable (e.Ordinary op)
  | .receive _ => inferInstanceAs (Decidable (_ ∧ _))
  | .write _ => inferInstanceAs (Decidable (_ ∧ True))
  | .connect => inferInstanceAs (Decidable (_ ∧ True))
  | .endInputStream => inferInstanceAs (Decidable (_ ∧ True))
  | .tick _ => inferInstanceAs (Decidable (_ ∧ True))
  | .read _ => inferInstanceAs (Decidable (_ ∧ True))

/-- `end_input_stream` is not called while everything has been sent and acknowledged
and the window is closed, and the sequence space is not used up. -/
def EndsInWindow (e : Endpoint) (op : ConnectionOp) : Prop :=
  e.connection.sender.nextSeqno + 65537 < 2 ^ 64 ∧
    (op = .endInputStream →
      ¬ (e.connection.sender.stream.bufferEmpty = true ∧ e.connection.sender.nextSeqno ≠ 0 ∧
        e.connection.sender.bytesInFlight = 0 ∧
        e.connection.sender.nextSeqno ≠ e.connection.sender.finAckIndex ∧
        e.connection.sender.wdRightEdge ≤ e.connection.sender.nextSeqno))

instance (e : Endpoint) (op : ConnectionOp) : Decidable (e.EndsInWindow op) :=
  inferInstanceAs (Decidable (_ ∧ _))

/-- Our stream was really closed: the FIN has been emitted, an acknowledgment
covering it has been accepted, and the peer's stream has ended. -/
def ReallyClosed (e : Endpoint) : Prop :=
  (∃ seg ∈ e.connection.segmentsOut, seg.header.fin = true) ∧
    (∃ ack ∈ e.acks, e.accepted.length + 2 ≤ ack) ∧
    e.connection.receiver.streamOut.inputEnded = true

/-- A connection that is no longer active, with neither stream in error, was
really closed. -/
def ClosesCleanly (e : Endpoint) : Prop :=
  e.connection.active = false → e.connection.receiver.streamOut.error = false →
    e.connection.sender.stream.error = false → e.ReallyClosed

instance (e : Endpoint) : Decidable e.ReallyClosed :=
  inferInstanceAs (Decidable (_ ∧ _ ∧ _))

instance (e : Endpoint) : Decidable e.ClosesCleanly :=
  inferInstanceAs (Decidable (_ → _ → _ → _))

/-- The invariant of such runs. -/
structure Closing (e : Endpoint) : Prop where
  sends : ∃ firsts n fin, e.Sends firsts n fin
  opened : e.ended = true → e.connection.sender.nextSeqno ≠ 0
  flushed : e.connection.sender.Flushed
  short : e.connection.sender.nextSeqno + 1 < 2 ^ 64
  acked : e.connection.sender.curAckIndex = 0 ∨
    ∃ ack ∈ e.acks, e.connection.sender.curAckIndex ≤ ack
  closed : e.connection.close = true →
    e.connection.sender.stream.error = true ∨ (e.ended = true ∧ e.ReallyClosed)

theorem closing_start (cfg : TCPConfig) : (start cfg).Closing where
  sends := ⟨[], 0, false, sends_start cfg⟩
  opened := by simp [start]
  flushed := by
    intro heof
    exact absurd heof (by simp [start, TCPConnection.new, TCPSender.new, ByteStream.eof])
  short := by simp [start, TCPConnection.new, TCPSender.new]
  acked := Or.inl rfl
  closed := by simp [start, TCPConnection.new]

section Closing

variable {e : Endpoint} {op : ConnectionOp} {firsts : List TCPSegment} {n : Nat} {fin : Bool}

/-- No call of `fill_window` finds the FIN waiting without room. -/
theorem Sends.not_stuck (h : e.Sends firsts n fin) (hflush : e.connection.sender.Flushed)
    (hop : e.Ordinary op) (hend : e.EndsInWindow op) : ¬ (e.prepared op).Stuck := by
  have hkeep : ¬ e.connection.sender.Stuck := by
    intro hstuck
    exact hstuck.2.2.2.1 (hflush hstuck.1 hstuck.2.1 hstuck.2.2.1)
  cases op with
  | write data =>
      intro hstuck
      have hinput : (e.prepared (.write data)).stream.inputEnd = true := by
        have heof := hstuck.1
        rw [ByteStream.eof, Bool.and_eq_true] at heof
        exact heof.1
      -- before the end of the input the stream cannot be at its end
      have hopen : e.ended = false := hop.1
      rw [← h.ended_eq] at hopen
      exact absurd (hopen.symm.trans hinput) (by simp)
  | endInputStream =>
      intro hstuck
      refine hend.2 rfl ⟨?_, hstuck.2⟩
      have heof := hstuck.1
      rw [ByteStream.eof, Bool.and_eq_true] at heof
      exact heof.2
  | connect => exact hkeep
  | tick ms => exact hkeep
  | read len => exact hkeep
  | receive seg => exact hkeep

/-- The calls an operation makes keep the stream flushed. -/
theorem Sends.driven_flushed (h : e.Sends firsts n fin) (hflush : e.connection.sender.Flushed)
    (hop : e.Ordinary op) (hend : e.EndsInWindow op) :
    (e.driven op).Flushed ∧ (e.driven op).nextSeqno ≤ e.connection.sender.nextSeqno + 65536 := by
  have hprep := h.prepared hop.1
  have hroom := hend.1
  have hfill : (e.prepared op).fillWindow.Flushed ∧
      (e.prepared op).fillWindow.nextSeqno ≤ e.connection.sender.nextSeqno + 65536 := by
    refine ⟨hprep.sent.flushed_fillWindow hprep.edge (h.not_stuck hflush hop hend), ?_⟩
    obtain ⟨-, -, -, -, -, -, -, hnext⟩ := hprep.sent.fillWindow_stepped hprep.edge
    have hle := hprep.edge.le
    rw [prepared_nextSeqno] at hnext hle
    omega
  cases op with
  | connect => exact hfill
  | write data => exact hfill
  | endInputStream => exact hfill
  | tick ms =>
      refine ⟨h.sent.flushed_tick h.edge ms hflush, ?_⟩
      obtain ⟨-, -, -, -, hnext⟩ := h.sent.tick_stepped h.edge ms
      exact hnext.trans_le (Nat.le_add_right _ _)
  | read len => exact ⟨hflush, Nat.le_add_right _ _⟩
  | receive seg => exact h.sent.flushed_respond h.edge hroom hflush seg

/-- Once the stream has ended, an operation leaves what was really closed closed. -/
theorem ReallyClosed.step (h : e.ReallyClosed) (hended : e.ended = true)
    (hdrained : e.connection.sender.segmentsOut = []) (hop : e.Ordinary op) :
    (e.step op).ReallyClosed := by
  obtain ⟨⟨seg, hseg, hfin⟩, ⟨ack, hack, hle⟩, hin⟩ := h
  have hinbound : (e.inbound op).streamOut.inputEnded = true := by
    cases op with
    | receive seg' => exact TCPReceiver.segmentReceived_keeps_end hin seg'
    | read len => exact hin
    | connect => exact hin
    | write data => exact hin
    | endInputStream => exact hin
    | tick ms => exact hin
  have haccepted : (e.step op).accepted = e.accepted := by
    cases op with
    | write data =>
        have hopen : e.ended = false := hop.1
        rw [hended] at hopen
        exact absurd hopen (by simp)
    | connect => rfl
    | endInputStream => rfl
    | tick ms => rfl
    | read len => rfl
    | receive seg' => rfl
  have hacks := mem_step_acks hack op
  cases hdown : e.shutsDown op with
  | false =>
      have hruns := runs_of_not_shutsDown hdrained hdown
      refine ⟨⟨seg, ?_, hfin⟩, ⟨ack, hacks, by rw [haccepted]; exact hle⟩, ?_⟩
      · rw [hruns.segmentsOut]
        exact List.mem_append_left _ hseg
      · rw [hruns.receiver]
        exact hinbound
  | true =>
      have hshuts := shuts_of_shutsDown hdown
      refine ⟨⟨seg, ?_, hfin⟩, ⟨ack, hacks, by rw [haccepted]; exact hle⟩, ?_⟩
      · rw [hshuts.segmentsOut]
        exact List.mem_append_left _ hseg
      · rw [hshuts.receiver]
        exact hin

/-- Where the acknowledged number comes from, along the run. -/
theorem Sends.driven_acked (h : e.Sends firsts n fin) (hop : e.Ordinary op)
    (hacked : e.connection.sender.curAckIndex = 0 ∨
      ∃ ack ∈ e.acks, e.connection.sender.curAckIndex ≤ ack) :
    (e.driven op).curAckIndex = 0 ∨
      ∃ ack ∈ (e.step op).acks, (e.driven op).curAckIndex ≤ ack := by
  rcases h.driven_curAckIndex hop.1 with hsame | ⟨seg, rfl, hflag, hrej, hbelow⟩
  · rw [hsame]
    rcases hacked with hzero | ⟨ack, hmem, hle⟩
    · exact Or.inl hzero
    · exact Or.inr ⟨ack, mem_step_acks hmem op, hle⟩
  · have hrst : seg.header.rst = false := hop.2
    refine Or.inr ⟨_, List.mem_append_right _ ?_, hbelow⟩
    simp [newAcks, hrst, hflag, hrej]

/-- Where `check_close` finds both streams over, the FIN has been sent and
acknowledged. -/
theorem reallyClosed_of_bothEof (hsends : ∃ firsts n fin, e.Sends firsts n fin)
    (hopened : e.ended = true → e.connection.sender.nextSeqno ≠ 0)
    (hflushed : e.connection.sender.Flushed)
    (hshort : e.connection.sender.nextSeqno + 1 < 2 ^ 64)
    (hacked : e.connection.sender.curAckIndex = 0 ∨
      ∃ ack ∈ e.acks, e.connection.sender.curAckIndex ≤ ack)
    (hboth : e.connection.streamBothEof = true) : e.ended = true ∧ e.ReallyClosed := by
  obtain ⟨firsts, n, fin, h⟩ := hsends
  obtain ⟨hin, heof, hnone⟩ := (TCPConnection.streamBothEof_iff _).mp hboth
  obtain ⟨hinput, hall⟩ := h.sent.eof_iff.mp heof
  have hended : e.ended = true := h.ended_eq.symm.trans hinput
  have hsyn := hopened hended
  have hfin : fin = true := by
    refine h.sent.fin_of_done (hflushed heof hsyn hnone) ?_
    omega
  have hnext := h.sent.next_eq hsyn
  rw [if_pos hfin] at hnext
  have hcur := h.sent.cur_le
  rw [h.sent.inFlight] at hnone
  refine ⟨hended, h.fin_logged hfin, ?_, hin⟩
  rcases hacked with hzero | ⟨ack, hmem, hle⟩
  · omega
  · exact ⟨ack, hmem, by omega⟩

/-- One step of a run. -/
theorem Closing.step (h : e.Closing) (hop : e.Ordinary op) (hend : e.EndsInWindow op) :
    (e.step op).Closing := by
  obtain ⟨firsts, n, fin, hsends⟩ := h.sends
  have hsends' := hsends.step hop.1
  cases hdown : e.shutsDown op with
  | true =>
      -- an unclean shutdown marks the stream and changes nothing else
      have hshuts := shuts_of_shutsDown hdown
      have hkind : ∃ ms, op = .tick ms := by
        rcases shutsDown_cases hdown with ⟨ms, rfl, -⟩ | ⟨seg, rfl, hrst⟩
        · exact ⟨ms, rfl⟩
        · have hno : seg.header.rst = false := hop.2
          exact absurd (hrst.symm.trans hno) (by simp)
      obtain ⟨ms, rfl⟩ := hkind
      exact {
        sends := hsends'
        opened := by
          rw [hshuts.sender]
          exact h.opened
        flushed := by
          rw [hshuts.sender]
          exact h.flushed
        short := by
          rw [hshuts.sender]
          exact h.short
        acked := by
          rw [hshuts.sender]
          exact h.acked
        closed := by
          intro _
          rw [hshuts.sender]
          exact Or.inl rfl }
  | false =>
      have hruns := runs_of_not_shutsDown hsends.drained hdown
      obtain ⟨hflushed, hbound⟩ := hsends.driven_flushed h.flushed hop hend
      obtain ⟨pushed, firsts', n', fin', hemit⟩ := hsends.driven hop.1
      have hroom := hend.1
      -- ending the input sends at least the SYN
      have hopened : (e.step op).ended = true → (e.driven op).nextSeqno ≠ 0 := by
        intro hended
        have hmono := hemit.next_le
        rw [prepared_nextSeqno] at hmono
        cases (step_ended op).mp hended with
        | inl hbefore =>
            have hne := h.opened hbefore
            omega
        | inr hnow =>
            subst hnow
            exact (hsends.prepared hop.1).sent.fillWindow_next_ne_zero (hsends.prepared hop.1).edge
      have hacked := hsends.driven_acked hop h.acked
      have hflushed' : (e.step op).connection.sender.Flushed := by
        rw [hruns.sender]
        exact hflushed
      have hacked' : (e.step op).connection.sender.curAckIndex = 0 ∨
          ∃ ack ∈ (e.step op).acks, (e.step op).connection.sender.curAckIndex ≤ ack := by
        rw [hruns.sender]
        exact hacked
      have hopened' : (e.step op).ended = true →
          (e.step op).connection.sender.nextSeqno ≠ 0 := by
        rw [hruns.sender]
        exact hopened
      have hshort' : (e.step op).connection.sender.nextSeqno + 1 < 2 ^ 64 := by
        rw [hruns.sender]
        show (e.driven op).nextSeqno + 1 < 2 ^ 64
        omega
      refine ⟨hsends', hopened', hflushed', hshort', hacked', ?_⟩
      intro hclose
      rcases hruns.close hclose with hold | hnow
      · rcases h.closed hold with herr | ⟨hended, hreally⟩
        · left
          rw [hruns.sender]
          show (e.driven op).stream.error = true
          rw [hemit.error, prepared_error]
          exact herr
        · exact Or.inr ⟨(step_ended op).mpr (Or.inl hended),
            hreally.step hended hsends.drained hop⟩
      · right
        exact reallyClosed_of_bothEof hsends' hopened' hflushed' hshort' hacked' hnow

end Closing
end Endpoint

/-- **A clean close means that our stream was really closed**, in every run in which
no call of `end_input_stream` finds everything sent and acknowledged and the
window closed. -/
theorem clean_close_of_ends_in_window {cfg : TCPConfig} {e : Endpoint}
    (hr : Run.Reach Endpoint.step (fun e op => e.Ordinary op ∧ e.EndsInWindow op)
      (Endpoint.start cfg) e) : e.ClosesCleanly := by
  have hinv : e.Closing := Run.Reach.invariant (P := Endpoint.Closing) hr
    (Endpoint.closing_start cfg) fun _ _ hop h => h.step hop.1 hop.2
  intro hactive _ herror
  have hclose : e.connection.close = true := by simpa [TCPConnection.active] using hactive
  rcases hinv.closed hclose with hbad | ⟨-, hreally⟩
  · rw [herror] at hbad
    exact absurd hbad (by simp)
  · exact hreally

/-- A passive close: the peer opens, advertises `win` and ends its stream; then our
stream is ended. -/
def passiveClose (win : UInt16) : List ConnectionOp :=
  [.connect,
    .receive { header := { syn := true, ack := true, seqno := ⟨100⟩, ackno := ⟨1⟩, win := win } },
    .receive { header := { fin := true, ack := true, seqno := ⟨101⟩, ackno := ⟨1⟩, win := win } },
    .endInputStream]

/-- Under an open window, the passive close is over when the FIN is acknowledged. -/
theorem clean_close_of_passive_close :
    (Run.exec Endpoint.step (Endpoint.start { isn := ⟨0⟩ }) (passiveClose 10 ++
      [.receive { header := { ack := true, seqno := ⟨102⟩, ackno := ⟨2⟩, win := 10 } }]
      )).connection.active = false ∧
    (Run.exec Endpoint.step (Endpoint.start { isn := ⟨0⟩ }) (passiveClose 10 ++
      [.receive { header := { ack := true, seqno := ⟨102⟩, ackno := ⟨2⟩, win := 10 } }]
      )).ClosesCleanly :=
  ⟨by decide +kernel,
    clean_close_of_ends_in_window (Run.Reach.exec .start (by decide +kernel))⟩

/-- Under a closed window, it is over at once, without a FIN. -/
theorem closed_window_close_without_fin :
    Run.Reach Endpoint.step Endpoint.Ordinary (Endpoint.start { isn := ⟨0⟩ })
      (Run.exec Endpoint.step (Endpoint.start { isn := ⟨0⟩ }) (passiveClose 0)) ∧
    ¬ (Run.exec Endpoint.step (Endpoint.start { isn := ⟨0⟩ }) (passiveClose 0)).ClosesCleanly :=
  ⟨Run.Reach.exec .start (by decide +kernel), by decide +kernel⟩

end Sponge

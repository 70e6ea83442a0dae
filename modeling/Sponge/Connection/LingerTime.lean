import Sponge.Connection.Advertised
import Sponge.Connection.CleanClose
import Sponge.Connection.GiveUp

/-!
# How long a finished connection lingers

Right after a segment, a connection whose two streams are over has ten timeouts to wait:
its sender has nothing to send again, so that ticks only move the clock, and the difference
of the two 32-bit times is the sum of the ticks whether or not the clock has wrapped around.
A further segment restarts the wait, with one exception.  `stream_both_eof` does not ask for
the FIN, so that a connection may be found lingering with its FIN still unsent; an
acknowledgment that lets the FIN out ends the wait instead of restarting it.
-/

namespace Sponge

namespace TCPSender

/-- An acknowledgment of everything sent finds the FIN unsent, and leaves room for it. -/
def LetsFinOut (s : TCPSender) (seg : TCPSegment) : Prop :=
  seg.header.ack = true ∧ unwrap seg.header.ackno s.isn s.nextSeqno = s.nextSeqno ∧
    s.nextSeqno ≠ s.finAckIndex ∧
    s.nextSeqno < probeEdge
      (max s.wdRightEdge (Word.add 64 s.nextSeqno seg.header.win.toNat)) seg.header.win

instance (s : TCPSender) (seg : TCPSegment) : Decidable (s.LetsFinOut seg) :=
  inferInstanceAs (Decidable (_ ∧ _))

/-- The stream has been read to its end, and nothing is in flight. -/
structure AtRest (s : TCPSender) : Prop where
  edge : s.EdgeInRange
  sent : ∃ whole firsts n fin, s.Sent whole firsts n fin
  opened : s.nextSeqno ≠ 0
  eof : s.stream.eof = true
  acked : s.curAckIndex = s.nextSeqno

section AtRest

variable {s : TCPSender} {whole : List Byte} {firsts : List TCPSegment} {n : Nat} {fin : Bool}

/-- With nothing in flight nothing is left to be sent again. -/
theorem Sent.segBuffer_eq_nil (h : Sent s whole firsts n fin)
    (hacked : s.curAckIndex = s.nextSeqno) : s.segBuffer = [] := by
  obtain ⟨done, pending, hsplit, hcur, hbuf⟩ := h.outstanding
  have hnext := h.next
  rw [hsplit, span_append] at hnext
  have hnone : pending = [] := by
    refine eq_nil_of_span_eq_zero (fun seg hseg => h.shape.length_pos seg ?_) (by omega)
    rw [hsplit]
    exact List.mem_append_right _ hseg
  rw [hbuf, hnone]
  rfl

/-- Only the FIN can still be waiting. -/
theorem Sent.backlog_of_eof (h : Sent s whole firsts n fin) (hopened : s.nextSeqno ≠ 0)
    (heof : s.stream.eof = true) :
    s.backlog = if s.nextSeqno = s.finAckIndex then 0 else 1 := by
  obtain ⟨hended, hall⟩ := h.eof_iff.mp heof
  unfold backlog
  split_ifs with hdone
  · rfl
  · rw [h.buffer, hall]
    simp

/-- The acknowledgment on a segment moves the next number only to send the FIN. -/
theorem AtRest.takeAck (h : s.AtRest) (seg : TCPSegment) :
    (TCPConnection.takeAck s seg).curAckIndex = s.nextSeqno ∧
      ((TCPConnection.takeAck s seg).nextSeqno = s.nextSeqno ↔ ¬ s.LetsFinOut seg) := by
  obtain ⟨whole, firsts, n, fin, hsent⟩ := h.sent
  unfold TCPConnection.takeAck
  split_ifs with hflag
  · cases hrej : s.rejects (unwrap seg.header.ackno s.isn s.nextSeqno) with
    | true =>
        rw [ackReceived_of_rejects seg.header.win hrej]
        refine ⟨h.acked, fun _ hlets => ?_, fun _ => rfl⟩
        -- the number of everything sent is accepted
        have haccepted : s.rejects (unwrap seg.header.ackno s.isn s.nextSeqno) = false :=
          accepts_iff.mpr ⟨by rw [hlets.2.1, h.acked], by rw [hlets.2.1]⟩
        rw [hrej] at haccepted
        contradiction
    | false =>
        obtain ⟨hcurle, hackle⟩ := accepts_iff.mp hrej
        have hack : unwrap seg.header.ackno s.isn s.nextSeqno = s.nextSeqno := by
          have hacked := h.acked
          omega
        obtain ⟨pushed, firsts', n', fin', hstep, hcur, hbelow, -, hnext⟩ :=
          hsent.ackReceived_stepped h.edge rfl seg.header.win hrej
        have hmono := hstep.cur_le
        rw [hcur, h.acked] at hmono
        rw [hack] at hcur hbelow hnext hmono
        refine ⟨by omega, ?_⟩
        rw [hnext, hsent.backlog_of_eof h.opened h.eof]
        unfold LetsFinOut
        generalize probeEdge
          (max s.wdRightEdge (Word.add 64 s.nextSeqno seg.header.win.toNat)) seg.header.win = edge
        split_ifs with hdone
        · simp [hdone]
        · rw [hack]
          simp only [hflag, true_and, ne_eq, hdone, not_false_eq_true]
          omega
  · refine ⟨h.acked, fun _ hlets => ?_, fun _ => rfl⟩
    exact hflag hlets.1

/-- A segment leaves a sender at rest unless it lets the FIN out. -/
theorem AtRest.respond (h : s.AtRest) (seg : TCPSegment) :
    (¬ s.LetsFinOut seg → (TCPConnection.respond s seg).AtRest) ∧
      (s.LetsFinOut seg → (TCPConnection.respond s seg).bytesInFlight ≠ 0) := by
  obtain ⟨whole, firsts, n, fin, hsent⟩ := h.sent
  obtain ⟨pushed, firsts', n', fin', hemit⟩ := hsent.respond_emitted h.edge seg
  obtain ⟨hcur, hnext⟩ := h.takeAck seg
  have hopened : (TCPConnection.takeAck s seg).nextSeqno ≠ 0 := by
    obtain ⟨pushed, firsts', n', fin', hack⟩ := hsent.takeAck_emitted h.edge seg
    have hmono := hack.next_le
    have hpos := h.opened
    omega
  -- the empty segment that answers uses no number
  have hsame : (TCPConnection.respond s seg).nextSeqno = (TCPConnection.takeAck s seg).nextSeqno ∧
      (TCPConnection.respond s seg).curAckIndex = (TCPConnection.takeAck s seg).curAckIndex := by
    unfold TCPConnection.respond
    generalize TCPConnection.takeAck s seg = t at hopened ⊢
    split_ifs
    · rw [sendEmptyAck, if_neg hopened]
      exact ⟨rfl, rfl⟩
    · exact ⟨rfl, rfl⟩
  have heof : (TCPConnection.respond s seg).stream.eof = true := by
    obtain ⟨hended, hall⟩ := hsent.eof_iff.mp h.eof
    have hle := hemit.carried_le
    have hbound := hemit.sent.shape.le_length
    rw [hemit.sent.eof_iff]
    exact ⟨hemit.inputEnd.trans hended, by omega⟩
  constructor
  · intro hkeeps
    exact {
      edge := hemit.edge
      sent := ⟨whole, firsts', n', fin', hemit.sent⟩
      opened := by rw [hsame.1]; exact hopened
      eof := heof
      acked := by rw [hsame.1, hsame.2, hcur, hnext.mpr hkeeps] }
  · intro hlets hnone
    rw [hemit.sent.inFlight, hsame.1, hsame.2, hcur] at hnone
    have hmono := hemit.next_le
    rw [hsame.1] at hmono
    exact hnext.mp (by omega) hlets

end AtRest
end TCPSender

namespace TCPConnection

variable {c : TCPConnection} {ms : Nat} {ts : List Nat} {seg : TCPSegment}

/-- Both streams are over and the connection is open only because it lingers. -/
structure Lingers (c : TCPConnection) : Prop where
  active : c.active = true
  linger : c.lingerAfterStreamsFinish = true
  finished : c.streamBothEof = true

def runTicks (c : TCPConnection) (ts : List Nat) : TCPConnection :=
  ts.foldl tick c

/-- Ticks emit nothing, leave the connection active while they add up to less than ten
timeouts, and close it as soon as they do not. -/
def LingersExactly (c : TCPConnection) : Prop :=
  ∀ ts : List Nat, (∀ t ∈ ts, t < 2 ^ 31) →
    (c.runTicks ts).segmentsOut = c.segmentsOut ∧
      ((c.runTicks ts).active = true ↔ ts.sum < 10 * c.cfg.rtTimeout.toNat)

/-- With an empty queue `clean` does no more than `check_close`. -/
theorem clean_of_drained (c : TCPConnection) (h : c.sender.segmentsOut = []) :
    c.clean = { c with close := c.close || (c.streamBothEof && c.lingerOver) } := by
  have hflush : c.flush = c := by
    unfold flush
    rw [h, List.map_nil, List.append_nil, ← h]
  unfold clean checkClose
  rw [hflush]
  cases c.streamBothEof && c.lingerOver with
  | true => simp
  | false => simp

/-! ## Ticks -/

/-- Without a retransmission on its count, a connection does not give up. -/
theorem tick_of_count_zero (hcount : c.sender.retransNum = 0) (ms : Nat) :
    c.tick ms = clean { c with
      nowTime := Word.add 32 c.nowTime ms
      sender := c.sender.tick ms } := by
  have hfew : ¬ c.sender.consecutiveRetransmissions ≥ TCPConfig.maxRetxAttempts := by
    rw [TCPSender.consecutiveRetransmissions, hcount]
    decide
  unfold TCPConnection.tick
  exact if_neg hfew

/-- A finished connection whose sender has nothing to send again. -/
structure Still (c : TCPConnection) : Prop where
  drained : c.sender.segmentsOut = []
  buffer : c.sender.segBuffer = []
  count : c.sender.retransNum = 0
  linger : c.lingerAfterStreamsFinish = true
  finished : c.streamBothEof = true

/-- A tick moves the clock, and closes the connection if its time has come. -/
theorem Still.tick_eq (h : c.Still) (ms : Nat) :
    c.tick ms = { c with
      nowTime := Word.add 32 c.nowTime ms
      close := c.close || decide (10 * c.cfg.rtTimeout.toNat ≤
        Word.sub 32 (Word.add 32 c.nowTime ms) c.lastReciveTime) } := by
  have hclean := clean_of_drained { c with nowTime := Word.add 32 c.nowTime ms } h.drained
  have hfinished : ({ c with nowTime := Word.add 32 c.nowTime ms } :
      TCPConnection).streamBothEof = true := h.finished
  rw [tick_of_count_zero h.count, TCPSender.tick_of_nil h.buffer, hclean, hfinished, lingerOver]
  simp [h.linger]

theorem Still.tick (h : c.Still) (ms : Nat) : (c.tick ms).Still := by
  rw [h.tick_eq]
  exact ⟨h.drained, h.buffer, h.count, h.linger, h.finished⟩

theorem Still.runTicks_eq (h : c.Still) (ts : List Nat) :
    ∃ now close, c.runTicks ts = { c with nowTime := now, close := close } := by
  induction ts generalizing c with
  | nil => exact ⟨c.nowTime, c.close, rfl⟩
  | cons t rest ih =>
      obtain ⟨now, close, heq⟩ := ih (h.tick t)
      refine ⟨now, close, ?_⟩
      show (c.tick t).runTicks rest = _
      rw [heq, h.tick_eq]

theorem Still.runTicks_close (h : c.Still) (hclose : c.close = true) (ts : List Nat) :
    (c.runTicks ts).close = true := by
  induction ts generalizing c with
  | nil => exact hclose
  | cons t rest ih =>
      refine ih (h.tick t) ?_
      rw [h.tick_eq]
      simp [hclose]

/-- The time since the last segment is the sum of the ticks, as long as it matters. -/
theorem Still.active_iff (h : c.Still) (hopen : c.close = false)
    (htime : c.timeSinceLastSegmentReceived < 10 * c.cfg.rtTimeout.toNat)
    (hts : ∀ t ∈ ts, t < 2 ^ 31) :
    (c.runTicks ts).active = true ↔
      c.timeSinceLastSegmentReceived + ts.sum < 10 * c.cfg.rtTimeout.toNat := by
  induction ts generalizing c with
  | nil => simpa [runTicks, TCPConnection.active, hopen] using htime
  | cons t rest ih =>
      have hrt := c.cfg.rtTimeout.toNat_lt
      have ht := hts t List.mem_cons_self
      -- a tick this short cannot bring the difference around
      have hsum : Word.sub 32 (Word.add 32 c.nowTime t) c.lastReciveTime =
          c.timeSinceLastSegmentReceived + t := by
        rw [Word.sub_add]
        exact Nat.mod_eq_of_lt (by rw [timeSinceLastSegmentReceived] at htime; omega)
      have heq := h.tick_eq t
      rw [hsum] at heq
      show ((c.tick t).runTicks rest).active = true ↔ _
      rw [List.sum_cons, ← Nat.add_assoc]
      by_cases hover : 10 * c.cfg.rtTimeout.toNat ≤ c.timeSinceLastSegmentReceived + t
      · have hclose : (c.tick t).close = true := by
          rw [heq]
          simp [hover]
        rw [TCPConnection.active, (h.tick t).runTicks_close hclose]
        simp only [Bool.not_true, Bool.false_eq_true, false_iff]
        omega
      · have hlate : (c.tick t).timeSinceLastSegmentReceived =
            c.timeSinceLastSegmentReceived + t := by
          rw [heq]
          exact hsum
        have hcfg : (c.tick t).cfg = c.cfg := by rw [heq]
        have hopen' : (c.tick t).close = false := by
          rw [heq]
          simp [hover, hopen]
        have hrest := ih (h.tick t) hopen' (by rw [hlate, hcfg]; omega)
          fun t' ht' => hts t' (List.mem_cons_of_mem _ ht')
        rw [hlate, hcfg] at hrest
        exact hrest

/-- A still connection that has just received a segment lingers for ten timeouts. -/
theorem Still.lingersExactly (h : c.Still) (hopen : c.close = false)
    (hnow : c.timeSinceLastSegmentReceived = 0) (hpos : 0 < c.cfg.rtTimeout.toNat) :
    c.LingersExactly := by
  intro ts hts
  obtain ⟨now, close, heq⟩ := h.runTicks_eq ts
  refine ⟨by rw [heq], ?_⟩
  rw [h.active_iff hopen (by omega) hts, hnow, Nat.zero_add]

theorem Still.runTicks (h : c.Still) (ts : List Nat) : (c.runTicks ts).Still := by
  obtain ⟨now, close, heq⟩ := h.runTicks_eq ts
  rw [heq]
  exact ⟨h.drained, h.buffer, h.count, h.linger, h.finished⟩

/-- What is in flight keeps a tick from closing the connection. -/
theorem tick_close_of_inFlight (hcount : c.sender.retransNum = 0)
    (hflight : (c.sender.tick ms).bytesInFlight ≠ 0) : (c.tick ms).close = c.close := by
  rw [tick_of_count_zero hcount, clean_close, streamBothEof]
  simp [hflight]

/-! ## A further segment -/

/-- A connection just after a segment closes only if it need not linger at all. -/
theorem clean_close_of_now (hnow : c.timeSinceLastSegmentReceived = 0)
    (hlinger : c.lingerAfterStreamsFinish = true) (hfinished : c.streamBothEof = true) :
    c.clean.close = (c.close || decide (c.cfg.rtTimeout.toNat = 0)) := by
  rw [timeSinceLastSegmentReceived] at hnow
  rw [clean_close, hfinished, lingerOver, hnow, hlinger]
  simp

section Further

variable (h : c.Still) (hrest : c.sender.AtRest) (hopen : c.close = false)
  (hrst : seg.header.rst = false)
include h hrest

/-- The sender has counted no retransmission after the segment either. -/
theorem Still.respond_count (seg : TCPSegment) : (respond c.sender seg).retransNum = 0 := by
  obtain ⟨whole, firsts, n, fin, hsent⟩ := hrest.sent
  rcases (TCPSender.respond_counts hsent.stream hrest.edge.lt seg).1.count with ⟨hkept, -⟩ | hzero
  · exact hkept.trans h.count
  · exact hzero

include hopen hrst

/-- A segment that does not let the FIN out restarts the wait. -/
theorem Still.segmentReceived (hpos : 0 < c.cfg.rtTimeout.toNat)
    (hkeeps : ¬ c.sender.LetsFinOut seg) :
    (c.segmentReceived seg).Lingers ∧ (c.segmentReceived seg).LingersExactly := by
  obtain ⟨hended, heof, -⟩ := (streamBothEof_iff c).mp h.finished
  obtain ⟨r, hr⟩ := c.exists_received hrst
  have hcount := h.respond_count hrest seg
  have hstays := (hrest.respond seg).1 hkeeps
  rw [← hr.sender] at hcount hstays
  obtain ⟨whole, firsts, n, fin, hsent⟩ := hstays.sent
  have hlinger : r.lingerAfterStreamsFinish = true := by
    rw [hr.linger, heof, h.linger]
    simp
  have hfinished : r.streamBothEof = true := by
    rw [streamBothEof_iff, hr.receiver, hsent.inFlight, hstays.acked]
    exact ⟨TCPReceiver.segmentReceived_keeps_end hended seg, hstays.eof, Nat.sub_self _⟩
  have hopen' : r.clean.close = false := by
    rw [clean_close_of_now hr.now hlinger hfinished, hr.close, hopen, hr.cfg]
    simp only [Bool.false_or, decide_eq_false_iff_not]
    omega
  have hstill : r.clean.Still := by
    refine ⟨?_, ?_, ?_, ?_, ?_⟩
    · rw [clean_sender]
    · rw [clean_sender]
      exact hsent.segBuffer_eq_nil hstays.acked
    · rw [clean_sender]
      exact hcount
    · rw [clean_linger, hlinger]
    · rw [clean_streamBothEof, hfinished]
  rw [hr.flushed]
  refine ⟨⟨by rw [active, hopen']; rfl, hstill.linger, hstill.finished⟩, ?_⟩
  refine hstill.lingersExactly hopen' ?_ ?_
  · rw [clean_timeSinceLastSegmentReceived, hr.now]
  · rw [clean_cfg, hr.cfg]
    exact hpos

/-- A segment that lets the FIN out leaves the connection open after ten timeouts. -/
theorem Still.not_lingersExactly (hlets : c.sender.LetsFinOut seg) :
    ¬ (c.segmentReceived seg).LingersExactly := by
  obtain ⟨r, hr⟩ := c.exists_received hrst
  have hcount := h.respond_count hrest seg
  have hflight := (hrest.respond seg).2 hlets
  obtain ⟨whole, firsts, n, fin, hsent⟩ := hrest.sent
  obtain ⟨pushed, firsts', n', fin', hemit⟩ := hsent.respond_emitted hrest.edge seg
  rw [← hr.sender] at hcount hflight hemit
  have hopen' : r.clean.close = false := by
    rw [clean_close, hr.close, hopen, streamBothEof]
    simp [hflight]
  rw [hr.flushed]
  intro hexact
  have hshort : 10 * r.clean.cfg.rtTimeout.toNat < 2 ^ 31 := by
    have hrt := r.clean.cfg.rtTimeout.toNat_lt
    omega
  obtain ⟨-, hactive⟩ := hexact [10 * r.clean.cfg.rtTimeout.toNat] fun t ht => by
    rw [List.mem_singleton.mp ht]
    exact hshort
  -- the tick may send the FIN again, but it stays in flight
  have hflight' : (r.clean.sender.tick (10 * r.clean.cfg.rtTimeout.toNat)).bytesInFlight ≠ 0 := by
    have hclean : r.clean.sender.Sent whole firsts' n' fin' := by
      rw [clean_sender]
      exact hemit.sent.drained
    have hedge : r.clean.sender.EdgeInRange := by
      rw [clean_sender]
      exact hemit.edge.drained
    obtain ⟨pushed', hstep, hcur, -, hnext⟩ :=
      hclean.tick_stepped hedge (10 * r.clean.cfg.rtTimeout.toNat)
    rw [hstep.sent.inFlight, hcur, hnext, ← hclean.inFlight, clean_sender]
    exact hflight
  have hstays := tick_close_of_inFlight (by rw [clean_sender]; exact hcount) hflight'
  have hopen'' : (r.clean.runTicks [10 * r.clean.cfg.rtTimeout.toNat]).active = true := by
    show (!(r.clean.tick _).close) = true
    rw [hstays, hopen']
    rfl
  exact absurd (hactive.mp hopen'') (by simp)

end Further
end TCPConnection

namespace Endpoint

variable {e : Endpoint}

/-- What a linger needs to know of the run before it. -/
structure Timed (e : Endpoint) : Prop where
  sending : e.Sending
  opened : e.connection.sender.stream.inputEnd = true → e.connection.sender.nextSeqno ≠ 0
  count : e.connection.sender.retransNum ≠ 0 → e.connection.sender.segBuffer ≠ []

/-- The call that ends the stream sends the SYN if it is still unsent. -/
theorem Sending.opened_step (h : e.Sending)
    (hopened : e.connection.sender.stream.inputEnd = true → e.connection.sender.nextSeqno ≠ 0)
    (op : ConnectionOp) : (e.step op).connection.sender.stream.inputEnd = true →
      (e.step op).connection.sender.nextSeqno ≠ 0 := by
  cases hdown : e.shutsDown op with
  | true =>
      rw [(shuts_of_shutsDown hdown).sender]
      exact hopened
  | false =>
      obtain ⟨-, hedge, whole, firsts, n, fin, hsent⟩ := h.prepared op
      obtain ⟨pushed, firsts', n', fin', hemit⟩ := driven_emitted hsent hedge
      have hmono := hemit.next_le
      rw [prepared_nextSeqno] at hmono
      have hkept : (e.prepared op).stream.inputEnd = e.connection.sender.stream.inputEnd →
          (e.driven op).stream.inputEnd = true → (e.driven op).nextSeqno ≠ 0 := by
        intro hsame hended
        have hpos := hopened (hsame.symm.trans (hemit.inputEnd.symm.trans hended))
        omega
      rw [(runs_of_not_shutsDown h.1 hdown).sender]
      cases op with
      | endInputStream => exact fun _ => hsent.fillWindow_next_ne_zero hedge
      | write data => exact hkept rfl
      | connect => exact hkept rfl
      | tick ms => exact hkept rfl
      | read len => exact hkept rfl
      | receive seg => exact hkept rfl

theorem timed_of_reach {cfg : TCPConfig}
    (hr : Run.Reach Endpoint.step (fun _ _ => True) (Endpoint.start cfg) e) : e.Timed := by
  obtain ⟨hsending, hopened⟩ := Run.Reach.invariant (P := fun e => e.Sending ∧
      (e.connection.sender.stream.inputEnd = true → e.connection.sender.nextSeqno ≠ 0)) hr
    ⟨sending_start cfg, fun h => absurd h Bool.false_ne_true⟩
    fun _ op _ h => ⟨h.1.step op, h.1.opened_step h.2 op⟩
  obtain ⟨w, hobserved, rfl⟩ := Run.Reach.invariant
    (P := fun e => ∃ w : Watch, w.Observed ∧ w.endpoint = e) hr
    ⟨Watch.start cfg, Watch.observed_start cfg, rfl⟩
    fun _ op _ h => by
      obtain ⟨w, hobserved, rfl⟩ := h
      exact ⟨w.step op, hobserved.step op, w.step_endpoint op⟩
  exact ⟨hsending, hopened, hobserved.waiting⟩

/-- A lingering connection is still and its sender at rest. -/
theorem Timed.still (h : e.Timed) (hlingers : e.connection.Lingers) :
    e.connection.Still ∧ e.connection.sender.AtRest := by
  obtain ⟨hdrained, hedge, whole, firsts, n, fin, hsent⟩ := h.sending
  obtain ⟨hended, heof, hflight⟩ := (TCPConnection.streamBothEof_iff _).mp hlingers.finished
  have hacked : e.connection.sender.curAckIndex = e.connection.sender.nextSeqno := by
    have hcur := hsent.cur_le
    rw [hsent.inFlight] at hflight
    omega
  have hbuffer := hsent.segBuffer_eq_nil hacked
  refine ⟨⟨hdrained, hbuffer, ?_, hlingers.linger, hlingers.finished⟩, hedge,
    ⟨whole, firsts, n, fin, hsent⟩, h.opened (hsent.eof_iff.mp heof).1, heof, hacked⟩
  by_contra hcount
  exact h.count hcount hbuffer

end Endpoint

/-- A connection that lingers right after a segment has a timeout to wait for. -/
theorem TCPConnection.Lingers.timeout_pos {c : TCPConnection} {seg : TCPSegment}
    (h : (c.segmentReceived seg).Lingers) :
    seg.header.rst = false ∧ (c.segmentReceived seg).timeSinceLastSegmentReceived = 0 ∧
      0 < (c.segmentReceived seg).cfg.rtTimeout.toNat := by
  have hopen : (c.segmentReceived seg).close = false := by
    simpa [TCPConnection.active] using h.active
  have hrst : seg.header.rst = false := by
    by_contra hset
    have hdead : c.segmentReceived seg =
        badShutdown { c with lastReciveTime := c.nowTime } false := if_pos (by simpa using hset)
    rw [hdead] at hopen
    exact absurd hopen (by simp [badShutdown])
  obtain ⟨r, hr⟩ := c.exists_received hrst
  have hlinger := h.linger
  have hfinished := h.finished
  rw [hr.flushed] at hopen hlinger hfinished ⊢
  rw [clean_linger] at hlinger
  rw [clean_streamBothEof] at hfinished
  rw [clean_close_of_now hr.now hlinger hfinished, Bool.or_eq_false_iff] at hopen
  have hne : ¬ r.cfg.rtTimeout.toNat = 0 := of_decide_eq_false hopen.2
  refine ⟨hrst, ?_, ?_⟩
  · rw [clean_timeSinceLastSegmentReceived, hr.now]
  · rw [clean_cfg]
    omega

/-- **The linger lasts exactly ten timeouts.**  In every reachable state in which a
connection is found lingering right after a segment, whatever its clock shows: ticks emit
nothing and close it as soon as they add up to ten timeouts; and a further segment that
comes before restarts the wait, exactly if it does not let out a FIN that is still unsent. -/
theorem linger_lasts_ten_timeouts {cfg : TCPConfig} {e : Endpoint}
    (hr : Run.Reach Endpoint.step (fun _ _ => True) (Endpoint.start cfg) e) (seg : TCPSegment)
    (hlingers : (e.connection.segmentReceived seg).Lingers) :
    (e.connection.segmentReceived seg).LingersExactly ∧
    ∀ ts : List Nat, (∀ t ∈ ts, t < 2 ^ 31) →
      ts.sum < 10 * (e.connection.segmentReceived seg).cfg.rtTimeout.toNat →
      ∀ further : TCPSegment, further.header.rst = false →
        ((((e.connection.segmentReceived seg).runTicks ts).segmentReceived
            further).LingersExactly ↔
          ¬ (e.connection.segmentReceived seg).sender.LetsFinOut further) ∧
        ((((e.connection.segmentReceived seg).runTicks ts).segmentReceived
            further).LingersExactly →
          (((e.connection.segmentReceived seg).runTicks ts).segmentReceived further).Lingers) := by
  have htimed := Endpoint.timed_of_reach (.next (.receive seg) hr trivial)
  obtain ⟨-, hnow, hpos⟩ := hlingers.timeout_pos
  obtain ⟨hstill, hrest⟩ := htimed.still hlingers
  have hopen : (e.connection.segmentReceived seg).close = false := by
    simpa [TCPConnection.active] using hlingers.active
  change (e.connection.segmentReceived seg).Still at hstill
  change (e.connection.segmentReceived seg).sender.AtRest at hrest
  generalize e.connection.segmentReceived seg = c at *
  refine ⟨hstill.lingersExactly hopen hnow hpos, ?_⟩
  intro ts hts hsum further hrst
  -- up to the further segment only the clock has moved
  have hactive := (hstill.lingersExactly hopen hnow hpos ts hts).2.mpr hsum
  have hopen' : (c.runTicks ts).close = false := by
    simpa [TCPConnection.active] using hactive
  obtain ⟨now, close, heq⟩ := hstill.runTicks_eq ts
  have hsender : (c.runTicks ts).sender = c.sender := by rw [heq]
  have hcfg : (c.runTicks ts).cfg = c.cfg := by rw [heq]
  have hstill' := hstill.runTicks ts
  generalize c.runTicks ts = c' at *
  rw [← hsender] at hrest ⊢
  rw [← hcfg] at hpos
  by_cases hlets : c'.sender.LetsFinOut further
  · have hnot := hstill'.not_lingersExactly hrest hopen' hrst hlets
    exact ⟨⟨fun h => absurd h hnot, fun h => absurd hlets h⟩, fun h => absurd h hnot⟩
  · obtain ⟨hagain, hexact⟩ := hstill'.segmentReceived hrest hopen' hrst hpos hlets
    exact ⟨⟨fun _ => hlets, fun _ => hexact⟩, fun _ => hagain⟩

/-- Our stream is ended first, and its FIN acknowledged by the peer's; the clock is about
to wrap around. -/
def activeClose : List ConnectionOp :=
  [.connect,
    .receive { header := { syn := true, ack := true, seqno := ⟨100⟩, ackno := ⟨1⟩, win := 10 } },
    .tick 4294967000, .endInputStream]

/-- The peer's FIN. -/
def peerFin : TCPSegment :=
  { header := { fin := true, ack := true, seqno := ⟨101⟩, ackno := ⟨2⟩, win := 10 } }

/-- The peer's FIN, sent again during the linger, restarts it. -/
theorem linger_lasts_ten_timeouts_active_close :
    ((Run.exec Endpoint.step (Endpoint.start { isn := ⟨0⟩ })
        activeClose).connection.segmentReceived peerFin).LingersExactly ∧
      ((((Run.exec Endpoint.step (Endpoint.start { isn := ⟨0⟩ })
        activeClose).connection.segmentReceived peerFin).runTicks
          [5000, 4999]).segmentReceived peerFin).LingersExactly := by
  have hlasts := linger_lasts_ten_timeouts
    (Run.Reach.exec .start (Run.Admitted.of_forall (fun _ _ => trivial)
      (Endpoint.start { isn := ⟨0⟩ }) activeClose)) peerFin
    ⟨by decide +kernel, by decide +kernel, by decide +kernel⟩
  refine ⟨hlasts.1, (hlasts.2 [5000, 4999] (by decide) (by decide +kernel) peerFin rfl).1.mpr ?_⟩
  decide +kernel

/-- Our stream is ended while the peer's window is closed, so that the FIN stays unsent. -/
def endsUnderClosedWindow : List ConnectionOp :=
  [.connect,
    .receive { header := { syn := true, ack := true, seqno := ⟨100⟩, ackno := ⟨1⟩, win := 0 } },
    .endInputStream]

/-- The peer's FIN, without an acknowledgment, makes the connection linger; an
acknowledgment that opens the window then lets our FIN out, and ten timeouts later the
connection is still active. -/
theorem linger_ended_by_waiting_fin :
    Run.Reach Endpoint.step (fun _ _ => True) (Endpoint.start { isn := ⟨0⟩ })
      (Run.exec Endpoint.step (Endpoint.start { isn := ⟨0⟩ }) endsUnderClosedWindow) ∧
    ((Run.exec Endpoint.step (Endpoint.start { isn := ⟨0⟩ })
      endsUnderClosedWindow).connection.segmentReceived
        { header := { fin := true, seqno := ⟨101⟩ } }).Lingers ∧
    ¬ ((((Run.exec Endpoint.step (Endpoint.start { isn := ⟨0⟩ })
      endsUnderClosedWindow).connection.segmentReceived
        { header := { fin := true, seqno := ⟨101⟩ } }).runTicks [1000]).segmentReceived
          { header := { ack := true, seqno := ⟨102⟩, ackno := ⟨1⟩, win := 10 } }).LingersExactly
          := by
  refine ⟨Run.Reach.exec .start (Run.Admitted.of_forall (fun _ _ => trivial) _ _),
    ⟨by decide +kernel, by decide +kernel, by decide +kernel⟩, ?_⟩
  intro hexact
  exact absurd (hexact [10000] (by decide)).2 (by decide +kernel)

end Sponge

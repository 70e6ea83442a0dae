import Sponge.Connection.GiveUp

/-!
# Exponential back-off

The sender doubles its timeout with each retransmission it counts and the connection stops
counting at `MAX_RETX_ATTEMPTS`, so that the timeout is the initial one times a power of
two that cannot overflow, in every run.  Whether a retransmission counts is decided by the
difference `wd_right_edge - cur_ack_index`.  It is not negative as long as an
acknowledgment beyond the edge, of the byte that probed a closed window, moves the edge:
that fails when the new edge, `ack + window_size`, does not fit into 64 bits.
-/

namespace Sponge

namespace TCPSender

variable {s s' : TCPSender} {timeout : Nat}

/-- The timeout has been doubled once for each retransmission counted. -/
structure Doubled (s : TCPSender) (timeout : Nat) : Prop where
  initial : s.initialRetransmissionTimeout = timeout
  rto : s.rto = timeout * 2 ^ s.retransNum
  few : s.retransNum ≤ TCPConfig.maxRetxAttempts

theorem Sends.doubled {new : List TCPSegment} (h : Sends s s' new) (hd : s.Doubled timeout) :
    s'.Doubled timeout where
  initial := h.initial.trans hd.initial
  rto := by rw [h.rto, h.retransNum, hd.rto]
  few := by rw [h.retransNum]; exact hd.few

theorem Doubled.acknowledge (hd : s.Doubled timeout) (ack : Nat) :
    (s.acknowledge ack).Doubled timeout := by
  have hinitial : (s.acknowledge ack).initialRetransmissionTimeout = timeout := by
    rw [acknowledge_initial, hd.initial]
  rcases s.acknowledge_timer ack with ⟨-, -, hrto, hcount, -⟩ | ⟨-, hrto, hcount, -⟩
  · exact ⟨hinitial, by rw [hrto, hcount, hd.rto], by rw [hcount]; exact hd.few⟩
  · refine ⟨hinitial, ?_, by rw [hcount]; exact Nat.zero_le _⟩
    rw [hrto, hcount, hd.initial, pow_zero, Nat.mul_one]

/-- A retransmission is counted and doubles the timeout, or it does neither. -/
theorem Doubled.tick (hd : s.Doubled timeout) (htimeout : timeout < 2 ^ 16)
    (hfew : s.retransNum < TCPConfig.maxRetxAttempts) (ms : Nat) :
    (s.tick ms).Doubled timeout := by
  rcases s.tick_cases ms with ⟨-, heq⟩ | ⟨-, -, heq⟩ | ⟨front, rest, -, -, heq⟩
  · rw [heq]
    exact hd
  · rw [heq]
    exact ⟨hd.initial, hd.rto, hd.few⟩
  · rw [heq]
    have hmax : TCPConfig.maxRetxAttempts = 8 := rfl
    by_cases hwin : Word.sub 64 s.wdRightEdge s.curAckIndex ≠ 0
    · have hnum : Word.add 64 s.retransNum 1 = s.retransNum + 1 := Word.add_of_lt (by omega)
      have hpow : 2 ^ (s.retransNum + 1) ≤ 2 ^ 8 :=
        Nat.pow_le_pow_right (by norm_num) (by omega)
      have hbound : timeout * 2 ^ (s.retransNum + 1) < 2 ^ 64 :=
        calc
          timeout * 2 ^ (s.retransNum + 1) ≤ timeout * 2 ^ 8 := Nat.mul_le_mul_left timeout hpow
          _ < 2 ^ 64 := by omega
      refine ⟨hd.initial, ?_, ?_⟩
      · simp only [if_pos hwin, hnum, hd.rto]
        rw [Nat.mul_assoc, ← pow_succ]
        exact Nat.mod_eq_of_lt hbound
      · simp only [if_pos hwin, hnum]
        omega
    · refine ⟨hd.initial, ?_, ?_⟩
      · simp only [if_neg hwin, hd.rto]
      · simp only [if_neg hwin]
        exact hd.few

/-- The loop does not run past the acknowledged number. -/
theorem popAcked_le {ack cur : Nat} (newAck : Bool) (nodes : List SegNode) (hle : cur ≤ ack) :
    (popAcked ack cur newAck nodes).1 ≤ ack := by
  induction nodes generalizing cur newAck with
  | nil => exact hle
  | cons node rest ih =>
      rw [popAcked]
      split_ifs with hacked
      · exact ih true hacked
      · exact hle

/-- An acknowledgment beyond the edge brings an edge that fits into 64 bits. -/
def EdgeFits (s : TCPSender) (ack : Nat) (windowSize : UInt16) : Prop :=
  ack + windowSize.toNat < 2 ^ 64 ∨ ack ≤ s.wdRightEdge

instance (s : TCPSender) (ack : Nat) (windowSize : UInt16) :
    Decidable (s.EdgeFits ack windowSize) :=
  inferInstanceAs (Decidable (_ ∨ _))

/-- `ack_received` keeps the doubled timeout, and the edge ahead of the acknowledged
number if the new edge fits. -/
theorem Doubled.ackReceived (hd : s.Doubled timeout) (hvalid : s.stream.Valid)
    (hlt : s.wdRightEdge < 2 ^ 64) (ackno : WrappingInt32) (windowSize : UInt16) :
    (s.ackReceived ackno windowSize).Doubled timeout ∧
      (s.curAckIndex ≤ s.wdRightEdge →
        (s.rejects (unwrap ackno s.isn s.nextSeqno) = false →
          s.EdgeFits (unwrap ackno s.isn s.nextSeqno) windowSize) →
        (s.ackReceived ackno windowSize).curAckIndex ≤
          (s.ackReceived ackno windowSize).wdRightEdge) := by
  cases hrej : s.rejects (unwrap ackno s.isn s.nextSeqno) with
  | true =>
      rw [ackReceived_of_rejects windowSize hrej]
      exact ⟨hd, fun hle _ => hle⟩
  | false =>
      obtain ⟨t, new, hnew, heq, -⟩ := exists_ackReceived_of_accepts windowSize hvalid
        (max_lt hlt (Word.add_lt _ _ _)) rfl hrej
      have hready : (s.readyToFill (unwrap ackno s.isn s.nextSeqno) windowSize).Doubled timeout :=
        ⟨(hd.acknowledge _).initial, (hd.acknowledge _).rto, (hd.acknowledge _).few⟩
      have ht := hnew.doubled hready
      rw [heq]
      refine ⟨⟨ht.initial, ht.rto, ht.few⟩, ?_⟩
      intro hle hfits
      have hcur : t.curAckIndex ≤ unwrap ackno s.isn s.nextSeqno := by
        rw [hnew.curAckIndex, readyToFill_curAckIndex, acknowledge_curAckIndex]
        exact popAcked_le false _ (accepts_iff.mp hrej).1
      show t.curAckIndex ≤ max s.wdRightEdge _
      rcases hfits rfl with hsum | hknown
      · rw [Word.add_of_lt hsum]
        omega
      · omega

theorem Doubled.sendEmptyAck (hd : s.Doubled timeout) :
    s.sendEmptyAck.Doubled timeout ∧ s.sendEmptyAck.curAckIndex = s.curAckIndex ∧
      s.sendEmptyAck.wdRightEdge = s.wdRightEdge := by
  rcases s.sendEmptyAck_cases with ⟨-, heq⟩ | ⟨-, heq⟩
  · have hsends := Sends.sendNewSeg s s.synSeg rfl
    rw [heq]
    exact ⟨hsends.doubled hd, hsends.curAckIndex, hsends.wdRightEdge⟩
  · rw [heq]
    exact ⟨⟨hd.initial, hd.rto, hd.few⟩, rfl, rfl⟩

/-- The sender's half of `segment_received`. -/
theorem Doubled.respond (hd : s.Doubled timeout) (hvalid : s.stream.Valid)
    (hlt : s.wdRightEdge < 2 ^ 64) (seg : TCPSegment) :
    (TCPConnection.respond s seg).Doubled timeout ∧
      (s.curAckIndex ≤ s.wdRightEdge →
        (seg.header.ack = true → s.rejects (unwrap seg.header.ackno s.isn s.nextSeqno) = false →
          s.EdgeFits (unwrap seg.header.ackno s.isn s.nextSeqno) seg.header.win) →
        (TCPConnection.respond s seg).curAckIndex ≤
          (TCPConnection.respond s seg).wdRightEdge) := by
  have htake : (TCPConnection.takeAck s seg).Doubled timeout ∧
      (s.curAckIndex ≤ s.wdRightEdge →
        (seg.header.ack = true → s.rejects (unwrap seg.header.ackno s.isn s.nextSeqno) = false →
          s.EdgeFits (unwrap seg.header.ackno s.isn s.nextSeqno) seg.header.win) →
        (TCPConnection.takeAck s seg).curAckIndex ≤
          (TCPConnection.takeAck s seg).wdRightEdge) := by
    unfold TCPConnection.takeAck
    split_ifs with hack
    · obtain ⟨hd', hedge⟩ := hd.ackReceived hvalid hlt seg.header.ackno seg.header.win
      exact ⟨hd', fun hle hfits => hedge hle (hfits hack)⟩
    · exact ⟨hd, fun hle _ => hle⟩
  obtain ⟨hd', hedge⟩ := htake
  unfold TCPConnection.respond
  split_ifs
  · obtain ⟨hempty, hcur, hright⟩ := hd'.sendEmptyAck
    rw [hcur, hright]
    exact ⟨hempty, hedge⟩
  · exact ⟨hd', hedge⟩

end TCPSender

namespace Endpoint

variable {e : Endpoint} {op : ConnectionOp} {cfg : TCPConfig}

/-- An acknowledgment that the sender accepts beyond its edge brings one that fits. -/
def AckFits (e : Endpoint) : ConnectionOp → Prop
  | .receive seg =>
      let s := e.connection.sender
      seg.header.rst = false → seg.header.ack = true →
        s.rejects (unwrap seg.header.ackno s.isn s.nextSeqno) = false →
          s.EdgeFits (unwrap seg.header.ackno s.isn s.nextSeqno) seg.header.win
  | _ => True

instance (e : Endpoint) : ∀ op, Decidable (e.AckFits op)
  | .receive _ => inferInstanceAs (Decidable (_ → _))
  | .connect => isTrue trivial
  | .write _ => isTrue trivial
  | .endInputStream => isTrue trivial
  | .tick _ => isTrue trivial
  | .read _ => isTrue trivial

/-- The timeout of a sender between two calls. -/
structure Paced (e : Endpoint) (cfg : TCPConfig) : Prop where
  settled : e.Settled
  doubled : e.connection.sender.Doubled cfg.rtTimeout.toNat

theorem paced_start (cfg : TCPConfig) : (start cfg).Paced cfg where
  settled := settled_start cfg
  doubled := ⟨rfl, (Nat.mul_one _).symm, Nat.zero_le _⟩

theorem Paced.consecutive (h : e.Paced cfg) :
    e.connection.sender.consecutiveRetransmissions = e.connection.sender.retransNum := by
  have hfew := h.doubled.few
  have hmax : TCPConfig.maxRetxAttempts = 8 := rfl
  exact Nat.mod_eq_of_lt (by omega)

/-- The calls that an operation makes. -/
theorem Paced.driven (h : e.Paced cfg) (hdown : e.shutsDown op = false) :
    (e.driven op).Doubled cfg.rtTimeout.toNat ∧
      (e.connection.sender.curAckIndex ≤ e.connection.sender.wdRightEdge → e.AckFits op →
        (e.driven op).curAckIndex ≤ (e.driven op).wdRightEdge) := by
  have hd := h.doubled
  have hprepared : (e.prepared op).Doubled cfg.rtTimeout.toNat := by
    cases op with
    | write data => exact ⟨hd.initial, hd.rto, hd.few⟩
    | endInputStream => exact ⟨hd.initial, hd.rto, hd.few⟩
    | connect => exact hd
    | tick ms => exact hd
    | read len => exact hd
    | receive seg => exact hd
  have hfill : (e.prepared op).fillWindow.Doubled cfg.rtTimeout.toNat ∧
      (e.connection.sender.curAckIndex ≤ e.connection.sender.wdRightEdge → e.AckFits op →
        (e.prepared op).fillWindow.curAckIndex ≤ (e.prepared op).fillWindow.wdRightEdge) := by
    obtain ⟨new, hnew, -⟩ := TCPSender.exists_sends_fillWindow (h.settled.prepared op).2.1
    refine ⟨hnew.doubled hprepared, fun hle _ => ?_⟩
    rw [hnew.curAckIndex, hnew.wdRightEdge, prepared_curAckIndex, prepared_wdRightEdge]
    exact hle
  cases op with
  | connect => exact hfill
  | write data => exact hfill
  | endInputStream => exact hfill
  | read len => exact ⟨hd, fun hle _ => hle⟩
  | tick ms =>
      have hfew : e.connection.sender.retransNum < TCPConfig.maxRetxAttempts := by
        have hless : e.connection.sender.consecutiveRetransmissions <
            TCPConfig.maxRetxAttempts := by
          simpa [shutsDown] using hdown
        rwa [h.consecutive] at hless
      refine ⟨hd.tick cfg.rtTimeout.toNat_lt hfew ms, fun hle _ => ?_⟩
      show (e.connection.sender.tick ms).curAckIndex ≤ (e.connection.sender.tick ms).wdRightEdge
      rcases e.connection.sender.tick_cases ms with
        ⟨-, heq⟩ | ⟨-, -, heq⟩ | ⟨front, rest, -, -, heq⟩
      · rw [heq]
        exact hle
      · rw [heq]
        exact hle
      · rw [heq]
        exact hle
  | receive seg =>
      have hrst : seg.header.rst = false := hdown
      obtain ⟨hd', hedge⟩ := hd.respond h.settled.valid h.settled.edge_lt seg
      exact ⟨hd', fun hle hfits => hedge hle (hfits hrst)⟩

/-- One operation. -/
theorem Paced.step (h : e.Paced cfg) (op : ConnectionOp) :
    (e.step op).Paced cfg ∧
      (e.connection.sender.curAckIndex ≤ e.connection.sender.wdRightEdge → e.AckFits op →
        (e.step op).connection.sender.curAckIndex ≤
          (e.step op).connection.sender.wdRightEdge) := by
  have hsettled := (h.settled.step op).1
  cases hdown : e.shutsDown op with
  | false =>
      have hruns := runs_of_not_shutsDown h.settled.drained hdown
      obtain ⟨hd, hedge⟩ := h.driven hdown
      refine ⟨⟨hsettled, ?_⟩, ?_⟩
      · rw [hruns.sender]
        exact ⟨hd.initial, hd.rto, hd.few⟩
      · rw [hruns.sender]
        exact hedge
  | true =>
      have hshuts := shuts_of_shutsDown hdown
      have hd := h.doubled
      refine ⟨⟨hsettled, ?_⟩, ?_⟩
      · rw [hshuts.sender]
        exact ⟨hd.initial, hd.rto, hd.few⟩
      · rw [hshuts.sender]
        exact fun hle _ => hle

/-- The timeout is the initial one doubled as often as retransmissions have been counted,
which is not often enough to overflow. -/
structure BacksOff (e : Endpoint) (cfg : TCPConfig) : Prop where
  rto : e.connection.sender.rto =
    cfg.rtTimeout.toNat * 2 ^ e.connection.sender.consecutiveRetransmissions
  few : e.connection.sender.consecutiveRetransmissions ≤ TCPConfig.maxRetxAttempts
  rto_lt : e.connection.sender.rto < 2 ^ 64

/-- The edge is not below the acknowledged number, so that their difference does not wrap. -/
structure EdgeAhead (e : Endpoint) : Prop where
  edge : e.connection.sender.curAckIndex ≤ e.connection.sender.wdRightEdge
  window : Word.sub 64 e.connection.sender.wdRightEdge e.connection.sender.curAckIndex =
    e.connection.sender.wdRightEdge - e.connection.sender.curAckIndex

theorem Paced.backsOff (h : e.Paced cfg) : e.BacksOff cfg where
  rto := by rw [h.consecutive, h.doubled.rto]
  few := by rw [h.consecutive]; exact h.doubled.few
  rto_lt := by
    have hmax : TCPConfig.maxRetxAttempts = 8 := rfl
    have hfew := h.doubled.few
    have htimeout := cfg.rtTimeout.toNat_lt
    have hpow : 2 ^ e.connection.sender.retransNum ≤ 2 ^ 8 :=
      Nat.pow_le_pow_right (by norm_num) (by omega)
    rw [h.doubled.rto]
    calc
      cfg.rtTimeout.toNat * 2 ^ e.connection.sender.retransNum
          ≤ cfg.rtTimeout.toNat * 2 ^ 8 := Nat.mul_le_mul_left _ hpow
      _ < 2 ^ 64 := by omega

theorem paced_of_reach {admits : Endpoint → ConnectionOp → Prop}
    (hr : Run.Reach step admits (start cfg) e) : e.Paced cfg :=
  Run.Reach.invariant (P := fun e => e.Paced cfg) hr (paced_start cfg)
    fun _ op _ h => (h.step op).1

theorem edgeAhead_of_reach (hr : Run.Reach step AckFits (start cfg) e) : e.EdgeAhead := by
  have hinv : e.Paced cfg ∧
      e.connection.sender.curAckIndex ≤ e.connection.sender.wdRightEdge := by
    refine Run.Reach.invariant (P := fun e => e.Paced cfg ∧
      e.connection.sender.curAckIndex ≤ e.connection.sender.wdRightEdge) hr
      ⟨paced_start cfg, Nat.zero_le 1⟩ ?_
    rintro e op hfits ⟨hpaced, hle⟩
    obtain ⟨hpaced', hedge⟩ := hpaced.step op
    exact ⟨hpaced', hedge hle hfits⟩
  exact ⟨hinv.2, Word.sub_of_le hinv.1.settled.edge_lt hinv.2⟩

end Endpoint

/-- **Back-off.**  In every run the timeout is the initial one doubled for each of at most
`MAX_RETX_ATTEMPTS` retransmissions; and in every run in which no acknowledgment beyond the
edge makes the new edge overflow, the edge never falls below the acknowledged number. -/
theorem backs_off_exponentially {cfg : TCPConfig} {e : Endpoint}
    (hr : Run.Reach Endpoint.step (fun _ _ => True) (Endpoint.start cfg) e) :
    e.BacksOff cfg ∧
      (Run.Reach Endpoint.step Endpoint.AckFits (Endpoint.start cfg) e → e.EdgeAhead) :=
  ⟨(Endpoint.paced_of_reach hr).backsOff, Endpoint.edgeAhead_of_reach⟩

/-- A connection that retransmits its SYN once and then gets it acknowledged. -/
def retransmittedSyn : List ConnectionOp :=
  [.connect, .tick 1000, .receive { header := { ack := true, ackno := ⟨8⟩, win := 2 } },
    .write [97, 98, 99], .tick 1000, .tick 2000]

theorem backs_off_exponentially_twice :
    (Run.exec Endpoint.step (Endpoint.start { isn := ⟨7⟩ })
      retransmittedSyn).connection.sender.rto = 4000 ∧
    (Run.exec Endpoint.step (Endpoint.start { isn := ⟨7⟩ }) retransmittedSyn).BacksOff
      { isn := ⟨7⟩ } ∧
    (Run.exec Endpoint.step (Endpoint.start { isn := ⟨7⟩ }) retransmittedSyn).EdgeAhead := by
  obtain ⟨hback, hedge⟩ := backs_off_exponentially
    (e := Run.exec Endpoint.step (Endpoint.start { isn := ⟨7⟩ }) retransmittedSyn)
    (.exec .start (by decide +kernel))
  exact ⟨by decide +kernel, hback, hedge (.exec .start (by decide +kernel))⟩

/-! ## The end of the sequence space -/

namespace TCPSender

variable {s : TCPSender} {whole : List Byte} {firsts : List TCPSegment} {n : Nat} {fin : Bool}

/-- The loop removes everything that ends at or before the acknowledged number. -/
theorem popAcked_of_span_le {ack cur : Nat} {flag : Bool} {pending : List TCPSegment}
    (hle : cur + span pending ≤ ack) :
    (popAcked ack cur flag (nodesFrom cur pending)).1 = cur + span pending := by
  induction pending generalizing cur flag with
  | nil => rfl
  | cons seg rest ih =>
      rw [span_cons] at hle
      have hfirst : cur + seg.lengthInSequenceSpace ≤ ack := by omega
      rw [nodesFrom, popAcked, if_pos hfirst]
      show (popAcked ack (cur + seg.lengthInSequenceSpace) true
        (nodesFrom (cur + seg.lengthInSequenceSpace) rest)).1 = _
      rw [ih (by omega), span_cons, Nat.add_assoc]

/-- An acknowledgment of everything sent is taken as such. -/
theorem Sent.acknowledge_next (h : Sent s whole firsts n fin) :
    (s.acknowledge s.nextSeqno).curAckIndex = s.nextSeqno := by
  obtain ⟨done, pending, hsplit, hcur, hbuf⟩ := h.outstanding
  have hnext : s.curAckIndex + span pending = s.nextSeqno := by
    rw [h.next, hsplit, span_append, hcur]
  rw [acknowledge_curAckIndex, hbuf, popAcked_of_span_le hnext.le, hnext]

/-- Between the SYN and the FIN, and before the last number there is, what waits is what
has not been carried. -/
theorem Sent.backlog_eq (h : Sent s whole firsts n false) (hopen : s.stream.inputEnd = false)
    (hsyn : s.nextSeqno ≠ 0) (hlast : s.nextSeqno ≠ 18446744073709551615) :
    s.backlog = whole.length + 1 - s.nextSeqno := by
  have hnext := h.next_eq hsyn
  have hidx : s.nextSeqno ≠ s.finAckIndex := by
    rw [h.finIndex]
    exact hlast
  rw [backlog, if_neg hidx, if_neg hsyn, hopen, h.buffer, List.length_drop]
  simp only [Bool.false_eq_true, if_false, Nat.add_zero] at hnext ⊢
  omega

end TCPSender

namespace Endpoint

open TCPSender

variable {e : Endpoint}

/-- The peer acknowledges everything sent so far. -/
def ackAll (e : Endpoint) (windowSize : UInt16) : ConnectionOp :=
  .receive
    { header :=
        { ack := true
          ackno := wrap e.connection.sender.nextSeqno e.connection.sender.isn
          win := windowSize } }

/-- A connection with the initial sequence number zero that `k` bytes have been written to
and whose stream has not ended: the next sequence number, the acknowledged one and the
edge. -/
structure Numbers (e : Endpoint) (k next cur edge : Nat) : Prop where
  reach : Run.Reach step WritesBeforeEnd (start { isn := ⟨0⟩ }) e
  ended : e.ended = false
  room : 2 ≤ e.connection.sender.stream.capcity
  written : e.accepted.length = k
  next : e.connection.sender.nextSeqno = next
  cur : e.connection.sender.curAckIndex = cur
  edge : e.connection.sender.wdRightEdge = edge

variable {k next cur edge : Nat}

theorem Numbers.sends (h : e.Numbers k next cur edge) : ∃ firsts n, e.Sends firsts n false := by
  have hsends : ∃ firsts n fin, e.Sends firsts n fin := by
    refine Run.Reach.invariant (P := fun e => ∃ firsts n fin, e.Sends firsts n fin) h.reach
      ⟨[], 0, false, sends_start _⟩ ?_
    rintro e op hop ⟨firsts, n, fin, hsends⟩
    exact hsends.step hop
  obtain ⟨firsts, n, fin, hsends⟩ := hsends
  cases fin with
  | false => exact ⟨firsts, n, hsends⟩
  | true =>
      have hcon := (hsends.fin_last rfl).1
      rw [h.ended] at hcon
      contradiction

/-- Bytes are written and sent as far as the edge allows. -/
theorem Numbers.write (h : e.Numbers k next cur edge) (data : List Byte) (hsyn : next ≠ 0)
    (hlast : next ≠ 18446744073709551615) (hfits : k + 1 + data.length ≤ next + 2) :
    (e.step (.write data)).Numbers (k + data.length) (min (k + data.length + 1) (max next edge))
      cur edge := by
  obtain ⟨firsts, n, hsends⟩ := h.sends
  have hprepared := hsends.prepared (show e.WritesBeforeEnd (.write data) from h.ended)
  have hruns : Runs e (.write data) := runs_of_not_shutsDown hsends.drained rfl
  have hopen : (e.prepared (.write data)).stream.inputEnd = false :=
    hsends.ended_eq.trans h.ended
  have hnumber := hsends.sent.next_eq (by rw [h.next]; exact hsyn)
  simp only [Bool.false_eq_true, if_false, Nat.add_zero, h.next] at hnumber
  have hbuffer := congrArg List.length hsends.sent.buffer
  rw [List.length_drop, h.written] at hbuffer
  have hsize := hsends.sent.stream.size_eq
  have hcapacity := h.room
  have hle := hsends.sent.shape.le_length
  rw [h.written] at hle
  -- the stream has room for the data
  have haccepted : (e.step (.write data)).accepted.length = k + data.length := by
    show (e.accepted ++ e.connection.sender.stream.accepted data).length = _
    rw [ByteStream.accepted_of_fits (by omega), List.length_append, h.written]
  obtain ⟨-, -, -, -, -, hcur, hedge, hnext⟩ :=
    hprepared.sent.fillWindow_stepped hprepared.edge
  have hbacklog := hprepared.sent.backlog_eq hopen (by simpa [h.next] using hsyn)
    (by simpa [h.next] using hlast)
  rw [haccepted, prepared_nextSeqno, h.next] at hbacklog
  refine ⟨.next _ h.reach h.ended, h.ended, ?_, haccepted, ?_, ?_, ?_⟩
  · rw [hruns.sender]
    show 2 ≤ (e.prepared (.write data)).fillWindow.stream.capcity
    rw [fillWindow_capcity]
    exact hcapacity
  · rw [hruns.sender]
    show (e.prepared (.write data)).fillWindow.nextSeqno = _
    rw [hnext, hbacklog, prepared_nextSeqno, prepared_wdRightEdge, h.next, h.edge]
    omega
  · rw [hruns.sender]
    show (e.prepared (.write data)).fillWindow.curAckIndex = _
    rw [hcur, prepared_curAckIndex, h.cur]
  · rw [hruns.sender]
    show (e.prepared (.write data)).fillWindow.wdRightEdge = _
    rw [hedge, prepared_wdRightEdge, h.edge]

/-- What an acknowledgment of everything does to a sender. -/
theorem exists_ackAll_sender {firsts : List TCPSegment} {n : Nat} {fin : Bool}
    (hsends : e.Sends firsts n fin) (windowSize : UInt16) :
    ∃ t : TCPSender,
      (e.step (e.ackAll windowSize)).connection.sender = { t with segmentsOut := [] } ∧
      t.stream.capcity = e.connection.sender.stream.capcity ∧
      t.curAckIndex = e.connection.sender.nextSeqno ∧
      t.wdRightEdge = max e.connection.sender.wdRightEdge
        (Word.add 64 e.connection.sender.nextSeqno windowSize.toNat) ∧
      t.nextSeqno = min (e.connection.sender.nextSeqno + e.connection.sender.backlog)
        (max e.connection.sender.nextSeqno (probeEdge (max e.connection.sender.wdRightEdge
          (Word.add 64 e.connection.sender.nextSeqno windowSize.toNat)) windowSize)) := by
  have hruns : Runs e (e.ackAll windowSize) := runs_of_not_shutsDown hsends.drained rfl
  have hlt := hsends.sent.next_lt
  have hack : e.connection.sender.nextSeqno =
      unwrap (wrap e.connection.sender.nextSeqno e.connection.sender.isn)
        e.connection.sender.isn e.connection.sender.nextSeqno :=
    (unwrap_wrap_of_near _ hlt hlt (by omega) (by omega)).symm
  have hrej : e.connection.sender.rejects e.connection.sender.nextSeqno = false :=
    accepts_iff.mpr ⟨hsends.sent.cur_le, le_refl _⟩
  obtain ⟨-, -, -, -, -, hcur, -, hedge, hnext⟩ :=
    hsends.sent.ackReceived_stepped hsends.edge hack windowSize hrej
  have hdriven : e.driven (e.ackAll windowSize) = e.connection.sender.ackReceived
      (wrap e.connection.sender.nextSeqno e.connection.sender.isn) windowSize := by
    -- the segment is empty, so that only its acknowledgment counts
    rw [ackAll, driven, TCPConnection.respond,
      if_neg (by simp [TCPSegment.lengthInSequenceSpace]), TCPConnection.takeAck, if_pos rfl]
  refine ⟨_, hruns.sender, ?_, ?_, ?_, ?_⟩
  · have hwiden := hsends.edge.widened (le_refl e.connection.sender.nextSeqno) windowSize
    obtain ⟨new, hnew, -⟩ := exists_sends_fillWindow
      (s := e.connection.sender.readyToFill e.connection.sender.nextSeqno windowSize)
      (by rw [readyToFill_stream]; exact hsends.sent.stream)
    rw [hdriven, ackReceived_of_accepts windowSize hack hrej hwiden.1 hnew.wdRightEdge]
    show (e.connection.sender.readyToFill _ windowSize).fillWindow.stream.capcity = _
    rw [fillWindow_capcity, readyToFill_stream]
  · rw [hdriven, hcur]
    exact hsends.sent.acknowledge_next
  · rw [hdriven]
    exact hedge
  · rw [hdriven]
    exact hnext

/-- Everything is acknowledged: the acknowledged number is the next one. -/
theorem Numbers.ackAll (h : e.Numbers k next cur edge) (windowSize : UInt16) (hsyn : next ≠ 0)
    (hlast : next ≠ 18446744073709551615) :
    (e.step (e.ackAll windowSize)).Numbers k
      (min (k + 1) (max next
        (probeEdge (max edge (Word.add 64 next windowSize.toNat)) windowSize)))
      next (max edge (Word.add 64 next windowSize.toNat)) := by
  obtain ⟨firsts, n, hsends⟩ := h.sends
  obtain ⟨t, ht, hcapacity, hcur, hedge, hnext⟩ := exists_ackAll_sender hsends windowSize
  have hopen : e.connection.sender.stream.inputEnd = false := hsends.ended_eq.trans h.ended
  have hbacklog := hsends.sent.backlog_eq hopen (by rw [h.next]; exact hsyn)
    (by rw [h.next]; exact hlast)
  have hnumber := hsends.sent.next_eq (by rw [h.next]; exact hsyn)
  simp only [Bool.false_eq_true, if_false, Nat.add_zero, h.next] at hnumber
  have hle := hsends.sent.shape.le_length
  rw [h.written] at hle
  rw [h.written, h.next] at hbacklog
  rw [h.next] at hcur
  rw [h.edge, h.next] at hedge
  rw [h.edge, h.next, hbacklog] at hnext
  refine ⟨.next _ h.reach trivial, h.ended, ?_, h.written, ?_, ?_, ?_⟩
  · rw [ht]
    show 2 ≤ t.stream.capcity
    rw [hcapacity]
    exact h.room
  · rw [ht]
    show t.nextSeqno = _
    rw [hnext]
    congr 1
    omega
  · rw [ht]
    exact hcur
  · rw [ht]
    exact hedge

/-- The peer grants one byte at a time. -/
def Lockstep (e : Endpoint) (k : Nat) : Prop :=
  e.Numbers k (k + 1) (k + 1) (k + 2)

theorem lockstep_zero : (Run.exec step (start { isn := ⟨0⟩ })
    [.connect, .receive { header := { ack := true, ackno := ⟨1⟩, win := 1 } }]).Lockstep 0 where
  reach := .exec .start (by decide +kernel)
  ended := by decide +kernel
  room := by decide +kernel
  written := by decide +kernel
  next := by decide +kernel
  cur := by decide +kernel
  edge := by decide +kernel

/-- One more byte, sent and acknowledged. -/
theorem Lockstep.advance (h : e.Lockstep k) (hk : k + 3 < 2 ^ 64) :
    ((e.step (.write [0])).step ((e.step (.write [0])).ackAll 1)).Lockstep (k + 1) := by
  have hwrite : (e.step (.write [0])).Numbers (k + 1) (k + 2) (k + 1) (k + 2) := by
    have hsent := Numbers.write h [0] (by omega) (by omega) (by simp)
    rw [List.length_singleton, min_eq_left (le_max_right _ _)] at hsent
    exact hsent
  have hacked := hwrite.ackAll 1 (by omega) (by omega)
  have hsum : Word.add 64 (k + 2) (1 : UInt16).toNat = k + 3 := Word.add_of_lt hk
  have hprobe : probeEdge (k + 3) 1 = k + 3 := if_neg (by decide)
  rw [hsum, max_eq_right (Nat.le_succ (k + 2)), hprobe, max_eq_right (Nat.le_succ (k + 2)),
    min_eq_left (Nat.le_succ (k + 2))] at hacked
  exact hacked

theorem exists_lockstep (hk : k + 2 < 2 ^ 64) : ∃ e : Endpoint, e.Lockstep k := by
  induction k with
  | zero => exact ⟨_, lockstep_zero⟩
  | succ k ih =>
      obtain ⟨e, hlock⟩ := ih (by omega)
      exact ⟨_, hlock.advance (by omega)⟩

/-- With the edge two numbers before the end, the next byte fills the window and the one
after it probes the window that is closed then. -/
theorem Lockstep.probe (h : e.Lockstep k) (hk : k + 4 = 2 ^ 64) :
    ((e.step (.write [0, 0])).step ((e.step (.write [0, 0])).ackAll 0)).Numbers (k + 2) (k + 3)
      (k + 2) (k + 2) := by
  have hwrite : (e.step (.write [0, 0])).Numbers (k + 2) (k + 2) (k + 1) (k + 2) := by
    have hsent := Numbers.write h [0, 0] (by omega) (by omega) (by simp)
    rw [show ([0, 0] : List Byte).length = 2 from rfl, max_eq_right (Nat.le_succ (k + 1)),
      min_eq_right (Nat.le_succ (k + 2))] at hsent
    exact hsent
  have hacked := hwrite.ackAll 0 (by omega) (by omega)
  have hsum : Word.add 64 (k + 2) (0 : UInt16).toNat = k + 2 :=
    Word.add_of_lt (show k + 2 + 0 < 2 ^ 64 by omega)
  have hprobe : probeEdge (k + 2) 0 = k + 3 := by
    rw [probeEdge, if_pos rfl, Word.add_of_lt (by omega)]
  rw [hsum, max_self, hprobe, max_eq_right (Nat.le_succ (k + 2)), min_self] at hacked
  exact hacked

end Endpoint

/-- At the end of the sequence space the edge is left behind: the byte before the last
number probes a closed window, and its acknowledgment brings an edge that wraps to zero. -/
theorem edge_left_behind : ∃ e, Run.Reach Endpoint.step (fun _ _ => True)
    (Endpoint.start { isn := ⟨0⟩ }) e ∧ ¬e.EdgeAhead := by
  obtain ⟨k, hk⟩ : ∃ k, k + 4 = 2 ^ 64 := ⟨2 ^ 64 - 4, by norm_num⟩
  obtain ⟨e, hlock⟩ := Endpoint.exists_lockstep (show k + 2 < 2 ^ 64 by omega)
  have hprobed := hlock.probe hk
  generalize (e.step (.write [0, 0])).step ((e.step (.write [0, 0])).ackAll 0) = e' at hprobed
  obtain ⟨firsts, n, hsends⟩ := hprobed.sends
  obtain ⟨t, ht, -, hcur, hedge, -⟩ := Endpoint.exists_ackAll_sender hsends 1
  have hreach : Run.Reach Endpoint.step (fun _ _ => True) (Endpoint.start { isn := ⟨0⟩ })
      (e'.step (e'.ackAll 1)) :=
    .next _ (hprobed.reach.mono fun _ _ _ => trivial) trivial
  refine ⟨_, hreach, ?_⟩
  rintro ⟨hahead, -⟩
  -- the sum of the last number and the window is zero
  have hwrap : Word.add 64 (k + 3) (1 : UInt16).toNat = 0 := Word.add_of_eq hk
  rw [hprobed.next] at hcur
  rw [hprobed.edge, hprobed.next, hwrap] at hedge
  have hbelow : t.curAckIndex ≤ t.wdRightEdge := by
    rw [ht] at hahead
    exact hahead
  omega

end Sponge

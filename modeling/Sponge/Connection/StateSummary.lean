import Sponge.Connection.BackOff
import Sponge.Connection.CleanClose
import Sponge.Sender.Outstanding

/-!
# The state summary of a sender

`TCPState::state_summary` of `tcp_state.cc` tells from the counters of a sender how
far its stream has come; the loops of `connect` and `listen_and_accept` wait on it.
Here the summary is compared with what has happened in the run of the connection:
which segments were emitted, and which acknowledgments were accepted.  The two agree
as long as the sum of the stream's length and the two numbers of SYN and FIN, which
the summary computes in 64 bits, does not wrap.
-/

namespace Sponge

/-- The texts of `TCPSenderStateSummary`, one constructor each. -/
inductive TCPSenderStateSummary where
  | error
  | closed
  | synSent
  | synAcked
  | finSent
  | finAcked
deriving DecidableEq, Repr

namespace TCPSenderStateSummary

def text : TCPSenderStateSummary → String
  | error => "error (connection was reset)"
  | closed => "waiting for stream to begin (no SYN sent)"
  | synSent => "stream started but nothing acknowledged"
  | synAcked => "stream ongoing"
  | finSent => "stream finished (FIN sent) but not fully acknowledged"
  | finAcked => "stream finished and fully acknowledged"

/-- The source compares the texts; this is as good as comparing the summaries. -/
theorem text_inj {a b : TCPSenderStateSummary} : a.text = b.text ↔ a = b := by
  cases a <;> cases b <;> decide

end TCPSenderStateSummary

namespace TCPSender

/-- `TCPState::state_summary`, of a sender. -/
def stateSummary (s : TCPSender) : TCPSenderStateSummary :=
  if s.stream.error then .error
  else if s.nextSeqnoAbsolute = 0 then .closed
  else if s.nextSeqnoAbsolute = s.bytesInFlight then .synSent
  else if !s.stream.eof then .synAcked
  else if s.nextSeqnoAbsolute < Word.add 64 s.stream.bytesWritten 2 then .synAcked
  else if s.bytesInFlight ≠ 0 then .finSent
  else .finAcked

/-- The stream is over, its length and the numbers of SYN and FIN add up to `2 ^ 64`, and
the SYN has been acknowledged. -/
def EndWraps (s : TCPSender) : Prop :=
  s.stream.eof = true ∧ s.stream.bytesWritten + 2 = 2 ^ 64 ∧ s.nextSeqno ≠ s.bytesInFlight

instance (s : TCPSender) : Decidable s.EndWraps :=
  inferInstanceAs (Decidable (s.stream.eof = true ∧ s.stream.bytesWritten + 2 = 2 ^ 64 ∧
    s.nextSeqno ≠ s.bytesInFlight))

/-! ## The count of written bytes -/

section Written

variable (s : TCPSender)

@[simp] theorem ackReceived_totoalWrite (ackno : WrappingInt32) (windowSize : UInt16) :
    (s.ackReceived ackno windowSize).stream.totoalWrite = s.stream.totoalWrite := by
  refine ackReceived_stream (P := fun stream => stream.totoalWrite = s.stream.totoalWrite)
    ?_ rfl ackno windowSize
  intro t ht
  rw [fillWindow_totoalWrite, ht]

@[simp] theorem tick_totoalWrite (ms : Nat) :
    (s.tick ms).stream.totoalWrite = s.stream.totoalWrite := by
  rcases s.tick_cases ms with ⟨-, heq⟩ | ⟨-, -, heq⟩ | ⟨front, rest, -, -, heq⟩
  all_goals rw [heq]

@[simp] theorem sendEmptyAck_totoalWrite :
    s.sendEmptyAck.stream.totoalWrite = s.stream.totoalWrite := by
  rcases s.sendEmptyAck_cases with ⟨-, heq⟩ | ⟨-, heq⟩
  · rw [heq]
    rfl
  · rw [heq]

theorem respond_totoalWrite (seg : TCPSegment) :
    (TCPConnection.respond s seg).stream.totoalWrite = s.stream.totoalWrite := by
  unfold TCPConnection.respond TCPConnection.takeAck
  split_ifs
  · rw [sendEmptyAck_totoalWrite, ackReceived_totoalWrite]
  · rw [sendEmptyAck_totoalWrite]
  · rw [ackReceived_totoalWrite]
  · rfl

end Written

/-! ## What has been sent and acknowledged -/

section History

variable {s s' : TCPSender} {whole : List Byte} {firsts firsts' pushed : List TCPSegment}
  {n n' : Nat} {fin fin' : Bool} {acks : List Nat}

/-- A flag that empty segments do not carry shows among the segments sent for the first
time exactly when it shows among the segments pushed. -/
theorem Emitted.exists_flag_iff (h : Emitted s s' whole firsts n fin pushed firsts' n' fin')
    {flag : TCPSegment → Bool} (hempty : ∀ m, flag (segment s.isn m [] false false) = false) :
    (∃ seg ∈ firsts', flag seg = true) ↔
      (∃ seg ∈ firsts, flag seg = true) ∨ ∃ seg ∈ pushed, flag seg = true := by
  constructor
  · rintro ⟨seg, hseg, hflag⟩
    cases h.new_pushed seg hseg with
    | inl hold => exact Or.inl ⟨seg, hold, hflag⟩
    | inr hnew => exact Or.inr ⟨seg, hnew, hflag⟩
  · rintro (⟨seg, hseg, hflag⟩ | ⟨seg, hseg, hflag⟩)
    · exact ⟨seg, h.mono seg hseg, hflag⟩
    · rcases h.kinds seg hseg with hcopy | ⟨m, -, -, heq⟩
      · exact ⟨seg, hcopy, hflag⟩
      · rw [heq, hempty m] at hflag
        exact absurd hflag (by simp)

/-- The SYN is among the segments sent as soon as there are any. -/
theorem Sent.syn_iff (h : Sent s whole firsts n fin) :
    (∃ seg ∈ firsts, seg.header.syn = true) ↔ s.nextSeqno ≠ 0 := by
  rw [h.next]
  rcases h.shape with ⟨rfl, -, -⟩ | ⟨rest, rfl, -⟩
  · simp
  · constructor
    · intro _
      rw [span_cons, segment_length]
      simp
    · intro _
      exact ⟨_, List.mem_cons_self, rfl⟩

/-- The accepted acknowledgments `acks`, seen from the sender: they acknowledge what has
been sent and cover nothing that is outstanding, and the acknowledged number comes from
one of them. -/
structure Acknowledged (s : TCPSender) (acks : List Nat) : Prop where
  le_next : ∀ ack ∈ acks, ack ≤ s.nextSeqno
  beyond : ∀ node ∈ s.segBuffer, ∀ ack ∈ acks, ack < node.ackIndex
  reached : s.curAckIndex = 0 ∨ ∃ ack ∈ acks, s.curAckIndex ≤ ack

theorem Acknowledged.grows (h : s.Acknowledged acks) (hgrows : Grows s s') :
    s'.Acknowledged acks where
  le_next := fun ack hack => le_trans (h.le_next ack hack) hgrows.next_le
  beyond := by
    intro node hnode ack hack
    cases hgrows.buffer node hnode with
    | inl hold => exact h.beyond node hold ack hack
    | inr hnew => exact lt_of_le_of_lt (h.le_next ack hack) hnew
  reached := by
    rw [hgrows.curAckIndex]
    exact h.reached

/-- One more acknowledgment is accepted. -/
theorem Acknowledged.ackReceived (h : s.Acknowledged acks) (hsent : Sent s whole firsts n fin)
    (hedge : EdgeInRange s) {ackno : WrappingInt32} {ack : Nat} (windowSize : UInt16)
    (hack : ack = unwrap ackno s.isn s.nextSeqno) (hrej : s.rejects ack = false) :
    (s.ackReceived ackno windowSize).Acknowledged (acks ++ [ack]) := by
  obtain ⟨hcur, hnext, hnodes⟩ := hsent.ackReceived_buffer hedge windowSize hack hrej
  have hbound := (accepts_iff.mp hrej).2
  have hall : ∀ a ∈ acks ++ [ack], a ≤ s.nextSeqno := by
    intro a ha
    cases List.mem_append.mp ha with
    | inl hold => exact h.le_next a hold
    | inr hnew =>
        rw [List.mem_singleton.mp hnew]
        exact hbound
  refine ⟨fun a ha => le_trans (hall a ha) hnext, ?_,
    Or.inr ⟨ack, List.mem_append_right _ (List.mem_singleton_self ack), hcur⟩⟩
  intro node hnode a ha
  rcases hnodes node hnode with ⟨hold, hlt⟩ | hnew
  · cases List.mem_append.mp ha with
    | inl hbefore => exact h.beyond node hold a hbefore
    | inr hlast =>
        rw [List.mem_singleton.mp hlast]
        exact hlt
  · exact lt_of_le_of_lt (hall a ha) hnew

/-- The SYN is acknowledged once an acknowledgment beyond zero has been accepted. -/
theorem Acknowledged.syn_iff (h : s.Acknowledged acks) (hsent : Sent s whole firsts n fin) :
    (∃ ack ∈ acks, 1 ≤ ack) ↔ s.curAckIndex ≠ 0 := by
  constructor
  · rintro ⟨ack, hack, hpos⟩ hzero
    have hnext := h.le_next ack hack
    obtain ⟨done, pending, hsplit, hcur, hbuf⟩ := hsent.outstanding
    rcases hsent.shape with ⟨hnil, -, -⟩ | ⟨rest, hsyn, -⟩
    · rw [hsent.next, hnil, span_nil] at hnext
      omega
    · -- nothing has been acknowledged, so the SYN is the oldest outstanding segment
      cases done with
      | cons first done =>
          rw [hsyn] at hsplit
          obtain ⟨hfirst, -⟩ := List.cons.inj hsplit
          rw [hzero, ← hfirst, span_cons, segment_length] at hcur
          simp only [List.length_nil, if_true, Bool.false_eq_true, if_false] at hcur
          omega
      | nil =>
          rw [List.nil_append, hsyn] at hsplit
          rw [← hsplit, hzero, nodesFrom] at hbuf
          have hlt := h.beyond _ (by rw [hbuf]; exact List.mem_cons_self) ack hack
          simp only [segment_length, List.length_nil, Bool.false_eq_true, if_true, if_false] at hlt
          omega
  · intro hne
    rcases h.reached with hzero | ⟨ack, hack, hle⟩
    · exact absurd hzero hne
    · exact ⟨ack, hack, by omega⟩

/-- Everything is acknowledged once an acknowledgment of the next number has been
accepted. -/
theorem Acknowledged.all_iff (h : s.Acknowledged acks) (hsent : Sent s whole firsts n fin)
    (hsyn : s.nextSeqno ≠ 0) :
    (∃ ack ∈ acks, s.nextSeqno ≤ ack) ↔ s.curAckIndex = s.nextSeqno := by
  obtain ⟨done, pending, hsplit, hcur, hbuf⟩ := hsent.outstanding
  have hnext : s.nextSeqno = s.curAckIndex + span pending := by
    rw [hsent.next, hsplit, span_append, hcur]
  constructor
  · rintro ⟨ack, hack, hle⟩
    cases pending with
    | nil =>
        rw [span_nil] at hnext
        omega
    | cons seg rest =>
        -- an outstanding segment ends at the next number at most
        have hmem : (⟨seg, s.curAckIndex + seg.lengthInSequenceSpace⟩ : SegNode) ∈ s.segBuffer := by
          rw [hbuf, nodesFrom]
          exact List.mem_cons_self
        have hlt : ack < s.curAckIndex + seg.lengthInSequenceSpace := h.beyond _ hmem ack hack
        rw [span_cons] at hnext
        omega
  · intro hall
    rcases h.reached with hzero | ⟨ack, hack, hle⟩
    · rw [hall] at hzero
      exact absurd hzero hsyn
    · exact ⟨ack, hack, by omega⟩

/-- The acknowledgment on an incoming segment. -/
theorem Acknowledged.takeAck (h : s.Acknowledged acks) (hsent : Sent s whole firsts n fin)
    (hedge : EdgeInRange s) (seg : TCPSegment) :
    (TCPConnection.takeAck s seg).Acknowledged
      (acks ++ if !seg.header.ack || s.rejects (unwrap seg.header.ackno s.isn s.nextSeqno) then []
        else [unwrap seg.header.ackno s.isn s.nextSeqno]) := by
  unfold TCPConnection.takeAck
  cases hflag : seg.header.ack with
  | false => simpa using h
  | true =>
      rw [if_pos rfl]
      cases hrej : s.rejects (unwrap seg.header.ackno s.isn s.nextSeqno) with
      | true =>
          rw [ackReceived_of_rejects seg.header.win hrej]
          simpa using h
      | false => exact h.ackReceived hsent hedge seg.header.win rfl hrej

/-- The answer to it adds nothing that has been acknowledged. -/
theorem Sent.acknowledged_respond (hsent : Sent s whole firsts n fin) (hedge : EdgeInRange s)
    {seg : TCPSegment} (h : (TCPConnection.takeAck s seg).Acknowledged acks) :
    (TCPConnection.respond s seg).Acknowledged acks := by
  obtain ⟨pushed, firsts', n', fin', hemit⟩ := hsent.takeAck_emitted hedge seg
  unfold TCPConnection.respond
  split_ifs
  · exact h.grows hemit.sent.grows_sendEmptyAck
  · exact h

end History
end TCPSender

/-! ## The history of a run -/

namespace Endpoint

open TCPSender

/-- A SYN has been sent. -/
def SynSent (e : Endpoint) : Prop :=
  ∃ seg ∈ e.connection.segmentsOut, seg.header.syn = true

/-- The SYN has been sent, and an acknowledgment that covers it has been accepted. -/
def SynAcked (e : Endpoint) : Prop :=
  e.SynSent ∧ ∃ ack ∈ e.acks, 1 ≤ ack

/-- A FIN has been sent. -/
def FinSent (e : Endpoint) : Prop :=
  ∃ seg ∈ e.connection.segmentsOut, seg.header.fin = true

/-- The FIN has been sent, and an acknowledgment that covers it, the last number after
the SYN and the stream, has been accepted. -/
def FinAcked (e : Endpoint) : Prop :=
  e.FinSent ∧ ∃ ack ∈ e.acks, e.accepted.length + 2 ≤ ack

instance (e : Endpoint) : Decidable e.SynSent :=
  inferInstanceAs (Decidable (∃ seg ∈ e.connection.segmentsOut, seg.header.syn = true))

instance (e : Endpoint) : Decidable e.SynAcked :=
  inferInstanceAs (Decidable (_ ∧ _))

instance (e : Endpoint) : Decidable e.FinSent :=
  inferInstanceAs (Decidable (∃ seg ∈ e.connection.segmentsOut, seg.header.fin = true))

instance (e : Endpoint) : Decidable e.FinAcked :=
  inferInstanceAs (Decidable (_ ∧ _))

/-- The summary of the sender says what has happened. -/
structure Truthful (e : Endpoint) : Prop where
  closed : e.connection.sender.stateSummary = .closed ↔ ¬e.SynSent
  synSent : e.connection.sender.stateSummary = .synSent ↔ e.SynSent ∧ ¬e.SynAcked
  synAcked : e.connection.sender.stateSummary = .synAcked ↔ e.SynAcked ∧ ¬e.FinSent
  finSent : e.connection.sender.stateSummary = .finSent ↔ e.SynAcked ∧ e.FinSent ∧ ¬e.FinAcked
  finAcked : e.connection.sender.stateSummary = .finAcked ↔ e.FinAcked

/-- The invariant that ties the counters of the sender to the history. -/
structure Recorded (e : Endpoint) (firsts : List TCPSegment) (n : Nat) (fin : Bool) : Prop where
  sends : e.Sends firsts n fin
  syn : e.SynSent ↔ ∃ seg ∈ firsts, seg.header.syn = true
  fin : e.FinSent ↔ ∃ seg ∈ firsts, seg.header.fin = true
  written : e.connection.sender.stream.totoalWrite = e.accepted.length % 2 ^ 64
  acked : e.connection.sender.Acknowledged e.acks

theorem recorded_start (cfg : TCPConfig) : (start cfg).Recorded [] 0 false where
  sends := sends_start cfg
  syn := by simp [SynSent, start, TCPConnection.new]
  fin := by simp [FinSent, start, TCPConnection.new]
  written := rfl
  acked :=
    { le_next := by simp [start]
      beyond := by simp [start]
      reached := Or.inl rfl }

section Recorded

variable {e : Endpoint} {op : ConnectionOp} {firsts : List TCPSegment} {n : Nat} {fin : Bool}

/-- The stamp does not touch the flags of the sender, so that they show in the log. -/
theorem Runs.exists_flag_iff (h : Runs e op) {flag : TCPSegment → Bool}
    (hstamp : ∀ r seg, flag (TCPConnection.stamp r seg) = flag seg) :
    (∃ seg ∈ (e.step op).connection.segmentsOut, flag seg = true) ↔
      (∃ seg ∈ e.connection.segmentsOut, flag seg = true) ∨
        ∃ seg ∈ (e.driven op).segmentsOut, flag seg = true := by
  rw [h.segmentsOut]
  simp only [List.mem_append, List.mem_map, or_and_right, exists_or]
  refine or_congr_right ?_
  constructor
  · rintro ⟨seg, ⟨orig, horig, rfl⟩, hflag⟩
    rw [hstamp] at hflag
    exact ⟨orig, horig, hflag⟩
  · rintro ⟨orig, horig, hflag⟩
    exact ⟨_, ⟨orig, horig, rfl⟩, by rw [hstamp]; exact hflag⟩

/-- An unclean shutdown emits a RST at most. -/
theorem Shuts.exists_flag_iff (h : Shuts e op) {flag : TCPSegment → Bool}
    (hrst : ∀ c : TCPConnection, flag c.rstSegment = false) :
    (∃ seg ∈ (e.step op).connection.segmentsOut, flag seg = true) ↔
      ∃ seg ∈ e.connection.segmentsOut, flag seg = true := by
  have hnone : ¬∃ seg ∈ e.rstOut op, flag seg = true := by
    cases op with
    | tick ms => simp [rstOut, hrst]
    | receive seg => simp [rstOut]
    | connect => simp [rstOut]
    | write data => simp [rstOut]
    | endInputStream => simp [rstOut]
    | read len => simp [rstOut]
  rw [h.segmentsOut]
  simp only [List.mem_append, or_and_right, exists_or]
  exact or_iff_left hnone

/-- The count of written bytes follows the accepted ones. -/
theorem driven_totoalWrite (e : Endpoint) (op : ConnectionOp) :
    (e.driven op).stream.totoalWrite = (e.prepared op).stream.totoalWrite := by
  cases op with
  | connect => exact fillWindow_totoalWrite _
  | write data => exact fillWindow_totoalWrite _
  | endInputStream => exact fillWindow_totoalWrite _
  | tick ms => exact tick_totoalWrite _ ms
  | read len => rfl
  | receive seg => exact respond_totoalWrite _ seg

theorem prepared_totoalWrite
    (h : e.connection.sender.stream.totoalWrite = e.accepted.length % 2 ^ 64) :
    (e.prepared op).stream.totoalWrite = (e.step op).accepted.length % 2 ^ 64 := by
  cases op with
  | write data =>
      show (e.connection.sender.stream.write data).1.totoalWrite =
        (e.accepted ++ e.connection.sender.stream.accepted data).length % 2 ^ 64
      rw [ByteStream.write_totoalWrite, h, Word.add_mod_left, List.length_append]
  | connect => exact h
  | endInputStream => exact h
  | tick ms => exact h
  | read len => exact h
  | receive seg => exact h

theorem Recorded.driven_acknowledged (h : e.Recorded firsts n fin) (hop : e.WritesBeforeEnd op)
    (hdown : e.shutsDown op = false) : (e.driven op).Acknowledged (e.step op).acks := by
  have hprep := h.sends.prepared hop
  have hready : (e.prepared op).Acknowledged e.acks :=
    h.acked.grows (grows_of_same (prepared_curAckIndex e op) (prepared_nextSeqno e op)
      (prepared_segBuffer e op))
  have hfill := hready.grows (hprep.sent.grows_fillWindow hprep.edge)
  cases op with
  | connect => exact hfill
  | write data => exact hfill
  | endInputStream => exact hfill
  | tick ms => exact h.acked.grows (grows_tick _ ms)
  | read len => exact h.acked
  | receive seg =>
      have hrst : seg.header.rst = false := hdown
      have htaken := h.acked.takeAck h.sends.sent h.sends.edge seg
      have hacks : e.newAcks seg = if !seg.header.ack || e.connection.sender.rejects
          (unwrap seg.header.ackno e.connection.sender.isn e.connection.sender.nextSeqno) then []
          else [unwrap seg.header.ackno e.connection.sender.isn e.connection.sender.nextSeqno] := by
        rw [newAcks, hrst, Bool.false_or]
      rw [← hacks] at htaken
      exact h.sends.sent.acknowledged_respond h.sends.edge htaken

/-- An unclean shutdown leaves the counters and the history as they are. -/
theorem Recorded.shut (h : e.Recorded firsts n fin) (hdown : e.shutsDown op = true) :
    (e.step op).Recorded firsts n fin := by
  have hshuts := shuts_of_shutsDown hdown
  have hsame : (e.step op).accepted = e.accepted ∧ (e.step op).ended = e.ended ∧
      (e.step op).acks = e.acks := by
    rcases shutsDown_cases hdown with ⟨ms, rfl, -⟩ | ⟨seg, rfl, hrst⟩
    · exact ⟨rfl, rfl, rfl⟩
    · refine ⟨rfl, rfl, ?_⟩
      show e.acks ++ e.newAcks seg = e.acks
      simp [newAcks, hrst]
  exact {
    sends := by
      unfold Sends
      rw [hshuts.sender, hshuts.segmentsOut, hsame.1, hsame.2.1]
      exact Outbound.setError h.sends fun seg hseg => (mem_rstOut hseg).1
    syn := (hshuts.exists_flag_iff fun _ => rfl).trans h.syn
    fin := (hshuts.exists_flag_iff fun _ => rfl).trans h.fin
    written := by
      rw [hshuts.sender, hsame.1]
      exact h.written
    acked := by
      rw [hshuts.sender, hsame.2.2]
      exact ⟨h.acked.le_next, h.acked.beyond, h.acked.reached⟩ }

theorem Recorded.step (h : e.Recorded firsts n fin) (hop : e.WritesBeforeEnd op) :
    ∃ firsts' n' fin', (e.step op).Recorded firsts' n' fin' := by
  cases hdown : e.shutsDown op with
  | true => exact ⟨firsts, n, fin, h.shut hdown⟩
  | false =>
      have hruns := runs_of_not_shutsDown h.sends.drained hdown
      have hprep := h.sends.prepared hop
      have hacked := h.driven_acknowledged hop hdown
      obtain ⟨pushed, firsts', n', fin', hemit⟩ := h.sends.driven hop
      have hpushed : (e.driven op).segmentsOut = pushed := by
        rw [hemit.segmentsOut, hprep.drained, List.nil_append]
      refine ⟨firsts', n', fin', ?_, ?_, ?_, ?_, ?_⟩
      · unfold Sends
        rw [hruns.sender, hruns.segmentsOut]
        exact hprep.emit hemit (e.inbound op)
      · refine (hruns.exists_flag_iff TCPConnection.stamp_syn).trans ?_
        rw [hpushed, hemit.exists_flag_iff fun _ => rfl]
        exact or_congr_left h.syn
      · refine (hruns.exists_flag_iff TCPConnection.stamp_fin).trans ?_
        rw [hpushed, hemit.exists_flag_iff fun _ => rfl]
        exact or_congr_left h.fin
      · rw [hruns.sender]
        show (e.driven op).stream.totoalWrite = _
        rw [driven_totoalWrite, prepared_totoalWrite h.written]
      · rw [hruns.sender]
        exact ⟨hacked.le_next, hacked.beyond, hacked.reached⟩

/-! ## The history in terms of the counters -/

theorem Recorded.synSent_iff (h : e.Recorded firsts n fin) :
    e.SynSent ↔ e.connection.sender.nextSeqno ≠ 0 :=
  h.syn.trans h.sends.sent.syn_iff

theorem Recorded.synAcked_iff (h : e.Recorded firsts n fin) :
    e.SynAcked ↔ e.connection.sender.curAckIndex ≠ 0 := by
  have hcur := h.sends.sent.cur_le
  rw [SynAcked, h.synSent_iff, h.acked.syn_iff h.sends.sent]
  constructor
  · intro hboth
    exact hboth.2
  · intro hne
    exact ⟨by omega, hne⟩

theorem Recorded.finSent_iff (h : e.Recorded firsts n fin) : e.FinSent ↔ fin = true :=
  h.fin.trans h.sends.sent.shape.fin_iff.symm

/-- With the FIN sent, the next number is the one after it. -/
theorem Recorded.next_of_fin (h : e.Recorded firsts n true) :
    e.connection.sender.nextSeqno = e.accepted.length + 2 := by
  have hnext := h.sends.sent.next_eq (h.sends.sent.next_ne_zero rfl)
  rw [(h.sends.fin_last rfl).2, if_pos rfl] at hnext
  omega

theorem Recorded.finAcked_iff (h : e.Recorded firsts n fin) :
    e.FinAcked ↔
      fin = true ∧ e.connection.sender.curAckIndex = e.connection.sender.nextSeqno := by
  rw [FinAcked, h.finSent_iff]
  refine and_congr_right fun hfin => ?_
  subst hfin
  rw [← h.next_of_fin]
  exact h.acked.all_iff h.sends.sent (h.sends.sent.next_ne_zero rfl)

/-! ## The summary in terms of the counters -/

/-- Of a stream that is over everything has been sent, and its length is counted without
wrapping. -/
theorem Recorded.of_eof (h : e.Recorded firsts n fin)
    (hsyn : e.connection.sender.nextSeqno ≠ 0) (heof : e.connection.sender.stream.eof = true) :
    e.connection.sender.stream.bytesWritten = e.accepted.length ∧
      e.connection.sender.nextSeqno = 1 + e.accepted.length + (if fin then 1 else 0) := by
  have hnext := h.sends.sent.next_eq hsyn
  have hlt := h.sends.sent.next_lt
  rw [(h.sends.sent.eof_iff.mp heof).2] at hnext
  refine ⟨?_, hnext⟩
  rw [ByteStream.bytesWritten, h.written]
  exact Nat.mod_eq_of_lt (by omega)

/-- Once the SYN has been acknowledged, the summary looks at the end of the stream. -/
theorem Recorded.stateSummary_of_synAcked (h : e.Recorded firsts n fin)
    (herror : e.connection.sender.stream.error = false)
    (hacked : e.connection.sender.curAckIndex ≠ 0) :
    e.connection.sender.stateSummary =
      if e.connection.sender.stream.eof = true ∧
          Word.add 64 e.connection.sender.stream.bytesWritten 2 ≤ e.connection.sender.nextSeqno then
        if e.connection.sender.curAckIndex = e.connection.sender.nextSeqno then .finAcked
        else .finSent
      else .synAcked := by
  have hcur := h.sends.sent.cur_le
  have hflight := h.sends.sent.inFlight
  have hsyn : e.connection.sender.nextSeqno ≠ 0 := by omega
  have hpart : e.connection.sender.nextSeqno ≠ e.connection.sender.bytesInFlight := by omega
  unfold TCPSender.stateSummary TCPSender.nextSeqnoAbsolute
  rw [herror, if_neg (by simp), if_neg hsyn, if_neg hpart]
  cases heof : e.connection.sender.stream.eof with
  | false => simp
  | true =>
      generalize Word.add 64 e.connection.sender.stream.bytesWritten 2 = total
      rw [if_neg (by simp)]
      by_cases hlt : e.connection.sender.nextSeqno < total
      · rw [if_pos hlt, if_neg fun hboth => absurd hboth.2 (by omega)]
      · rw [if_neg hlt, if_pos (show true = true ∧ _ from ⟨rfl, by omega⟩)]
        by_cases hall : e.connection.sender.curAckIndex = e.connection.sender.nextSeqno
        · have hnone : e.connection.sender.bytesInFlight = 0 := by omega
          rw [if_pos hall, if_neg (fun hne => hne hnone)]
        · have hsome : e.connection.sender.bytesInFlight ≠ 0 := by omega
          rw [if_neg hall, if_pos hsome]

/-- A sum that wraps to zero passes for the number after a FIN. -/
theorem Recorded.stateSummary_of_wrap (h : e.Recorded firsts n fin)
    (herror : e.connection.sender.stream.error = false)
    (hacked : e.connection.sender.curAckIndex ≠ 0)
    (heof : e.connection.sender.stream.eof = true) (hwrap : e.accepted.length + 2 = 2 ^ 64) :
    e.connection.sender.stateSummary =
      if e.connection.sender.curAckIndex = e.connection.sender.nextSeqno then .finAcked
      else .finSent := by
  have hcur := h.sends.sent.cur_le
  obtain ⟨hwritten, -⟩ := h.of_eof (by omega) heof
  rw [h.stateSummary_of_synAcked herror hacked, hwritten, Word.add_of_eq hwrap,
    if_pos ⟨heof, Nat.zero_le _⟩]

/-- Before the SYN is acknowledged: no SYN has been sent, or everything is in flight. -/
theorem Recorded.truthful_of_not_synAcked (h : e.Recorded firsts n fin)
    (herror : e.connection.sender.stream.error = false)
    (hzero : e.connection.sender.curAckIndex = 0) : e.Truthful := by
  have hflight := h.sends.sent.inFlight
  rw [hzero, Nat.sub_zero] at hflight
  have hsummary : e.connection.sender.stateSummary =
      if e.connection.sender.nextSeqno = 0 then .closed else .synSent := by
    unfold TCPSender.stateSummary TCPSender.nextSeqnoAbsolute
    rw [herror, if_neg (by simp), if_pos hflight.symm]
  by_cases hnext : e.connection.sender.nextSeqno = 0
  · rw [if_pos hnext] at hsummary
    have hfin : fin ≠ true := fun hfin => h.sends.sent.next_ne_zero hfin hnext
    constructor <;>
      simp [hsummary, h.synSent_iff, h.synAcked_iff, h.finAcked_iff, hnext, hzero, hfin]
  · rw [if_neg hnext] at hsummary
    constructor <;>
      simp [hsummary, h.synSent_iff, h.synAcked_iff, h.finAcked_iff, hnext, hzero, Ne.symm hnext]

/-- With the FIN sent, the stream is over and the length and two are the next number. -/
theorem Recorded.truthful_of_fin (h : e.Recorded firsts n true)
    (herror : e.connection.sender.stream.error = false)
    (hacked : e.connection.sender.curAckIndex ≠ 0) : e.Truthful := by
  have hnext := h.next_of_fin
  have hlt := h.sends.sent.next_lt
  have hsyn := h.sends.sent.next_ne_zero rfl
  obtain ⟨hended, hall⟩ := h.sends.fin_last rfl
  have heof : e.connection.sender.stream.eof = true :=
    h.sends.sent.eof_iff.mpr ⟨h.sends.ended_eq.trans hended, hall⟩
  obtain ⟨hwritten, -⟩ := h.of_eof hsyn heof
  have hsummary := h.stateSummary_of_synAcked herror hacked
  rw [hwritten, Word.add_of_lt (by omega), if_pos ⟨heof, hnext.ge⟩] at hsummary
  by_cases hdone : e.connection.sender.curAckIndex = e.connection.sender.nextSeqno
  · rw [if_pos hdone] at hsummary
    constructor <;>
      simp [hsummary, h.synSent_iff, h.synAcked_iff, h.finSent_iff, h.finAcked_iff, hsyn, hdone]
  · rw [if_neg hdone] at hsummary
    constructor <;>
      simp [hsummary, h.synSent_iff, h.synAcked_iff, h.finSent_iff, h.finAcked_iff, hsyn, hacked,
        hdone]

/-- Between the acknowledgment of the SYN and the FIN the stream is ongoing, and the
summary says so unless the sum wraps to zero. -/
theorem Recorded.truthful_iff_of_open (h : e.Recorded firsts n false)
    (herror : e.connection.sender.stream.error = false)
    (hacked : e.connection.sender.curAckIndex ≠ 0) :
    e.Truthful ↔ ¬e.connection.sender.EndWraps := by
  have hcur := h.sends.sent.cur_le
  have hlt := h.sends.sent.next_lt
  have hflight := h.sends.sent.inFlight
  have hsyn : e.connection.sender.nextSeqno ≠ 0 := by omega
  have hongoing : e.Truthful ↔ e.connection.sender.stateSummary = .synAcked := by
    constructor
    · intro htrue
      exact htrue.synAcked.mpr ⟨h.synAcked_iff.mpr hacked, by simp [h.finSent_iff]⟩
    · intro hsame
      constructor <;>
        simp [hsame, h.synSent_iff, h.synAcked_iff, h.finSent_iff, h.finAcked_iff, hsyn, hacked]
  rw [hongoing]
  by_cases heof : e.connection.sender.stream.eof = true
  · obtain ⟨hwritten, hnext⟩ := h.of_eof hsyn heof
    simp only [Bool.false_eq_true, if_false, Nat.add_zero] at hnext
    by_cases hfits : e.accepted.length + 2 < 2 ^ 64
    · rw [h.stateSummary_of_synAcked herror hacked, hwritten, Word.add_of_lt hfits,
        if_neg fun hboth => absurd hboth.2 (by omega)]
      refine iff_of_true rfl ?_
      rintro ⟨-, hwrap, -⟩
      omega
    · have hwrap : e.accepted.length + 2 = 2 ^ 64 := by omega
      rw [h.stateSummary_of_wrap herror hacked heof hwrap]
      refine iff_of_false ?_ (not_not_intro ⟨heof, by omega, by omega⟩)
      split_ifs <;> simp
  · rw [h.stateSummary_of_synAcked herror hacked, if_neg fun hboth => heof hboth.1]
    exact iff_of_true rfl fun hwraps => heof hwraps.1

theorem Recorded.truthful_iff (h : e.Recorded firsts n fin)
    (herror : e.connection.sender.stream.error = false) :
    e.Truthful ↔ ¬e.connection.sender.EndWraps := by
  by_cases hacked : e.connection.sender.curAckIndex = 0
  · have hflight := h.sends.sent.inFlight
    rw [hacked, Nat.sub_zero] at hflight
    exact iff_of_true (h.truthful_of_not_synAcked herror hacked)
      fun hwraps => hwraps.2.2 hflight.symm
  · cases fin with
    | false => exact h.truthful_iff_of_open herror hacked
    | true =>
        refine iff_of_true (h.truthful_of_fin herror hacked) ?_
        rintro ⟨heof, hwrap, -⟩
        have hnext := h.next_of_fin
        have hlt := h.sends.sent.next_lt
        rw [(h.of_eof (h.sends.sent.next_ne_zero rfl) heof).1] at hwrap
        omega

theorem recorded_of_reach {cfg : TCPConfig} (hr : Run.Reach step WritesBeforeEnd (start cfg) e) :
    ∃ firsts n fin, e.Recorded firsts n fin := by
  refine Run.Reach.invariant (P := fun e => ∃ firsts n fin, e.Recorded firsts n fin) hr
    ⟨[], 0, false, recorded_start cfg⟩ ?_
  rintro e op hop ⟨firsts, n, fin, h⟩
  exact h.step hop

end Recorded
end Endpoint

/-- **The state summary tells the truth** in every reachable state without stream error,
except where the stream is over after `2 ^ 64 - 2` bytes. -/
theorem state_summary_truthful_iff {cfg : TCPConfig} {e : Endpoint}
    (hr : Run.Reach Endpoint.step Endpoint.WritesBeforeEnd (Endpoint.start cfg) e)
    (herror : e.connection.sender.stream.error = false) :
    e.Truthful ↔ ¬e.connection.sender.EndWraps := by
  obtain ⟨firsts, n, fin, h⟩ := Endpoint.recorded_of_reach hr
  exact h.truthful_iff herror

/-- A connection whose SYN is acknowledged, which sends one byte and its FIN, and whose
byte alone is acknowledged. -/
def partlyAcked : List ConnectionOp :=
  [.connect, .receive { header := { ack := true, ackno := ⟨8⟩, win := 10 } }, .write [65],
    .endInputStream, .receive { header := { ack := true, ackno := ⟨9⟩, win := 10 } }]

theorem state_summary_truthful_partlyAcked :
    (Run.exec Endpoint.step (Endpoint.start { isn := ⟨7⟩ })
        partlyAcked).connection.sender.stateSummary = .finSent ∧
      (Run.exec Endpoint.step (Endpoint.start { isn := ⟨7⟩ }) partlyAcked).Truthful :=
  ⟨by decide +kernel,
    (state_summary_truthful_iff (.exec .start (by decide +kernel)) (by decide +kernel)).mpr
      (by decide +kernel)⟩

/-! ## A stream that ends two numbers before the wrap -/

namespace Endpoint

open TCPSender

section Wrap

variable {e : Endpoint} {op : ConnectionOp} {firsts : List TCPSegment} {n k next cur edge : Nat}
  {fin : Bool}

/-- Only an unclean shutdown marks the stream. -/
theorem Sends.step_error (h : e.Sends firsts n fin) (hop : e.WritesBeforeEnd op)
    (hdown : e.shutsDown op = false) :
    (e.step op).connection.sender.stream.error = e.connection.sender.stream.error := by
  obtain ⟨pushed, firsts', n', fin', hemit⟩ := h.driven hop
  rw [(runs_of_not_shutsDown h.drained hdown).sender, ← prepared_error e op]
  exact hemit.error

/-- One byte at a time, without an unclean shutdown. -/
theorem exists_lockstep_without_error (hk : k + 2 < 2 ^ 64) :
    ∃ e : Endpoint, e.Lockstep k ∧ e.connection.sender.stream.error = false := by
  induction k with
  | zero => exact ⟨_, lockstep_zero, by decide +kernel⟩
  | succ k ih =>
      obtain ⟨e, hlock, herror⟩ := ih (by omega)
      obtain ⟨firsts, n, hsends⟩ := hlock.sends
      have hwrite : e.WritesBeforeEnd (.write [0]) := hlock.ended
      have hacks : (e.step (.write [0])).WritesBeforeEnd ((e.step (.write [0])).ackAll 1) := trivial
      obtain ⟨firsts', n', fin', hsends'⟩ := hsends.step hwrite
      refine ⟨_, hlock.advance (by omega), ?_⟩
      rw [hsends'.step_error hacks rfl, hsends.step_error hwrite rfl]
      exact herror

/-- With the last number reached, `fill_window` takes the FIN for sent: ending the stream
only marks its end. -/
theorem Numbers.endInputStream (h : e.Numbers k next cur edge)
    (hlast : next = 18446744073709551615) :
    (e.step .endInputStream).connection.sender =
      { e.connection.sender with
        segmentsOut := [], stream := e.connection.sender.stream.endInput } := by
  obtain ⟨firsts, n, hsends⟩ := h.sends
  have hdone : (e.prepared .endInputStream).nextSeqno =
      (e.prepared .endInputStream).finAckIndex := by
    show e.connection.sender.nextSeqno = e.connection.sender.finAckIndex
    rw [hsends.sent.finIndex, h.next, hlast]
    rfl
  rw [(runs_of_not_shutsDown hsends.drained rfl).sender, driven, fillWindow_done hdone]
  rfl

end Wrap
end Endpoint

/-- After `2 ^ 64 - 2` bytes the last number is reached without a FIN; once the stream is
ended, the summary takes the FIN for sent. -/
theorem fin_reported_without_fin : ∃ e,
    Run.Reach Endpoint.step Endpoint.WritesBeforeEnd (Endpoint.start { isn := ⟨0⟩ }) e ∧
      e.connection.sender.stream.error = false ∧ e.connection.sender.stateSummary = .finSent ∧
      ¬e.FinSent ∧ ¬e.Truthful := by
  obtain ⟨k, hk⟩ : ∃ k, k + 3 = 2 ^ 64 := ⟨2 ^ 64 - 3, by norm_num⟩
  obtain ⟨e₀, hlock, herror₀⟩ :=
    Endpoint.exists_lockstep_without_error (show k + 2 < 2 ^ 64 by omega)
  -- one byte more, which is sent and not acknowledged
  have hwrite : (e₀.step (.write [0])).Numbers (k + 1) (k + 2) (k + 1) (k + 2) := by
    have hsent := Endpoint.Numbers.write hlock [0] (by omega) (by omega) (by simp)
    rw [List.length_singleton, min_eq_left (le_max_right _ _)] at hsent
    exact hsent
  have herror : (e₀.step (.write [0])).connection.sender.stream.error = false := by
    obtain ⟨firsts, n, hsends⟩ := hlock.sends
    rw [hsends.step_error (show e₀.WritesBeforeEnd (.write [0]) from hlock.ended) rfl]
    exact herror₀
  generalize e₀.step (.write [0]) = e at hwrite herror
  have hsender := hwrite.endInputStream (by omega)
  have hreach : Run.Reach Endpoint.step Endpoint.WritesBeforeEnd (Endpoint.start { isn := ⟨0⟩ })
      (e.step .endInputStream) := .next _ hwrite.reach trivial
  have hnext : (e.step .endInputStream).connection.sender.nextSeqno = k + 2 := by
    rw [hsender]
    exact hwrite.next
  have hcur : (e.step .endInputStream).connection.sender.curAckIndex = k + 1 := by
    rw [hsender]
    exact hwrite.cur
  have hclean : (e.step .endInputStream).connection.sender.stream.error = false := by
    rw [hsender]
    exact herror
  have hlength : (e.step .endInputStream).accepted.length = k + 1 := hwrite.written
  obtain ⟨firsts, n, fin, h⟩ := Endpoint.recorded_of_reach hreach
  cases fin with
  | true =>
      have hfin := h.next_of_fin
      omega
  | false =>
      have hcarried := h.sends.sent.next_eq (by omega)
      simp only [Bool.false_eq_true, if_false, Nat.add_zero] at hcarried
      have heof : (e.step .endInputStream).connection.sender.stream.eof = true :=
        h.sends.sent.eof_iff.mpr ⟨h.sends.ended_eq, by omega⟩
      have hsummary : (e.step .endInputStream).connection.sender.stateSummary = .finSent := by
        rw [h.stateSummary_of_wrap hclean (by omega) heof (by omega), if_neg (by omega)]
      have hnone : ¬(e.step .endInputStream).FinSent := by simp [h.finSent_iff]
      exact ⟨_, hreach, hclean, hsummary, hnone,
        fun htrue => hnone (htrue.finSent.mp hsummary).2.1⟩

end Sponge

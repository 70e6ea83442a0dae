import Sponge.Connection.Dead
import Sponge.Sender.RetransmissionTimer

/-!
# When a connection gives up

`tick` resets the connection once the sender has counted `MAX_RETX_ATTEMPTS`
retransmissions, and asks before the sender's own timer has run.  `Watch` observes a
connection from outside: how often the oldest outstanding segment has been sent again,
how long ago that was the last time, and whether new data has been acknowledged since.
-/

namespace Sponge

/-- `tick` takes `c` to `c'` by an unclean shutdown. -/
structure TCPConnection.Resets (c c' : TCPConnection) : Prop where
  rst : c'.segmentsOut = c.segmentsOut ++ [c.rstSegment]
  inbound : c'.receiver.streamOut.error = true
  outbound : c'.sender.stream.error = true
  inactive : c'.active = false

/-- A connection, and what can be seen of its retransmissions. -/
structure Watch where
  endpoint : Endpoint
  /-- how often the oldest outstanding segment has been sent again -/
  attempts : Nat := 0
  /-- the milliseconds since the last time -/
  sinceLast : Nat := 0
  /-- new data has been acknowledged since the last time -/
  heard : Bool := false
deriving DecidableEq, Repr

namespace Watch

def start (cfg : TCPConfig) : Watch where
  endpoint := Endpoint.start cfg

/-- A segment brings an acknowledgment beyond all earlier ones. -/
def newData (e : Endpoint) (seg : TCPSegment) : Bool :=
  (e.newAcks seg).any fun ack => decide (e.acks.foldl max 0 < ack)

/-- A segment brings an acknowledgment that covers the oldest outstanding segment. -/
def completes (e : Endpoint) (seg : TCPSegment) : Bool :=
  (e.newAcks seg).any fun ack =>
    e.connection.sender.segBuffer.head?.any fun node => decide (node.ackIndex ≤ ack)

/-- A tick sends the oldest outstanding segment again. -/
def retransmits (e : Endpoint) (ms : Nat) : Bool :=
  e.connection.sender.segBuffer.head?.any fun node =>
    decide ((e.step (.tick ms)).connection.segmentsOut =
      e.connection.segmentsOut ++ [TCPConnection.stamp e.connection.receiver node.seg])

def step (w : Watch) (op : ConnectionOp) : Watch :=
  let w' := { w with endpoint := w.endpoint.step op }
  match op with
  | .tick ms =>
      if retransmits w.endpoint ms then
        { w' with attempts := w.attempts + 1, sinceLast := 0, heard := false }
      else { w' with sinceLast := w.sinceLast + ms }
  | .receive seg =>
      { w' with
        attempts := if completes w.endpoint seg then 0 else w.attempts
        heard := w.heard || newData w.endpoint seg }
  | _ => w'

/-- The connection may give up within `ms`: the oldest outstanding segment has been sent
again the maximal number of times, and the timeout has passed since the last time, with
no new data acknowledged. -/
def MayGiveUp (w : Watch) (ms : Nat) : Prop :=
  w.endpoint.connection.sender.segBuffer ≠ [] ∧ TCPConfig.maxRetxAttempts ≤ w.attempts ∧
    w.endpoint.connection.sender.rto ≤ w.sinceLast + ms ∧ w.heard = false

instance (w : Watch) (ms : Nat) : Decidable (w.MayGiveUp ms) :=
  inferInstanceAs (Decidable (_ ∧ _ ∧ _ ∧ _))

/-- The connection gives up at a tick only if it may. -/
def GivesUpLate (w : Watch) (ms : Nat) : Prop :=
  w.endpoint.connection.Resets (w.endpoint.connection.tick ms) → w.MayGiveUp ms

/-- If the sender has counted the maximal number of retransmissions, the timeout has
passed since the last one and no new data has been acknowledged. -/
def Patient (w : Watch) (ms : Nat) : Prop :=
  w.endpoint.connection.sender.consecutiveRetransmissions < TCPConfig.maxRetxAttempts ∨
    (w.endpoint.connection.sender.rto ≤ w.sinceLast + ms ∧ w.heard = false)

instance (w : Watch) (ms : Nat) : Decidable (w.Patient ms) :=
  inferInstanceAs (Decidable (_ ∨ _))

/-- No time has passed since the sender counted the maximal number. -/
def NoTimeLeft (w : Watch) : Prop :=
  w.endpoint.connection.active = true →
    TCPConfig.maxRetxAttempts ≤ w.endpoint.connection.sender.consecutiveRetransmissions →
      w.sinceLast = 0

end Watch

/-! ## The count of the sender -/

namespace TCPSender

/-- `s'` has the count of `s` and its outstanding segments, perhaps with more, or a count
of zero; and it has no RST among its segments. -/
structure Counts (s s' : TCPSender) : Prop where
  count : (s'.retransNum = s.retransNum ∧ s.segBuffer <+: s'.segBuffer) ∨ s'.retransNum = 0
  rst : (∀ node ∈ s.segBuffer, node.seg.header.rst = false) →
    ∀ node ∈ s'.segBuffer, node.seg.header.rst = false

variable {s s' s'' : TCPSender}

theorem Counts.refl (s : TCPSender) : Counts s s :=
  ⟨Or.inl ⟨rfl, List.prefix_rfl⟩, id⟩

theorem Counts.trans (h : Counts s s') (h' : Counts s' s'') : Counts s s'' where
  count := by
    rcases h'.count with ⟨hnum', hbuf'⟩ | hzero
    · rcases h.count with ⟨hnum, hbuf⟩ | hzero
      · exact Or.inl ⟨hnum'.trans hnum, hbuf.trans hbuf'⟩
      · exact Or.inr (hnum'.trans hzero)
    · exact Or.inr hzero
  rst := fun hold => h'.rst (h.rst hold)

theorem Sends.counts {new : List TCPSegment} (h : Sends s s' new) : Counts s s' := by
  obtain ⟨nodes, hbuf, hnodes⟩ := h.segBuffer
  refine ⟨Or.inl ⟨h.retransNum, nodes, hbuf.symm⟩, ?_⟩
  intro hold node hnode
  rw [hbuf] at hnode
  cases List.mem_append.mp hnode with
  | inl hmem => exact hold node hmem
  | inr hmem => exact h.rst node.seg (by rw [← hnodes]; exact List.mem_map_of_mem hmem)

theorem sendEmptyAck_counts (s : TCPSender) :
    Counts s s.sendEmptyAck ∧ s.sendEmptyAck.retransNum = s.retransNum := by
  rcases s.sendEmptyAck_cases with ⟨-, heq⟩ | ⟨-, heq⟩
  · have hsends := Sends.sendNewSeg s s.synSeg rfl
    rw [heq]
    exact ⟨hsends.counts, hsends.retransNum⟩
  · rw [heq]
    exact ⟨⟨Or.inl ⟨rfl, List.prefix_rfl⟩, id⟩, rfl⟩

/-- The acknowledgment loop drops the count to zero, or leaves it and the buffer. -/
theorem acknowledge_counts (s : TCPSender) (ack : Nat) :
    Counts s (s.acknowledge ack) ∧
      (s.segBuffer.head?.any (fun node => decide (node.ackIndex ≤ ack)) = true →
        (s.acknowledge ack).retransNum = 0) := by
  have hrst : (∀ node ∈ s.segBuffer, node.seg.header.rst = false) →
      ∀ node ∈ (s.acknowledge ack).segBuffer, node.seg.header.rst = false := by
    intro hold node hnode
    rw [acknowledge_segBuffer, (popAcked_eq _ _ _ _).1] at hnode
    exact hold node ((List.dropWhile_sublist _).mem hnode)
  rcases s.acknowledge_timer ack with ⟨hany, hbuf, -, hcount, -⟩ | ⟨-, -, hcount, -⟩
  · refine ⟨⟨Or.inl ⟨hcount, by rw [hbuf]⟩, hrst⟩, ?_⟩
    rw [hany]
    simp
  · exact ⟨⟨Or.inr hcount, hrst⟩, fun _ => hcount⟩

/-- The sender's half of a segment that has arrived. -/
theorem respond_counts (hvalid : s.stream.Valid) (hedge : s.wdRightEdge < 2 ^ 64)
    (seg : TCPSegment) :
    Counts s (TCPConnection.respond s seg) ∧
      (seg.header.ack = true →
        s.rejects (unwrap seg.header.ackno s.isn s.nextSeqno) = false →
        s.segBuffer.head?.any (fun node => decide (node.ackIndex ≤
          unwrap seg.header.ackno s.isn s.nextSeqno)) = true →
        (TCPConnection.respond s seg).retransNum = 0) := by
  have htake : Counts s (TCPConnection.takeAck s seg) ∧
      (seg.header.ack = true →
        s.rejects (unwrap seg.header.ackno s.isn s.nextSeqno) = false →
        s.segBuffer.head?.any (fun node => decide (node.ackIndex ≤
          unwrap seg.header.ackno s.isn s.nextSeqno)) = true →
        (TCPConnection.takeAck s seg).retransNum = 0) := by
    unfold TCPConnection.takeAck
    split_ifs with hack
    · cases hrej : s.rejects (unwrap seg.header.ackno s.isn s.nextSeqno) with
      | true =>
          rw [ackReceived_of_rejects _ hrej]
          exact ⟨.refl s, fun _ h => absurd h (by simp)⟩
      | false =>
          obtain ⟨t, new, hnew, heq, -⟩ := exists_ackReceived_of_accepts seg.header.win hvalid
            (max_lt hedge (Word.add_lt _ _ _)) rfl hrej
          obtain ⟨hcounts, hzero⟩ :=
            s.acknowledge_counts (unwrap seg.header.ackno s.isn s.nextSeqno)
          have hready : Counts s (s.readyToFill (unwrap seg.header.ackno s.isn s.nextSeqno)
              seg.header.win) := ⟨hcounts.count, hcounts.rst⟩
          have ht := hready.trans hnew.counts
          rw [heq]
          exact ⟨⟨ht.count, ht.rst⟩, fun _ _ hany => hnew.retransNum.trans (hzero hany)⟩
    · exact ⟨.refl s, fun h => absurd h hack⟩
  obtain ⟨hcounts, hzero⟩ := htake
  unfold TCPConnection.respond
  split_ifs
  · obtain ⟨hempty, hsame⟩ := (TCPConnection.takeAck s seg).sendEmptyAck_counts
    exact ⟨hcounts.trans hempty, fun h1 h2 h3 => hsame.trans (hzero h1 h2 h3)⟩
  · exact ⟨hcounts, hzero⟩

end TCPSender

namespace Watch

open TCPSender

/-- What the watch sees bounds what the sender counts. -/
structure Observed (w : Watch) : Prop where
  settled : w.endpoint.Settled
  counted : w.endpoint.connection.sender.retransNum ≤ w.attempts
  /-- with nothing outstanding the count is zero -/
  waiting : w.endpoint.connection.sender.retransNum ≠ 0 →
    w.endpoint.connection.sender.segBuffer ≠ []
  rst : ∀ node ∈ w.endpoint.connection.sender.segBuffer, node.seg.header.rst = false

theorem observed_start (cfg : TCPConfig) : (start cfg).Observed where
  settled := Endpoint.settled_start cfg
  counted := le_refl 0
  waiting := fun h => absurd rfl h
  rst := by simp [start, Endpoint.start, TCPConnection.new, TCPSender.new]

section Step

variable {w : Watch} {op : ConnectionOp}

@[simp] theorem step_endpoint (w : Watch) (op : ConnectionOp) :
    (w.step op).endpoint = w.endpoint.step op := by
  cases op with
  | tick ms =>
      simp only [step]
      split <;> rfl
  | connect => rfl
  | write data => rfl
  | endInputStream => rfl
  | read len => rfl
  | receive seg => rfl

/-- A step whose sender keeps its count, or drops it to zero. -/
theorem Observed.of_counts (ho : w.Observed)
    (hcounts : Counts w.endpoint.connection.sender (w.endpoint.step op).connection.sender)
    (hattempts : (w.endpoint.step op).connection.sender.retransNum ≤ (w.step op).attempts) :
    (w.step op).Observed where
  settled := by
    rw [step_endpoint]
    exact (ho.settled.step op).1
  counted := by
    rw [step_endpoint]
    exact hattempts
  waiting := by
    rw [step_endpoint]
    intro hne
    rcases hcounts.count with ⟨hnum, hbuf⟩ | hzero
    · intro hnil
      rw [hnil] at hbuf
      exact ho.waiting (hnum ▸ hne) (List.prefix_nil.mp hbuf)
    · exact absurd hzero hne
  rst := by
    rw [step_endpoint]
    exact hcounts.rst ho.rst

/-- Only an acknowledgment takes attempts back. -/
theorem attempts_step_le (hop : ∀ seg, op ≠ .receive seg) : w.attempts ≤ (w.step op).attempts := by
  cases op with
  | tick ms =>
      simp only [step]
      split
      · exact Nat.le_succ _
      · exact le_refl _
  | receive seg => exact absurd rfl (hop seg)
  | connect => exact le_refl _
  | write data => exact le_refl _
  | endInputStream => exact le_refl _
  | read len => exact le_refl _

/-- `tick` resets the connection exactly if it shuts it down. -/
theorem Observed.resets_iff (ho : w.Observed) (ms : Nat) :
    w.endpoint.connection.Resets (w.endpoint.connection.tick ms) ↔
      w.endpoint.shutsDown (.tick ms) = true := by
  constructor
  · intro hresets
    by_contra hdown
    have hruns := Endpoint.runs_of_not_shutsDown ho.settled.drained (by simpa using hdown)
    have hout : w.endpoint.connection.segmentsOut ++ [w.endpoint.connection.rstSegment] =
        w.endpoint.connection.segmentsOut ++ (w.endpoint.connection.sender.tick ms).segmentsOut.map
          (TCPConnection.stamp w.endpoint.connection.receiver) :=
      hresets.rst.symm.trans hruns.segmentsOut
    have hpushed := List.append_cancel_left hout
    -- what the sender's timer sends is never a RST
    rcases w.endpoint.connection.sender.tick_cases ms with
      ⟨-, heq⟩ | ⟨-, -, heq⟩ | ⟨front, rest, hbuf, -, heq⟩
    · rw [heq, ho.settled.drained] at hpushed
      exact absurd hpushed (by simp)
    · rw [heq] at hpushed
      simp only [ho.settled.drained] at hpushed
      exact absurd hpushed (by simp)
    · rw [heq] at hpushed
      simp only [ho.settled.drained, List.nil_append, List.map_cons, List.map_nil] at hpushed
      have hflag := congrArg (fun seg => seg.header.rst) (List.cons.inj hpushed).1
      simp only [TCPConnection.stamp_rst] at hflag
      rw [ho.rst front (by simp [hbuf])] at hflag
      exact absurd hflag (by simp [TCPConnection.rstSegment])
  · intro hdown
    have hshuts := Endpoint.shuts_of_shutsDown hdown
    have hmany : w.endpoint.connection.sender.consecutiveRetransmissions ≥
        TCPConfig.maxRetxAttempts := by
      simpa [Endpoint.shutsDown] using hdown
    refine ⟨hshuts.segmentsOut, ?_, ?_, ?_⟩
    · show (w.endpoint.step (.tick ms)).connection.receiver.streamOut.error = true
      rw [hshuts.receiver]
      rfl
    · show (w.endpoint.step (.tick ms)).connection.sender.stream.error = true
      rw [hshuts.sender]
      rfl
    · unfold TCPConnection.tick
      dsimp only
      rw [if_pos hmany]
      rfl

/-- The oldest segment is seen to be sent again when the timer runs out. -/
theorem Observed.retransmits_of_timesOut (ho : w.Observed) {ms : Nat}
    (hdown : w.endpoint.shutsDown (.tick ms) = false)
    (htime : w.endpoint.connection.sender.TimesOut ms) :
    retransmits w.endpoint ms = true := by
  have hruns := Endpoint.runs_of_not_shutsDown ho.settled.drained hdown
  rcases w.endpoint.connection.sender.tick_cases ms with
    ⟨hbuf, -⟩ | ⟨-, hnot, -⟩ | ⟨front, rest, hbuf, -, heq⟩
  · exact absurd hbuf htime.1
  · exact absurd htime hnot
  · rw [retransmits, hbuf]
    simp only [List.head?_cons, Option.any_some, decide_eq_true_eq]
    rw [hruns.segmentsOut]
    show _ ++ (w.endpoint.connection.sender.tick ms).segmentsOut.map _ = _
    rw [heq]
    simp only [ho.settled.drained]
    rfl

theorem Observed.tick (ho : w.Observed) {ms : Nat}
    (hdown : w.endpoint.shutsDown (.tick ms) = false) : (w.step (.tick ms)).Observed := by
  have hruns := Endpoint.runs_of_not_shutsDown ho.settled.drained hdown
  have hsender : (w.endpoint.step (.tick ms)).connection.sender =
      { w.endpoint.connection.sender.tick ms with segmentsOut := [] } := hruns.sender
  have hmore : w.attempts ≤ (w.step (.tick ms)).attempts := attempts_step_le (by simp)
  have hcounted := ho.counted
  -- a tick without a timeout leaves the count and the buffer
  have hkept : ∀ t : TCPSender, w.endpoint.connection.sender.tick ms = t →
      t.retransNum = w.endpoint.connection.sender.retransNum →
      t.segBuffer = w.endpoint.connection.sender.segBuffer → (w.step (.tick ms)).Observed := by
    intro t ht hnum hbuf
    rw [ht] at hsender
    apply ho.of_counts
    · rw [hsender]
      refine ⟨Or.inl ⟨hnum, by rw [hbuf]⟩, ?_⟩
      rw [hbuf]
      exact id
    · rw [hsender]
      exact hnum.trans_le (le_trans hcounted hmore)
  rcases w.endpoint.connection.sender.tick_cases ms with
    ⟨-, heq⟩ | ⟨-, -, heq⟩ | ⟨front, rest, hbuf, htime, heq⟩
  · exact hkept _ heq rfl rfl
  · exact hkept _ heq rfl rfl
  · -- the count goes up by one at most, and so do the attempts
    have hattempts : (w.step (.tick ms)).attempts = w.attempts + 1 := by
      simp only [step, ho.retransmits_of_timesOut hdown htime, if_true]
    have hbuf' : (w.endpoint.step (.tick ms)).connection.sender.segBuffer = front :: rest := by
      rw [hsender, heq]
      exact hbuf
    have hnum : (w.endpoint.step (.tick ms)).connection.sender.retransNum ≤
        w.endpoint.connection.sender.retransNum + 1 := by
      rw [hsender, heq]
      simp only
      split_ifs
      · exact Word.add_le 64 _ 1
      · exact Nat.le_succ _
    refine ⟨?_, ?_, ?_, ?_⟩
    · rw [step_endpoint]
      exact (ho.settled.step _).1
    · rw [step_endpoint, hattempts]
      omega
    · rw [step_endpoint, hbuf']
      simp
    · rw [step_endpoint, hbuf', ← hbuf]
      exact ho.rst

/-- A segment that covers the oldest outstanding one leaves a count of zero. -/
theorem Observed.retransNum_of_completes (ho : w.Observed) {seg : TCPSegment}
    (hcompletes : completes w.endpoint seg = true) :
    (w.endpoint.step (.receive seg)).connection.sender.retransNum = 0 := by
  rw [completes, Endpoint.newAcks] at hcompletes
  split_ifs at hcompletes with hnone
  · exact absurd hcompletes (by simp)
  · simp only [Bool.or_eq_true, Bool.not_eq_true', not_or, Bool.not_eq_true,
      Bool.not_eq_false] at hnone
    obtain ⟨⟨hrst, hack⟩, hrej⟩ := hnone
    have hruns : Endpoint.Runs w.endpoint (.receive seg) :=
      Endpoint.runs_of_not_shutsDown ho.settled.drained hrst
    rw [hruns.sender]
    exact (respond_counts ho.settled.valid ho.settled.edge_lt seg).2 hack hrej
      (by simpa using hcompletes)

/-- A call that only fills the window keeps the count and the attempts. -/
theorem Observed.of_fillWindow (ho : w.Observed)
    (hprepared : (w.endpoint.prepared op).stream.Valid)
    (hcounts : Counts w.endpoint.connection.sender (w.endpoint.prepared op))
    (hnum : (w.endpoint.prepared op).retransNum = w.endpoint.connection.sender.retransNum)
    (hsender : (w.endpoint.step op).connection.sender =
      { (w.endpoint.prepared op).fillWindow with segmentsOut := [] })
    (hattempts : w.attempts ≤ (w.step op).attempts) : (w.step op).Observed := by
  obtain ⟨new, hnew, -⟩ := exists_sends_fillWindow hprepared
  have hfilled := hcounts.trans hnew.counts
  apply ho.of_counts
  · rw [hsender]
    exact ⟨hfilled.count, hfilled.rst⟩
  · rw [hsender]
    exact (hnew.retransNum.trans hnum).trans_le (ho.counted.trans hattempts)

theorem Observed.step (ho : w.Observed) (op : ConnectionOp) : (w.step op).Observed := by
  have hcounted := ho.counted
  cases hdown : w.endpoint.shutsDown op with
  | true =>
      have hshuts := Endpoint.shuts_of_shutsDown hdown
      apply ho.of_counts
      · rw [hshuts.sender]
        exact ⟨Or.inl ⟨rfl, List.prefix_rfl⟩, id⟩
      · rw [hshuts.sender]
        rcases Endpoint.shutsDown_cases hdown with ⟨ms, rfl, -⟩ | ⟨seg, rfl, hrst⟩
        · exact le_trans hcounted (attempts_step_le (by simp))
        · -- a RST is not looked at as an acknowledgment
          have hnone : completes w.endpoint seg = false := by
            simp [completes, Endpoint.newAcks, hrst]
          simp only [Watch.step, hnone, Bool.false_eq_true, if_false]
          exact hcounted
  | false =>
      have hruns := Endpoint.runs_of_not_shutsDown ho.settled.drained hdown
      obtain ⟨-, hvalid, -⟩ := ho.settled.prepared op
      cases op with
      | tick ms => exact ho.tick hdown
      | connect =>
          exact ho.of_fillWindow hvalid ⟨Or.inl ⟨rfl, List.prefix_rfl⟩, id⟩ rfl hruns.sender
            (le_refl _)
      | write data =>
          exact ho.of_fillWindow hvalid ⟨Or.inl ⟨rfl, List.prefix_rfl⟩, id⟩ rfl hruns.sender
            (le_refl _)
      | endInputStream =>
          exact ho.of_fillWindow hvalid ⟨Or.inl ⟨rfl, List.prefix_rfl⟩, id⟩ rfl hruns.sender
            (le_refl _)
      | read len => exact ho.of_counts (.refl _) hcounted
      | receive seg =>
          have hcounts := (respond_counts ho.settled.valid ho.settled.edge_lt seg).1
          apply ho.of_counts
          · rw [hruns.sender]
            exact ⟨hcounts.count, hcounts.rst⟩
          · cases hcompletes : completes w.endpoint seg with
            | true =>
                rw [ho.retransNum_of_completes hcompletes]
                exact Nat.zero_le _
            | false =>
                simp only [Watch.step, hcompletes, Bool.false_eq_true, if_false]
                rw [hruns.sender]
                rcases hcounts.count with ⟨hnum, -⟩ | hzero
                · exact hnum.trans_le hcounted
                · exact hzero.trans_le (Nat.zero_le _)

/-- The next tick after the last retransmission always gives up, so that an active
connection never sees time pass after it. -/
theorem Observed.noTimeLeft_step (ho : w.Observed) (hw : w.NoTimeLeft) (op : ConnectionOp) :
    (w.step op).NoTimeLeft := by
  intro hactive hmany
  rw [step_endpoint] at hactive hmany
  -- an active connection has been active before
  have hopen : w.endpoint.connection.active = true := by
    by_contra hclosed
    have hclose : w.endpoint.connection.close = true := by
      simpa [TCPConnection.active] using hclosed
    rw [TCPConnection.active, Endpoint.close_step hclose op] at hactive
    exact absurd hactive (by simp)
  have hsame : (w.endpoint.step op).connection.sender.retransNum =
      w.endpoint.connection.sender.retransNum → w.sinceLast = 0 := by
    intro hnum
    rw [TCPSender.consecutiveRetransmissions, hnum] at hmany
    exact hw hopen hmany
  have hzero : (w.endpoint.step op).connection.sender.retransNum ≠ 0 := by
    intro hzero
    rw [TCPSender.consecutiveRetransmissions, hzero] at hmany
    exact absurd hmany (by decide)
  cases hdown : w.endpoint.shutsDown op with
  | true =>
      have hnum := congrArg TCPSender.retransNum (Endpoint.shuts_of_shutsDown hdown).sender
      rcases Endpoint.shutsDown_cases hdown with ⟨ms, rfl, -⟩ | ⟨seg, rfl, -⟩
      · have hdead := ((ho.resets_iff ms).mpr hdown).inactive
        exact absurd (hactive.symm.trans hdead) (by simp)
      · exact hsame hnum
  | false =>
      have hruns := Endpoint.runs_of_not_shutsDown ho.settled.drained hdown
      have hnum := congrArg TCPSender.retransNum hruns.sender
      obtain ⟨-, hvalid, -⟩ := ho.settled.prepared op
      obtain ⟨new, hfill, -⟩ := exists_sends_fillWindow hvalid
      cases op with
      | connect => exact hsame (hnum.trans hfill.retransNum)
      | write data => exact hsame (hnum.trans hfill.retransNum)
      | endInputStream => exact hsame (hnum.trans hfill.retransNum)
      | read len => exact hsame rfl
      | receive seg =>
          rcases (respond_counts ho.settled.valid ho.settled.edge_lt seg).1.count with
            ⟨hkept, -⟩ | hnone
          · exact hsame (hnum.trans hkept)
          · exact absurd (hnum.trans hnone) hzero
      | tick ms =>
          by_cases htime : w.endpoint.connection.sender.TimesOut ms
          · simp only [Watch.step, ho.retransmits_of_timesOut hdown htime, if_true]
          · -- without a timeout the count is still below the maximum
            have hkept : (w.endpoint.connection.sender.tick ms).retransNum =
                w.endpoint.connection.sender.retransNum := by
              rcases w.endpoint.connection.sender.tick_cases ms with
                ⟨-, heq⟩ | ⟨-, -, heq⟩ | ⟨front, rest, -, hout, -⟩
              · rw [heq]
              · rw [heq]
              · exact absurd hout htime
            rw [TCPSender.consecutiveRetransmissions, hnum.trans hkept] at hmany
            have hfew : ¬ TCPConfig.maxRetxAttempts ≤
                w.endpoint.connection.sender.consecutiveRetransmissions := by
              simpa [Endpoint.shutsDown] using hdown
            exact absurd hmany hfew

end Step

end Watch

/-- **When a connection gives up too early.**  In every run, a tick gives up only after
the last retransmission has timed out unanswered exactly if the sender has not counted
the maximal number of retransmissions, or the tick ends no earlier than one timeout after
the last of them and no new data has been acknowledged since; and an active connection is
asked so only by the tick that follows the last retransmission.  A segment that covers
the oldest outstanding one keeps the connection from being reset by the next tick. -/
theorem gives_up_late_iff {cfg : TCPConfig} {w : Watch}
    (hr : Run.Reach Watch.step (fun _ _ => True) (Watch.start cfg) w) (ms : Nat) :
    (w.GivesUpLate ms ↔ w.Patient ms) ∧ w.NoTimeLeft ∧
      ∀ seg, Watch.completes w.endpoint seg = true →
        ¬ (w.step (.receive seg)).endpoint.connection.Resets
          ((w.step (.receive seg)).endpoint.connection.tick ms) := by
  obtain ⟨ho, hleft⟩ : w.Observed ∧ w.NoTimeLeft :=
    hr.invariant (P := fun w => w.Observed ∧ w.NoTimeLeft)
      ⟨Watch.observed_start cfg, fun _ _ => rfl⟩
      fun _ op _ h => ⟨h.1.step op, h.1.noTimeLeft_step h.2 op⟩
  refine ⟨?_, hleft, ?_⟩
  · rw [Watch.GivesUpLate, ho.resets_iff, Endpoint.shutsDown, decide_eq_true_eq, Watch.Patient]
    constructor
    · intro hlate
      by_cases hfew : w.endpoint.connection.sender.consecutiveRetransmissions <
          TCPConfig.maxRetxAttempts
      · exact Or.inl hfew
      · obtain ⟨-, -, htime, hheard⟩ := hlate (not_lt.mp hfew)
        exact Or.inr ⟨htime, hheard⟩
    · intro hpatient hmany
      obtain ⟨htime, hheard⟩ := hpatient.resolve_left (not_lt.mpr hmany)
      have hle : w.endpoint.connection.sender.consecutiveRetransmissions ≤
          w.endpoint.connection.sender.retransNum := Nat.mod_le _ _
      have hcounted := ho.counted
      have hpos : 0 < TCPConfig.maxRetxAttempts := by decide
      exact ⟨ho.waiting (by omega), by omega, htime, hheard⟩
  · intro seg hcompletes
    have hzero := ho.retransNum_of_completes hcompletes
    rw [(ho.step (.receive seg)).resets_iff, Endpoint.shutsDown, Watch.step_endpoint,
      TCPSender.consecutiveRetransmissions, hzero]
    decide

/-- The SYN times out eight times. -/
def eightTimeouts : List ConnectionOp :=
  [.connect, .tick 1000, .tick 2000, .tick 4000, .tick 8000, .tick 16000, .tick 32000,
    .tick 64000, .tick 128000]

/-- A tick of the whole timeout gives up when it should. -/
theorem gives_up_after_last_timeout :
    (Run.exec Watch.step (Watch.start { isn := ⟨0⟩ }) eightTimeouts).GivesUpLate 256000 :=
  (gives_up_late_iff
    (Run.Reach.exec .start (Run.Admitted.of_forall (fun _ _ => trivial) _ eightTimeouts))
    256000).1.mpr (by decide +kernel)

/-- A tick of one millisecond right after the eighth retransmission resets the
connection. -/
theorem gives_up_one_millisecond_later :
    ¬ (Run.exec Watch.step (Watch.start { isn := ⟨0⟩ }) eightTimeouts).GivesUpLate 1 := by
  intro hlate
  have hresets : (Run.exec Watch.step (Watch.start { isn := ⟨0⟩ })
      eightTimeouts).endpoint.connection.Resets ((Run.exec Watch.step
        (Watch.start { isn := ⟨0⟩ }) eightTimeouts).endpoint.connection.tick 1) :=
    ⟨by decide +kernel, by decide +kernel, by decide +kernel, by decide +kernel⟩
  exact absurd (hlate hresets) (by decide +kernel)

end Sponge

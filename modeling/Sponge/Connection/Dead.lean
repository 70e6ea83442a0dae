import Sponge.Connection.Endpoint
import Sponge.Lib.Run
import Sponge.Sender.Effects

/-!
# Calls on a dead connection

No entry point of a connection tests whether it has been closed.  A closed
connection stays closed, but each call sends what the sender finds to send:
`Quiet` says when that is nothing.
-/

namespace Sponge
namespace Endpoint

/-- Facts about the sender between two calls, in every run. -/
structure Settled (e : Endpoint) : Prop where
  drained : e.connection.sender.segmentsOut = []
  valid : e.connection.sender.stream.Valid
  edge_lt : e.connection.sender.wdRightEdge < 2 ^ 64

theorem settled_start (cfg : TCPConfig) : (start cfg).Settled where
  drained := rfl
  valid := ByteStream.valid_new cfg.sendCapacity
  edge_lt := by
    show 1 < 2 ^ 64
    norm_num

/-- The acknowledgment of a segment gives the sender nothing to send. -/
def AckQuiet (s : TCPSender) (seg : TCPSegment) : Prop :=
  seg.header.ack = true →
    s.rejects (unwrap seg.header.ackno s.isn s.nextSeqno) = true ∨
      (s.readyToFill (unwrap seg.header.ackno s.isn s.nextSeqno) seg.header.win).Idle

/-- The call gives the connection nothing to send. -/
def Quiet (e : Endpoint) : ConnectionOp → Prop
  | .connect => (e.prepared .connect).Idle
  | .write data => (e.prepared (.write data)).Idle
  | .endInputStream => (e.prepared .endInputStream).Idle
  | .tick ms =>
      e.connection.sender.consecutiveRetransmissions < TCPConfig.maxRetxAttempts ∧
        ¬e.connection.sender.TimesOut ms
  | .read _ => True
  | .receive seg =>
      seg.header.rst = true ∨
        (seg.lengthInSequenceSpace = 0 ∧ AckQuiet e.connection.sender seg)

instance (s : TCPSender) (seg : TCPSegment) : Decidable (AckQuiet s seg) :=
  inferInstanceAs (Decidable (_ → _))

instance (e : Endpoint) : ∀ op, Decidable (e.Quiet op)
  | .connect => inferInstanceAs (Decidable (TCPSender.Idle _))
  | .write _ => inferInstanceAs (Decidable (TCPSender.Idle _))
  | .endInputStream => inferInstanceAs (Decidable (TCPSender.Idle _))
  | .tick _ => inferInstanceAs (Decidable (_ ∧ _))
  | .read _ => inferInstanceAs (Decidable True)
  | .receive _ => inferInstanceAs (Decidable (_ ∨ _))

/-- The sender after a call: what it sent, and the facts that stay. -/
structure Drives (s s' : TCPSender) (new : List TCPSegment) : Prop where
  segmentsOut : s'.segmentsOut = s.segmentsOut ++ new
  valid : s'.stream.Valid
  edge_lt : s'.wdRightEdge < 2 ^ 64

theorem drives_of_sends {s s' : TCPSender} {new : List TCPSegment} (h : s.Sends s' new)
    (hvalid : s.stream.Valid) (hedge : s.wdRightEdge < 2 ^ 64) : Drives s s' new :=
  ⟨h.segmentsOut, h.valid hvalid, by rw [h.wdRightEdge]; exact hedge⟩

theorem exists_drives_takeAck {s : TCPSender} (hvalid : s.stream.Valid)
    (hedge : s.wdRightEdge < 2 ^ 64) (seg : TCPSegment) :
    ∃ new, Drives s (TCPConnection.takeAck s seg) new ∧ (new = [] ↔ AckQuiet s seg) := by
  unfold TCPConnection.takeAck AckQuiet
  split_ifs with hack
  · cases hrej : s.rejects (unwrap seg.header.ackno s.isn s.nextSeqno) with
    | true =>
        rw [TCPSender.ackReceived_of_rejects _ hrej]
        exact ⟨[], drives_of_sends (.refl s) hvalid hedge, by simp⟩
    | false =>
        have hlt : max s.wdRightEdge (Word.add 64 (unwrap seg.header.ackno s.isn s.nextSeqno)
            seg.header.win.toNat) < 2 ^ 64 := max_lt hedge (Word.add_lt _ _ _)
        obtain ⟨t, new, hnew, heq, hidle⟩ :=
          TCPSender.exists_ackReceived_of_accepts seg.header.win hvalid hlt rfl hrej
        rw [heq]
        refine ⟨new, ⟨?_, ?_, hlt⟩, ?_⟩
        · have hout := hnew.segmentsOut
          rwa [TCPSender.readyToFill_segmentsOut] at hout
        · apply hnew.valid
          rw [TCPSender.readyToFill_stream]
          exact hvalid
        · simp [hidle, hack]
  · exact ⟨[], drives_of_sends (.refl s) hvalid hedge, by simp [hack]⟩

theorem exists_drives_respond {s : TCPSender} (hvalid : s.stream.Valid)
    (hedge : s.wdRightEdge < 2 ^ 64) (seg : TCPSegment) :
    ∃ new, Drives s (TCPConnection.respond s seg) new ∧
      (new = [] ↔ seg.lengthInSequenceSpace = 0 ∧ AckQuiet s seg) := by
  obtain ⟨new, hnew, hquiet⟩ := exists_drives_takeAck hvalid hedge seg
  unfold TCPConnection.respond
  split_ifs with hlen
  · -- what occupies sequence numbers is always answered
    have hne : seg.lengthInSequenceSpace ≠ 0 := by omega
    generalize TCPConnection.takeAck s seg = t at hnew ⊢
    rcases t.sendEmptyAck_cases with ⟨-, heq⟩ | ⟨-, heq⟩
    · refine ⟨new ++ [t.synSeg], ⟨?_, ?_, ?_⟩, by simp [hne]⟩
      · rw [heq, TCPSender.sendNewSeg, hnew.segmentsOut, List.append_assoc]
      · rw [heq]
        exact hnew.valid
      · rw [heq]
        exact hnew.edge_lt
    · refine ⟨new ++ [t.getInitSeg], ⟨?_, ?_, ?_⟩, by simp [hne]⟩
      · rw [heq, hnew.segmentsOut, List.append_assoc]
      · rw [heq]
        exact hnew.valid
      · rw [heq]
        exact hnew.edge_lt
  · have hzero : seg.lengthInSequenceSpace = 0 := by omega
    exact ⟨new, hnew, by rw [hquiet]; simp [hzero]⟩

theorem exists_drives_tick {s : TCPSender} (hvalid : s.stream.Valid)
    (hedge : s.wdRightEdge < 2 ^ 64) (ms : Nat) :
    ∃ new, Drives s (s.tick ms) new ∧ (new = [] ↔ ¬s.TimesOut ms) := by
  rcases s.tick_cases ms with ⟨hnil, heq⟩ | ⟨-, hnot, heq⟩ | ⟨front, rest, hbuf, hout, heq⟩
  · rw [heq]
    exact ⟨[], drives_of_sends (.refl s) hvalid hedge, by simp [TCPSender.TimesOut, hnil]⟩
  · rw [heq]
    exact ⟨[], ⟨by simp, hvalid, hedge⟩, by simp [hnot]⟩
  · rw [heq]
    exact ⟨[front.seg], ⟨rfl, hvalid, hedge⟩, by simp [hout]⟩

theorem Settled.prepared {e : Endpoint} (h : e.Settled) (op : ConnectionOp) :
    (e.prepared op).segmentsOut = [] ∧ (e.prepared op).stream.Valid ∧
      (e.prepared op).wdRightEdge < 2 ^ 64 := by
  rw [prepared_wdRightEdge]
  cases op with
  | connect => exact ⟨h.drained, h.valid, h.edge_lt⟩
  | write data => exact ⟨h.drained, h.valid.write data, h.edge_lt⟩
  | endInputStream => exact ⟨h.drained, h.valid.endInput, h.edge_lt⟩
  | tick ms => exact ⟨h.drained, h.valid, h.edge_lt⟩
  | read len => exact ⟨h.drained, h.valid, h.edge_lt⟩
  | receive seg => exact ⟨h.drained, h.valid, h.edge_lt⟩

/-- What a call that does not shut the connection down sends. -/
theorem Settled.exists_driven {e : Endpoint} (h : e.Settled) {op : ConnectionOp}
    (hdown : e.shutsDown op = false) :
    ∃ new, (e.driven op).segmentsOut = new ∧ (e.driven op).stream.Valid ∧
      (e.driven op).wdRightEdge < 2 ^ 64 ∧ (new = [] ↔ e.Quiet op) := by
  obtain ⟨hdrained, hvalid, hedge⟩ := h.prepared op
  -- `connect`, `write` and `end_input_stream` all end in `fill_window`
  have hfill : ∃ new, (e.prepared op).fillWindow.segmentsOut = new ∧
      (e.prepared op).fillWindow.stream.Valid ∧ (e.prepared op).fillWindow.wdRightEdge < 2 ^ 64 ∧
      (new = [] ↔ (e.prepared op).Idle) := by
    obtain ⟨new, hnew, hidle⟩ := TCPSender.exists_sends_fillWindow hvalid
    have hdrives := drives_of_sends hnew hvalid hedge
    refine ⟨new, ?_, hdrives.valid, hdrives.edge_lt, hidle⟩
    rw [hdrives.segmentsOut, hdrained, List.nil_append]
  cases op with
  | connect => exact hfill
  | write data => exact hfill
  | endInputStream => exact hfill
  | tick ms =>
      obtain ⟨new, hnew, hquiet⟩ := exists_drives_tick h.valid h.edge_lt ms
      have hfew : e.connection.sender.consecutiveRetransmissions < TCPConfig.maxRetxAttempts := by
        simpa [shutsDown] using hdown
      refine ⟨new, ?_, hnew.valid, hnew.edge_lt, ?_⟩
      · rw [driven, hnew.segmentsOut, h.drained, List.nil_append]
      · rw [hquiet]
        simp [Quiet, hfew]
  | read len => exact ⟨[], h.drained, h.valid, h.edge_lt, by simp [Quiet]⟩
  | receive seg =>
      obtain ⟨new, hnew, hquiet⟩ := exists_drives_respond h.valid h.edge_lt seg
      have hrst : seg.header.rst = false := hdown
      refine ⟨new, ?_, hnew.valid, hnew.edge_lt, ?_⟩
      · rw [driven, hnew.segmentsOut, h.drained, List.nil_append]
      · rw [hquiet]
        simp [Quiet, hrst]

/-- One call: the queue grows, by nothing exactly when the call is quiet. -/
theorem Settled.step {e : Endpoint} (h : e.Settled) (op : ConnectionOp) :
    (e.step op).Settled ∧
      ∃ new, (e.step op).connection.segmentsOut = e.connection.segmentsOut ++ new ∧
        (new = [] ↔ e.Quiet op) := by
  cases hdown : e.shutsDown op with
  | false =>
      have hruns := runs_of_not_shutsDown h.drained hdown
      obtain ⟨new, hnew, hvalid, hedge, hquiet⟩ := h.exists_driven hdown
      refine ⟨⟨?_, ?_, ?_⟩, new.map (TCPConnection.stamp (e.inbound op)), ?_, ?_⟩
      · rw [hruns.sender]
      · rw [hruns.sender]
        exact hvalid
      · rw [hruns.sender]
        exact hedge
      · rw [hruns.segmentsOut, hnew]
      · rw [List.map_eq_nil_iff, hquiet]
  | true =>
      have hshuts := shuts_of_shutsDown hdown
      refine ⟨⟨?_, ?_, ?_⟩, e.rstOut op, hshuts.segmentsOut, ?_⟩
      · rw [hshuts.sender]
        exact h.drained
      · rw [hshuts.sender]
        exact h.valid.setError
      · rw [hshuts.sender]
        exact h.edge_lt
      · rcases shutsDown_cases hdown with ⟨ms, rfl, hmany⟩ | ⟨seg, rfl, hrst⟩
        · -- giving up sends a RST, whether or not it is the first one
          simp [rstOut, Quiet, not_lt.mpr hmany]
        · simp [rstOut, Quiet, hrst]

/-- A closed connection stays closed, whatever is called. -/
theorem close_step {e : Endpoint} (h : e.connection.close = true) (op : ConnectionOp) :
    (e.step op).connection.close = true := by
  have hclean : ∀ c : TCPConnection, c.close = true → c.clean.close = true := by
    intro c hc
    rw [TCPConnection.clean_close, hc, Bool.true_or]
  have hbad : ∀ (c : TCPConnection) (sendRst : Bool), (c.badShutdown sendRst).close = true := by
    intro c sendRst
    unfold TCPConnection.badShutdown
    split <;> rfl
  cases op with
  | connect => exact hclean _ h
  | write data => exact hclean _ h
  | endInputStream => exact hclean _ h
  | read len => exact h
  | tick ms =>
      show (e.connection.tick ms).close = true
      unfold TCPConnection.tick
      dsimp only
      split
      · exact hbad _ _
      · exact hclean _ h
  | receive seg =>
      show (e.connection.segmentReceived seg).close = true
      unfold TCPConnection.segmentReceived
      dsimp only
      split
      · exact hbad _ _
      · refine hclean _ ?_
        show (TCPConnection.receive _ seg).close = true
        rw [TCPConnection.receive_close]
        exact h

theorem close_exec {e : Endpoint} (h : e.connection.close = true) (ops : List ConnectionOp) :
    (Run.exec Endpoint.step e ops).connection.close = true := by
  induction ops generalizing e with
  | nil => exact h
  | cons op rest ih => exact ih (close_step h op)

end Endpoint

/-- **A dead connection is silent exactly as long as its calls are quiet**; it stays
dead in any case. -/
theorem dead_connection_silent_iff {cfg : TCPConfig} {e : Endpoint}
    (hr : Run.Reach Endpoint.step (fun _ _ => True) (Endpoint.start cfg) e)
    (hdead : e.connection.active = false) (ops : List ConnectionOp) :
    (Run.exec Endpoint.step e ops).connection.active = false ∧
      ((Run.exec Endpoint.step e ops).connection.segmentsOut = e.connection.segmentsOut ↔
        Run.Admitted Endpoint.step Endpoint.Quiet e ops) := by
  have hclose : e.connection.close = true := by simpa [TCPConnection.active] using hdead
  have hsettled : e.Settled := Run.Reach.invariant (P := Endpoint.Settled) hr
    (Endpoint.settled_start cfg) fun _ op _ h => (h.step op).1
  refine ⟨?_, ?_⟩
  · rw [TCPConnection.active, Endpoint.close_exec hclose ops]
    rfl
  · refine (Run.exec_log_eq_iff (P := Endpoint.Settled) (L := fun e => e.connection.segmentsOut)
      (fun _ op _ h => (h.step op).1) ?_ ?_ hsettled
      (Run.Admitted.of_forall (fun _ _ => trivial) e ops)).2
    · intro e op _ h
      obtain ⟨-, new, hnew, -⟩ := h.step op
      exact ⟨new, hnew.symm⟩
    · intro e op _ h
      obtain ⟨-, new, hnew, hquiet⟩ := h.step op
      rw [hnew, List.append_right_eq_self, hquiet]

/-- The connection is reset while its SYN is outstanding. -/
def resetWhileOpening : List ConnectionOp :=
  [.connect, .receive { header := { rst := true } }]

/-- Before the timer runs out, nothing is sent. -/
theorem dead_connection_silent_before_timeout :
    (Run.exec Endpoint.step (Endpoint.start { isn := ⟨0⟩ }) resetWhileOpening).connection.active
        = false ∧
      (Run.exec Endpoint.step
        (Run.exec Endpoint.step (Endpoint.start { isn := ⟨0⟩ }) resetWhileOpening)
        [.tick 999, .write [97], .receive { header := { rst := true } }]).connection.segmentsOut =
      (Run.exec Endpoint.step (Endpoint.start { isn := ⟨0⟩ })
        resetWhileOpening).connection.segmentsOut :=
  ⟨by decide +kernel, ((dead_connection_silent_iff
    (Run.Reach.exec .start (Run.Admitted.of_forall (fun _ _ => trivial) _ resetWhileOpening))
    (by decide +kernel) _).2).mpr (by decide +kernel)⟩

/-- When it runs out, the SYN is sent again. -/
theorem dead_connection_retransmits :
    (Run.exec Endpoint.step (Endpoint.start { isn := ⟨0⟩ }) resetWhileOpening).connection.active
        = false ∧
      (Run.exec Endpoint.step
        (Run.exec Endpoint.step (Endpoint.start { isn := ⟨0⟩ }) resetWhileOpening)
        [.tick 1000]).connection.segmentsOut ≠
      (Run.exec Endpoint.step (Endpoint.start { isn := ⟨0⟩ })
        resetWhileOpening).connection.segmentsOut := by
  decide +kernel

end Sponge

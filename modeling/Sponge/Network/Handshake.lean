import Sponge.Connection.Inbound
import Sponge.Network.System

/-!
# The handshake and the first data

The sender opens on any acknowledgment of its SYN, the receiver on a SYN.  As long
as no acknowledgment without a SYN reaches a side that has not received a SYN, the
two open in the right order: data and FIN are only ever sent with an
acknowledgment.  A side that has sent its own SYN answers the peer's with a bare
acknowledgment, and there the order can be lost.
-/

namespace Sponge

namespace TCPSender

/-- Before anything but the SYN is sent, there is no payload and no FIN. -/
theorem FirstSent.bare_of_span_le {isn : WrappingInt32} {whole : List Byte}
    {firsts : List TCPSegment} {n : Nat} {fin : Bool} (h : FirstSent isn whole firsts n fin)
    (hspan : span firsts ≤ 1) {seg : TCPSegment} (hseg : seg ∈ firsts) :
    seg.payload = [] ∧ seg.header.fin = false := by
  rcases h with ⟨rfl, -, -⟩ | ⟨rest, rfl, hcarries⟩
  · exact absurd hseg (by simp)
  · have hzero : span rest = 0 := by
      rw [span_cons, segment_length] at hspan
      simp at hspan
      omega
    rw [eq_nil_of_span_eq_zero hcarries.length_pos hzero, List.mem_singleton] at hseg
    rw [hseg]
    exact ⟨rfl, rfl⟩

end TCPSender

namespace TCPReceiver

theorem segmentReceived_of_syn {r : TCPReceiver} {seg : TCPSegment} (h : seg.header.syn = true) :
    (r.segmentReceived seg).recieveIsn = true := by
  have hsyn : (r.noteSyn seg).recieveIsn = true := by
    unfold noteSyn
    rw [if_pos h]
  rcases r.segmentReceived_cases seg with heq | ⟨-, pushed, -, heq⟩
  · rw [heq]
    exact hsyn
  · rw [heq]
    exact hsyn

end TCPReceiver

/-- A segment with payload or FIN carries an acknowledgment. -/
def Acknowledging (seg : TCPSegment) : Prop :=
  seg.payload ≠ [] ∨ seg.header.fin = true → seg.header.ack = true

instance (seg : TCPSegment) : Decidable (Acknowledging seg) :=
  inferInstanceAs (Decidable (_ → _))

namespace Endpoint

variable {e : Endpoint} {op : ConnectionOp}

/-- Without an acknowledgment the right edge stays where it is, and bounds what is
sent. -/
theorem driven_within_edge {whole : List Byte} {firsts : List TCPSegment} {n : Nat} {fin : Bool}
    (h : (e.prepared op).Sent whole firsts n fin) (hedge : (e.prepared op).EdgeInRange)
    (hnone : ∀ seg, op = .receive seg → seg.header.ack = false) :
    (e.driven op).wdRightEdge = e.connection.sender.wdRightEdge ∧
      (e.driven op).nextSeqno ≤
        max 1 (max e.connection.sender.nextSeqno e.connection.sender.wdRightEdge) := by
  have hfill : (e.prepared op).fillWindow.wdRightEdge = e.connection.sender.wdRightEdge ∧
      (e.prepared op).fillWindow.nextSeqno ≤
        max 1 (max e.connection.sender.nextSeqno e.connection.sender.wdRightEdge) := by
    obtain ⟨-, -, -, -, -, -, hright, hnext⟩ := h.fillWindow_stepped hedge
    rw [prepared_wdRightEdge] at hright hnext
    rw [prepared_nextSeqno] at hnext
    exact ⟨hright, by omega⟩
  cases op with
  | connect => exact hfill
  | write data => exact hfill
  | endInputStream => exact hfill
  | tick ms =>
      obtain ⟨-, -, -, hright, hnext⟩ := h.tick_stepped hedge ms
      exact ⟨hright, hnext.trans_le (le_trans (le_max_left _ _) (le_max_right _ _))⟩
  | read len => exact ⟨rfl, le_trans (le_max_left _ _) (le_max_right _ _)⟩
  | receive seg =>
      have hskip : TCPConnection.takeAck e.connection.sender seg = e.connection.sender := by
        unfold TCPConnection.takeAck
        rw [hnone seg rfl]
        rfl
      have hdriven : e.driven (.receive seg) = if seg.lengthInSequenceSpace > 0 then
          e.connection.sender.sendEmptyAck else e.connection.sender := by
        show TCPConnection.respond e.connection.sender seg = _
        unfold TCPConnection.respond
        rw [hskip]
      rw [hdriven]
      split_ifs
      · obtain ⟨-, -, -, -, -, -, hright, hnext⟩ := h.sendEmptyAck_stepped hedge
        refine ⟨hright, hnext.trans_le ?_⟩
        show max e.connection.sender.nextSeqno 1 ≤ _
        rw [max_comm]
        exact max_le_max (le_refl 1) (le_max_left _ _)
      · exact ⟨rfl, le_trans (le_max_left _ _) (le_max_right _ _)⟩

/-- The invariant of the handshake: until a SYN arrives, only the SYN is sent. -/
structure Opening (e : Endpoint) : Prop where
  sent : ∃ whole firsts n fin, e.connection.sender.Sent whole firsts n fin
  edge : e.connection.sender.EdgeInRange
  drained : e.connection.sender.segmentsOut = []
  waits : e.connection.receiver.recieveIsn = false →
    e.connection.sender.wdRightEdge ≤ 1 ∧ e.connection.sender.nextSeqno ≤ 1
  emitted : ∀ seg ∈ e.connection.segmentsOut, Acknowledging seg

theorem opening_start (cfg : TCPConfig) : (start cfg).Opening where
  sent := ⟨[], [], 0, false, TCPSender.sent_new _ _ _⟩
  edge := TCPSender.edgeInRange_new _ _ _
  drained := rfl
  waits := fun _ => ⟨le_refl 1, Nat.zero_le 1⟩
  emitted := by simp [start, TCPConnection.new]

/-- The sender before it is driven. -/
theorem Opening.prepared (h : e.Opening) (op : ConnectionOp) :
    (∃ whole firsts n fin, (e.prepared op).Sent whole firsts n fin) ∧
      (e.prepared op).EdgeInRange ∧ (e.prepared op).segmentsOut = [] := by
  obtain ⟨whole, firsts, n, fin, hsent⟩ := h.sent
  have hedge := h.edge
  cases op with
  | write data =>
      exact ⟨⟨_, firsts, n, fin, hsent.write data⟩, ⟨hedge.pos, hedge.lt, hedge.le⟩, h.drained⟩
  | endInputStream =>
      exact ⟨⟨whole, firsts, n, fin, hsent.endInput⟩, ⟨hedge.pos, hedge.lt, hedge.le⟩, h.drained⟩
  | connect => exact ⟨h.sent, hedge, h.drained⟩
  | tick ms => exact ⟨h.sent, hedge, h.drained⟩
  | read len => exact ⟨h.sent, hedge, h.drained⟩
  | receive seg => exact ⟨h.sent, hedge, h.drained⟩

/-- While no SYN has been received after the step, none had been before it, and no
acknowledgment arrives in it. -/
theorem unopened_before
    (hack : ∀ seg, op = .receive seg → seg.header.ack = true → seg.header.syn = false →
      e.connection.receiver.recieveIsn = true)
    (hafter : (e.inbound op).recieveIsn = false) :
    e.connection.receiver.recieveIsn = false ∧
      ∀ seg, op = .receive seg → seg.header.ack = false := by
  have hbefore : e.connection.receiver.recieveIsn = false := by
    by_contra hopen
    have hopen' : e.connection.receiver.recieveIsn = true := by simpa using hopen
    have hstill : (e.inbound op).recieveIsn = true := by
      cases op with
      | receive seg => exact TCPReceiver.segmentReceived_keeps_isn hopen' seg
      | read len => exact hopen'
      | connect => exact hopen'
      | write data => exact hopen'
      | endInputStream => exact hopen'
      | tick ms => exact hopen'
    rw [hstill] at hafter
    exact absurd hafter (by simp)
  refine ⟨hbefore, ?_⟩
  intro seg hseg
  subst hseg
  by_contra hyes
  have hsyn : seg.header.syn = false := by
    by_contra hs
    have hopen : (e.inbound (.receive seg)).recieveIsn = true :=
      TCPReceiver.segmentReceived_of_syn (by simpa using hs)
    rw [hopen] at hafter
    exact absurd hafter (by simp)
  have hopen := hack seg rfl (by simpa using hyes) hsyn
  rw [hbefore] at hopen
  exact absurd hopen (by simp)

/-- One step of the handshake. -/
theorem Opening.step (h : e.Opening)
    (hack : ∀ seg, op = .receive seg → seg.header.ack = true → seg.header.syn = false →
      e.connection.receiver.recieveIsn = true) : (e.step op).Opening := by
  cases hdown : e.shutsDown op with
  | true =>
      have hshuts := shuts_of_shutsDown hdown
      obtain ⟨whole, firsts, n, fin, hsent⟩ := h.sent
      refine ⟨⟨whole, firsts, n, fin, ?_⟩, ?_, ?_, ?_, ?_⟩
      · rw [hshuts.sender]
        exact hsent.setError
      · rw [hshuts.sender]
        exact ⟨h.edge.pos, h.edge.lt, h.edge.le⟩
      · rw [hshuts.sender]
        exact h.drained
      · rw [hshuts.sender, hshuts.receiver]
        exact h.waits
      · intro seg hseg hcontent
        rw [hshuts.segmentsOut] at hseg
        cases List.mem_append.mp hseg with
        | inl hold => exact h.emitted seg hold hcontent
        | inr hrst =>
            obtain ⟨-, -, hfin, hpayload⟩ := mem_rstOut hrst
            rw [hfin, hpayload] at hcontent
            exact absurd hcontent (by simp)
  | false =>
      have hruns := runs_of_not_shutsDown h.drained hdown
      obtain ⟨⟨whole, firsts, n, fin, hsent⟩, hedge, hdrained⟩ := h.prepared op
      obtain ⟨pushed, firsts', n', fin', hemit⟩ := driven_emitted hsent hedge
      have hwaits : (e.inbound op).recieveIsn = false →
          (e.driven op).wdRightEdge ≤ 1 ∧ (e.driven op).nextSeqno ≤ 1 := by
        intro hafter
        obtain ⟨hbefore, hnone⟩ := unopened_before hack hafter
        obtain ⟨hright, hnext⟩ := driven_within_edge hsent hedge hnone
        obtain ⟨h1, h2⟩ := h.waits hbefore
        omega
      refine ⟨⟨whole, firsts', n', fin', ?_⟩, ?_, ?_, ?_, ?_⟩
      · rw [hruns.sender]
        exact hemit.sent.drained
      · rw [hruns.sender]
        exact hemit.edge.drained
      · rw [hruns.sender]
      · rw [hruns.sender, hruns.receiver]
        exact hwaits
      · intro seg hseg
        rw [hruns.segmentsOut] at hseg
        cases List.mem_append.mp hseg with
        | inl hold => exact h.emitted seg hold
        | inr hnew =>
            obtain ⟨orig, horig, rfl⟩ := List.mem_map.mp hnew
            rw [hemit.segmentsOut, hdrained, List.nil_append] at horig
            intro hcontent
            rw [TCPConnection.stamp_payload, TCPConnection.stamp_fin] at hcontent
            by_cases hisn : (e.inbound op).recieveIsn = true
            · -- a SYN has been received, so the stamp acknowledges
              have hsome : ∃ ackno, (e.inbound op).ackno = some ackno := by
                unfold TCPReceiver.ackno
                rw [if_pos hisn]
                split_ifs <;> exact ⟨_, rfl⟩
              obtain ⟨ackno, hackno⟩ := hsome
              exact (TCPConnection.stamp_of_some _ orig hackno).1
            -- no SYN yet: all that has been sent is our own SYN
            · have hle := (hwaits (by simpa using hisn)).2
              rw [hemit.sent.next] at hle
              have hbare : orig.payload = [] ∧ orig.header.fin = false := by
                rcases hemit.kinds orig horig with hcopy | ⟨m, -, -, heq⟩
                · exact hemit.sent.shape.bare_of_span_le hle hcopy
                · rw [heq]
                  exact ⟨rfl, rfl⟩
              rw [hbare.1, hbare.2] at hcontent
              exact absurd hcontent (by simp)

end Endpoint

namespace Network

/-- No segment with an acknowledgment and without a SYN reaches a side that has not
received a SYN. -/
def AcksAfterSyn (net : Network) : NetworkOp → Prop
  | .deliver side i =>
      ∀ seg ∈ (net.endpoint side.other).connection.segmentsOut[i]?,
        seg.header.ack = true → seg.header.syn = false →
          (net.endpoint side).connection.receiver.recieveIsn = true
  | _ => True

instance (net : Network) : ∀ op, Decidable (net.AcksAfterSyn op)
  | .deliver side i => inferInstanceAs (Decidable (∀ seg ∈
      (net.endpoint side.other).connection.segmentsOut[i]?, _ → _ → _))
  | .connect _ => isTrue trivial
  | .write _ _ => isTrue trivial
  | .endInputStream _ => isTrue trivial
  | .tick _ _ => isTrue trivial
  | .read _ _ => isTrue trivial

/-- Every segment with payload or FIN carries an acknowledgment, and a side that has
not received a SYN has sent nothing but its own. -/
def HandshakeFirst (net : Network) : Prop :=
  ∀ side, (∀ seg ∈ (net.endpoint side).connection.segmentsOut, Acknowledging seg) ∧
    ((net.endpoint side).connection.receiver.recieveIsn = false →
      (net.endpoint side).connection.sender.nextSeqnoAbsolute ≤ 1)

/-- What the condition on deliveries says at the side where they happen. -/
theorem AcksAfterSyn.at_side {net : Network} {op : NetworkOp} (h : net.AcksAfterSyn op)
    {side : Side} {seg : TCPSegment} (hreq : net.request op = some (side, .receive seg)) :
    seg.header.ack = true → seg.header.syn = false →
      (net.endpoint side).connection.receiver.recieveIsn = true := by
  cases op with
  | deliver side' i =>
      obtain ⟨seg', hget, heq⟩ := Option.map_eq_some_iff.mp hreq
      obtain ⟨rfl, hsame⟩ := Prod.mk.inj heq
      rw [← ConnectionOp.receive.inj hsame]
      exact h seg' hget
  | connect side' => simp [request] at hreq
  | write side' data => simp [request] at hreq
  | endInputStream side' => simp [request] at hreq
  | tick side' ms => simp [request] at hreq
  | read side' len => simp [request] at hreq

/-- Both sides keep the invariant of the handshake. -/
theorem opening_step {net : Network} (h : ∀ side, (net.endpoint side).Opening) {op : NetworkOp}
    (hop : net.AcksAfterSyn op) : ∀ side, ((net.step op).endpoint side).Opening := by
  rcases net.step_cases op with heq | ⟨side, cop, hreq, heq, -⟩
  · rw [heq]
    exact h
  · intro there
    rw [heq]
    cases side.eq_or_eq_other there with
    | inl hhere =>
        subst hhere
        rw [act_endpoint_self]
        refine (h there).step ?_
        intro seg hseg
        subst hseg
        exact hop.at_side hreq
    | inr hother =>
        subst hother
        rw [act_endpoint_other]
        exact h side.other

end Network

/-- **The handshake completes before data flows**, in every run in which no bare
acknowledgment overtakes the peer's SYN. -/
theorem handshake_before_data {cfg : Side → TCPConfig} {net : Network}
    (hr : Run.Reach Network.step Network.AcksAfterSyn (Network.start cfg) net) :
    net.HandshakeFirst := by
  have hopening : ∀ side, (net.endpoint side).Opening :=
    Run.Reach.invariant (P := fun net => ∀ side, (net.endpoint side).Opening) hr
      (fun side => Endpoint.opening_start (cfg side)) fun _ _ hop h => Network.opening_step h hop
  intro side
  exact ⟨(hopening side).emitted, fun hno => ((hopening side).waits hno).2⟩

/-- An active and a passive open, and the first byte. -/
theorem handshake_before_first_byte :
    ((Run.exec Network.step (Network.start fun _ => { isn := ⟨0⟩ })
      [.connect .left, .deliver .right 0, .deliver .left 0, .write .left [120]]).endpoint .left
        ).connection.segmentsOut.length = 3 ∧
    (Run.exec Network.step (Network.start fun _ => { isn := ⟨0⟩ })
      [.connect .left, .deliver .right 0, .deliver .left 0, .write .left [120]]).HandshakeFirst :=
  ⟨by decide +kernel, handshake_before_data (Run.Reach.exec .start (by decide +kernel))⟩

/-- Both sides open; the bare acknowledgment of the second SYN arrives before the
first SYN does, and a byte goes out without an acknowledgment. -/
theorem simultaneous_open_data_without_ack :
    Run.Reach Network.step (fun _ _ => True) (Network.start fun _ => { isn := ⟨0⟩ })
      (Run.exec Network.step (Network.start fun _ => { isn := ⟨0⟩ })
        [.connect .left, .connect .right, .write .right [120], .deliver .left 0,
          .deliver .right 1]) ∧
    ¬ (Run.exec Network.step (Network.start fun _ => { isn := ⟨0⟩ })
        [.connect .left, .connect .right, .write .right [120], .deliver .left 0,
          .deliver .right 1]).HandshakeFirst :=
  ⟨Run.Reach.exec .start (by decide +kernel),
    fun h => absurd (h .right).1 (by decide +kernel)⟩

end Sponge

import Sponge.Connection.Inbound
import Sponge.Network.System

/-!
# Streams and acknowledgments across the network

`Direction a b` is the invariant of the stream that runs from `a` to `b`: what `a`
emits belongs to the stream, what `b` has assembled is a prefix of it, and no
acknowledgment that `b` has emitted, and none that `a` has accepted, runs ahead of
what `b` has assembled.  It is kept by every operation at either side, so it holds
in every run, in both directions.  The integrity of the streams and the safety of
the acknowledgments are read off it.
-/

namespace Sponge

/-- The largest stream for which sequence numbers are told apart. -/
def streamBound : Nat := 2 ^ 31 - 2

/-- Everything ever placed in the inbound stream, read or still buffered. -/
def Endpoint.received (e : Endpoint) : List Byte :=
  e.taken ++ e.connection.receiver.streamOut.buffer

/-- `b` has assembled all of a segment sent from `isn`: its SYN, its payload at the
right place, its FIN. -/
def Assembled (b : Endpoint) (isn : WrappingInt32) (seg : TCPSegment) : Prop :=
  (seg = TCPSender.segment isn 0 [] true false ∧ b.connection.receiver.recieveIsn = true) ∨
    ∃ k payload flag, seg = TCPSender.segment isn (1 + k) payload false flag ∧
      payload = (b.received.drop k).take payload.length ∧
      k + payload.length ≤ b.received.length ∧
      (flag = true → b.connection.receiver.streamOut.inputEnded = true)

/-- The invariant of the stream from `a` to `b`; `gone` are the segments that have
left `a`'s retransmission buffer. -/
structure Direction (a b : Endpoint) (gone : List SegNode) : Prop where
  sends : ∃ firsts n fin, a.Sends firsts n fin
  inbound : Inbound b.connection.receiver b.taken a.connection.sender.isn a.accepted a.ended
  emitted : ∀ seg ∈ b.connection.segmentsOut, seg.header.ack = true →
    ∃ x ≤ b.connection.receiver.ackLimit, seg.header.ackno = wrap x a.connection.sender.isn
  acked : a.connection.sender.curAckIndex ≤ b.connection.receiver.ackLimit
  assembled : ∀ node ∈ gone, Assembled b a.connection.sender.isn node.seg

/-- What has been assembled stays so while the output grows. -/
theorem Assembled.mono {b b' : Endpoint} {isn : WrappingInt32} {seg : TCPSegment}
    (h : Assembled b isn seg) (hgrow : b.received <+: b'.received)
    (hopen : b.connection.receiver.recieveIsn = true → b'.connection.receiver.recieveIsn = true)
    (hend : b.connection.receiver.streamOut.inputEnded = true →
      b'.connection.receiver.streamOut.inputEnded = true) : Assembled b' isn seg := by
  obtain ⟨more, hmore⟩ := hgrow
  rcases h with ⟨hsyn, hrecv⟩ | ⟨k, payload, flag, hseg, hslice, hk, hflag⟩
  · exact Or.inl ⟨hsyn, hopen hrecv⟩
  · refine Or.inr ⟨k, payload, flag, hseg, ?_, ?_, fun hf => hend (hflag hf)⟩
    · rw [← hmore, List.drop_append_of_le_length (by omega), List.take_append_of_le_length]
      · exact hslice
      · rw [List.length_drop]
        omega
    · rw [← hmore, List.length_append]
      omega

namespace Direction

variable {a b : Endpoint} {gone : List SegNode} {op : ConnectionOp}

theorem start {cfg cfg' : TCPConfig} (hpos : 1 ≤ cfg'.recvCapacity)
    (hlt : cfg'.recvCapacity < 2 ^ 62) :
    Direction (Endpoint.start cfg) (Endpoint.start cfg') [] where
  sends := ⟨[], 0, false, Endpoint.sends_start cfg⟩
  inbound := Inbound.start hpos hlt cfg.isn
  emitted := by simp [Endpoint.start, TCPConnection.new]
  acked := Nat.zero_le _
  assembled := by simp

/-- What has been received is a prefix of what was written. -/
theorem received_eq (h : Direction a b gone) :
    b.received = a.accepted.take b.connection.receiver.reassembler.curIdx :=
  h.inbound.tracks.output

/-! ## A step of the sending side -/

/-- An acknowledgment that arrives is unwrapped to the number it was sent for. -/
theorem unwrap_ack (h : Direction a b gone) (hlen : a.accepted.length < streamBound)
    {seg : TCPSegment} (hseg : seg ∈ b.connection.segmentsOut) (hack : seg.header.ack = true) :
    unwrap seg.header.ackno a.connection.sender.isn a.connection.sender.nextSeqno ≤
      b.connection.receiver.ackLimit := by
  obtain ⟨x, hx, heq⟩ := h.emitted seg hseg hack
  obtain ⟨firsts, n, fin, hsends⟩ := h.sends
  have hlimit := h.inbound.ackLimit_le
  have hbound : streamBound = 2147483646 := rfl
  -- sender and receiver are less than half the sequence space apart
  have hnext : a.connection.sender.nextSeqno ≤ a.accepted.length + 2 := by
    by_cases hzero : a.connection.sender.nextSeqno = 0
    · omega
    · have hnum := hsends.sent.next_eq hzero
      have hle := hsends.sent.shape.le_length
      split_ifs at hnum <;> omega
  rw [heq, unwrap_wrap_of_near _ (by omega) (by omega) (by omega) (by omega)]
  exact hx

/-- Where a segment that leaves the retransmission buffer stands in the stream. -/
theorem node_assembled (h : Direction a b gone) {firsts : List TCPSegment} {n : Nat} {fin : Bool}
    (hsends : a.Sends firsts n fin) {node : SegNode}
    (hnode : node ∈ a.connection.sender.segBuffer)
    (hacked : node.ackIndex ≤ b.connection.receiver.ackLimit) :
    Assembled b a.connection.sender.isn node.seg := by
  have hopen : b.connection.receiver.recieveIsn = true := by
    by_contra hno
    unfold TCPReceiver.ackLimit at hacked
    rw [if_neg hno] at hacked
    rcases hsends.sent.node_shape hnode with ⟨-, hindex⟩ | ⟨k, payload, flag, -, -, hindex, -⟩
    · omega
    · omega
  rcases hsends.sent.node_shape hnode with
    ⟨hseg, -⟩ | ⟨k, payload, flag, hseg, hslice, hindex, hle, hflag⟩
  · exact Or.inl ⟨hseg, hopen⟩
  · have hcur := h.inbound.tracks.cur_le
    have hcarried := hsends.sent.shape.le_length
    have hwritten := h.inbound.bytesWritten_eq
    unfold TCPReceiver.ackLimit at hacked
    rw [if_pos hopen, hwritten, hindex] at hacked
    have hfits : k + payload.length ≤ b.connection.receiver.reassembler.curIdx := by
      -- where the FIN has arrived, so has every byte
      by_cases hend : b.connection.receiver.streamOut.inputEnded = true
      · have hall := (h.inbound.at_end hend).2
        omega
      · rw [if_neg hend] at hacked
        omega
    refine Or.inr ⟨k, payload, flag, hseg, ?_, ?_, ?_⟩
    · rw [h.received_eq, List.drop_take, List.take_take, min_eq_left (by omega)]
      exact hslice
    · rw [h.received_eq, List.length_take]
      omega
    · intro hf
      have hlast := (hflag hf).2
      have hwhole := (hsends.fin_last (hflag hf).1).2
      by_contra hend
      rw [if_neg hend, if_pos hf] at hacked
      omega

/-- The peer's view of the stream after a step of its sender. -/
theorem inbound_step (h : Direction a b gone) (hop : a.WritesBeforeEnd op) :
    Inbound b.connection.receiver b.taken (a.step op).connection.sender.isn
      (a.step op).accepted (a.step op).ended := by
  obtain ⟨firsts, n, fin, hsends⟩ := h.sends
  rw [hsends.step_isn hop]
  cases op with
  | write data =>
      have hopen : a.ended = false := hop
      have hin := h.inbound
      show Inbound _ _ _ (a.accepted ++ a.connection.sender.stream.accepted data) a.ended
      rw [hopen] at hin ⊢
      exact hin.append _
  | endInputStream => exact h.inbound.of_ended
  | connect => exact h.inbound
  | tick ms => exact h.inbound
  | read len => exact h.inbound
  | receive seg => exact h.inbound

/-- No acknowledgment that is accepted runs ahead of what has been assembled. -/
theorem acked_step (h : Direction a b gone) (hop : a.WritesBeforeEnd op)
    (hrecv : ∀ seg, op = .receive seg → seg ∈ b.connection.segmentsOut)
    (hlen : a.accepted.length < streamBound) :
    (a.step op).connection.sender.curAckIndex ≤ b.connection.receiver.ackLimit := by
  obtain ⟨firsts, n, fin, hsends⟩ := h.sends
  cases hdown : a.shutsDown op with
  | true =>
      rw [(Endpoint.shuts_of_shutsDown hdown).sender]
      exact h.acked
  | false =>
      rw [(Endpoint.runs_of_not_shutsDown hsends.drained hdown).sender]
      show (a.driven op).curAckIndex ≤ _
      rcases hsends.driven_curAckIndex hop with hsame | ⟨seg, hseg, hack, -, hbelow⟩
      · rw [hsame]
        exact h.acked
      · exact le_trans hbelow (h.unwrap_ack hlen (hrecv seg hseg) hack)

/-- A segment leaves the retransmission buffer only when it is acknowledged. -/
theorem leaving_le (h : Direction a b gone) (hop : a.WritesBeforeEnd op) {node : SegNode}
    (hnode : node ∈ Network.leaving a (a.step op)) :
    node ∈ a.connection.sender.segBuffer ∧
      node.ackIndex ≤ (a.step op).connection.sender.curAckIndex := by
  obtain ⟨firsts, n, fin, hsends⟩ := h.sends
  obtain ⟨hmem, hgone⟩ := List.mem_filter.mp hnode
  have hgone' : node ∉ (a.step op).connection.sender.segBuffer := of_decide_eq_true hgone
  refine ⟨hmem, ?_⟩
  cases hdown : a.shutsDown op with
  | true =>
      rw [(Endpoint.shuts_of_shutsDown hdown).sender] at hgone'
      exact absurd hmem hgone'
  | false =>
      rw [(Endpoint.runs_of_not_shutsDown hsends.drained hdown).sender] at hgone' ⊢
      obtain ⟨pushed, firsts', n', fin', hemit⟩ := hsends.driven hop
      rw [← Endpoint.prepared_segBuffer a op] at hmem
      cases hemit.kept node hmem with
      | inl hstays => exact absurd hstays hgone'
      | inr hacked => exact hacked

/-- A step of the sending side. -/
theorem step_sender (h : Direction a b gone) (hop : a.WritesBeforeEnd op)
    (hrecv : ∀ seg, op = .receive seg → seg ∈ b.connection.segmentsOut)
    (hlen : a.accepted.length < streamBound) :
    Direction (a.step op) b (gone ++ Network.leaving a (a.step op)) := by
  obtain ⟨firsts, n, fin, hsends⟩ := h.sends
  have hisn := hsends.step_isn hop
  have hacked := h.acked_step hop hrecv hlen
  exact {
    sends := hsends.step hop
    inbound := h.inbound_step hop
    emitted := by
      rw [hisn]
      exact h.emitted
    acked := hacked
    assembled := by
      intro node hnode
      rw [hisn]
      cases List.mem_append.mp hnode with
      | inl hold => exact h.assembled node hold
      | inr hnew =>
          obtain ⟨hmem, hle⟩ := h.leaving_le hop hnew
          exact h.node_assembled hsends hmem (le_trans hle hacked) }

/-! ## A step of the receiving side -/

/-- The receiving half of a step: the output, what is acknowledged and what is known
only grow. -/
structure Grows (b b' : Endpoint) : Prop where
  cur : b.connection.receiver.reassembler.curIdx ≤ b'.connection.receiver.reassembler.curIdx
  limit : b.connection.receiver.ackLimit ≤ b'.connection.receiver.ackLimit
  isn : b.connection.receiver.recieveIsn = true → b'.connection.receiver.recieveIsn = true
  ended : b.connection.receiver.streamOut.inputEnded = true →
    b'.connection.receiver.streamOut.inputEnded = true

/-- What arrives belongs to the peer's stream, and is assembled. -/
theorem inbound_receive (h : Direction a b gone)
    (hdrained : b.connection.sender.segmentsOut = [])
    (hrecv : ∀ seg, op = .receive seg → seg ∈ a.connection.segmentsOut)
    (hlen : a.accepted.length < streamBound) :
    Inbound (b.step op).connection.receiver (b.step op).taken a.connection.sender.isn
        a.accepted a.ended ∧
      Grows b (b.step op) := by
  cases hdown : b.shutsDown op with
  | true =>
      have hshuts := Endpoint.shuts_of_shutsDown hdown
      have htaken : (b.step op).taken = b.taken := by
        rcases Endpoint.shutsDown_cases hdown with ⟨ms, rfl, -⟩ | ⟨seg, rfl, -⟩
        · rfl
        · rfl
      rw [htaken, hshuts.receiver]
      refine ⟨h.inbound.setError, ?_⟩
      constructor <;> rw [hshuts.receiver]
      · exact le_refl _
      · exact le_refl _
      · exact fun hr => hr
      · exact fun he => he
  | false =>
      have hruns := Endpoint.runs_of_not_shutsDown hdrained hdown
      have hsame : b.inbound op = b.connection.receiver → Grows b (b.step op) := by
        intro heq
        constructor <;> rw [hruns.receiver, heq]
        · exact fun hr => hr
        · exact fun he => he
      rw [hruns.receiver]
      cases op with
      | connect => exact ⟨h.inbound, hsame rfl⟩
      | write data => exact ⟨h.inbound, hsame rfl⟩
      | endInputStream => exact ⟨h.inbound, hsame rfl⟩
      | tick ms => exact ⟨h.inbound, hsame rfl⟩
      | read len =>
          refine ⟨h.inbound.read len, ?_⟩
          constructor <;> rw [hruns.receiver]
          · exact le_refl _
          · exact le_refl _
          · exact fun hr => hr
          · exact fun he => he
      | receive seg =>
          obtain ⟨firsts, n, fin, hsends⟩ := h.sends
          have hrst : seg.header.rst = false := hdown
          have hwire : OnWire a.connection.sender.isn a.accepted a.ended seg := by
            cases hsends.wire seg (hrecv seg rfl) with
            | inl hbad =>
                rw [hrst] at hbad
                exact absurd hbad (by simp)
            | inr hgood => exact hgood
          obtain ⟨hin, hcur⟩ := h.inbound.segmentReceived hwire hlen
          refine ⟨hin, ?_⟩
          constructor <;> rw [hruns.receiver]
          · exact hcur
          · exact h.inbound.ackLimit_mono hwire hlen
          · exact fun hr => TCPReceiver.segmentReceived_keeps_isn hr seg
          · exact fun he => TCPReceiver.segmentReceived_keeps_end he seg

/-- Every acknowledgment is stamped from the receiver's state. -/
theorem emitted_step (h : Direction a b gone) {firsts : List TCPSegment} {n : Nat} {fin : Bool}
    (hback : b.Sends firsts n fin) (hop : b.WritesBeforeEnd op)
    (hin : Inbound (b.step op).connection.receiver (b.step op).taken a.connection.sender.isn
      a.accepted a.ended)
    (hgrows : Grows b (b.step op)) (hlen : a.accepted.length < streamBound) :
    ∀ seg ∈ (b.step op).connection.segmentsOut, seg.header.ack = true →
      ∃ x ≤ (b.step op).connection.receiver.ackLimit,
        seg.header.ackno = wrap x a.connection.sender.isn := by
  intro seg hseg hack
  have hearlier : seg ∈ b.connection.segmentsOut →
      ∃ x ≤ (b.step op).connection.receiver.ackLimit,
        seg.header.ackno = wrap x a.connection.sender.isn := by
    intro hold
    obtain ⟨x, hx, heq⟩ := h.emitted seg hold hack
    exact ⟨x, le_trans hx hgrows.limit, heq⟩
  cases hdown : b.shutsDown op with
  | true =>
      rw [(Endpoint.shuts_of_shutsDown hdown).segmentsOut] at hseg
      cases List.mem_append.mp hseg with
      | inl hold => exact hearlier hold
      | inr hrst =>
          rw [(Endpoint.mem_rstOut hrst).2.1] at hack
          exact absurd hack (by simp)
  | false =>
      have hruns := Endpoint.runs_of_not_shutsDown hback.drained hdown
      rw [hruns.segmentsOut] at hseg
      cases List.mem_append.mp hseg with
      | inl hold => exact hearlier hold
      | inr hnew =>
          obtain ⟨orig, horig, rfl⟩ := List.mem_map.mp hnew
          obtain ⟨pushed, firsts', n', fin', hemit⟩ := hback.driven hop
          have hpushed : orig ∈ pushed := by
            rw [hemit.segmentsOut, (hback.prepared hop).drained, List.nil_append] at horig
            exact horig
          rw [hruns.receiver] at hin ⊢
          by_cases hisn : (b.inbound op).recieveIsn = true
          · have hstamp := TCPConnection.stamp_of_some _ orig (hin.ackno_eq hisn hlen)
            exact ⟨_, le_refl _, hstamp.2⟩
          -- before the SYN there is nothing to stamp, and the sender sets no ACK itself
          · have hnone : (b.inbound op).ackno = none := if_neg hisn
            rw [TCPConnection.stamp_of_none _ orig hnone, hemit.ack_eq_false hpushed] at hack
            exact absurd hack (by simp)

/-- A step of the receiving side. -/
theorem step_receiver (h : Direction a b gone) {firsts : List TCPSegment} {n : Nat} {fin : Bool}
    (hback : b.Sends firsts n fin) (hop : b.WritesBeforeEnd op)
    (hrecv : ∀ seg, op = .receive seg → seg ∈ a.connection.segmentsOut)
    (hlen : a.accepted.length < streamBound) : Direction a (b.step op) gone := by
  obtain ⟨hin, hgrows⟩ := h.inbound_receive hback.drained hrecv hlen
  exact {
    sends := h.sends
    inbound := hin
    emitted := h.emitted_step hback hop hin hgrows hlen
    acked := le_trans h.acked hgrows.limit
    assembled := by
      intro node hnode
      refine (h.assembled node hnode).mono ?_ hgrows.isn hgrows.ended
      have hnow : (b.step op).received =
          a.accepted.take (b.step op).connection.receiver.reassembler.curIdx := hin.tracks.output
      rw [h.received_eq, hnow]
      exact List.take_prefix_take_left hgrows.cur }

end Direction

namespace Network

/-- The invariant of the whole system: both directions. -/
def Joined (net : Network) : Prop :=
  ∀ side, Direction (net.endpoint side) (net.endpoint side.other) (net.removed side)

/-- Neither stream is longer than sequence numbers can tell apart. -/
def Short (net : Network) : Prop :=
  ∀ side, (net.endpoint side).accepted.length < streamBound

theorem joined_start {cfg : Side → TCPConfig}
    (hcfg : ∀ side, 1 ≤ (cfg side).recvCapacity ∧ (cfg side).recvCapacity < 2 ^ 62) :
    (start cfg).Joined :=
  fun side => Direction.start (hcfg side.other).1 (hcfg side.other).2

/-- An operation at one side is a step of the sender of one stream and of the
receiver of the other. -/
theorem Joined.act {net : Network} (h : net.Joined) (hshort : net.Short) {side : Side}
    {op : ConnectionOp} (hop : (net.endpoint side).WritesBeforeEnd op)
    (hrecv : ∀ seg, op = .receive seg →
      seg ∈ (net.endpoint side.other).connection.segmentsOut) : (net.act side op).Joined := by
  intro there
  cases side.eq_or_eq_other there with
  | inl hhere =>
      subst hhere
      rw [act_endpoint_self, act_endpoint_other, act_removed_self]
      exact (h there).step_sender hop hrecv (hshort there)
  | inr hother =>
      subst hother
      -- the other direction: `side` is its receiver
      obtain ⟨firsts, n, fin, hback⟩ := (h side).sends
      have hdir := h side.other
      rw [Side.other_other] at hdir
      rw [Side.other_other, act_endpoint_self, act_endpoint_other, act_removed_other]
      exact hdir.step_receiver hback hop hrecv (hshort side.other)

theorem short_of_step {net : Network} {op : NetworkOp} (h : (net.step op).Short) : net.Short := by
  rcases net.step_cases op with heq | ⟨side, cop, -, heq, -⟩
  · rw [heq] at h
    exact h
  · intro there
    have hlen := h there
    rw [heq] at hlen
    cases side.eq_or_eq_other there with
    | inl hhere =>
        subst hhere
        obtain ⟨more, hmore⟩ := (net.endpoint there).step_accepted cop
        rw [act_endpoint_self, hmore, List.length_append] at hlen
        omega
    | inr hother =>
        subst hother
        rw [act_endpoint_other] at hlen
        exact hlen

theorem Joined.step {net : Network} (h : net.Joined) {op : NetworkOp}
    (hop : net.WritesBeforeEnd op) (hshort : net.Short) : (net.step op).Joined := by
  rcases net.step_cases op with heq | ⟨side, cop, hreq, heq, hrecv⟩
  · rw [heq]
    exact h
  · rw [heq]
    exact h.act hshort (hop.at_side hreq) hrecv

/-- The states reached by any run in which neither side writes after its end. -/
abbrev Reached (cfg : Side → TCPConfig) (net : Network) : Prop :=
  Run.Reach step WritesBeforeEnd (start cfg) net

theorem Reached.joined {cfg : Side → TCPConfig}
    (hcfg : ∀ side, 1 ≤ (cfg side).recvCapacity ∧ (cfg side).recvCapacity < 2 ^ 62)
    {net : Network} (hr : Reached cfg net) (hshort : net.Short) : net.Joined :=
  Run.Reach.invariant_of_bound (B := Short) (P := Joined) hr (fun _ _ hb => short_of_step hb)
    (joined_start hcfg) (fun _ _ hop hb h => h.step hop (short_of_step hb)) hshort

end Network

/-- **End-to-end stream integrity.**  Whatever the network does, what the other side
has received is a prefix of what this side has written, and its stream ends only
when this side has ended its own and everything has been received. -/
theorem end_to_end_integrity {cfg : Side → TCPConfig}
    (hcfg : ∀ side, 1 ≤ (cfg side).recvCapacity ∧ (cfg side).recvCapacity < 2 ^ 62)
    {net : Network} (hr : Network.Reached cfg net)
    (hlen : ∀ side, (net.endpoint side).accepted.length < 2 ^ 31 - 2) (side : Side) :
    (net.endpoint side.other).received <+: (net.endpoint side).accepted ∧
      ((net.endpoint side.other).connection.receiver.streamOut.inputEnded = true →
        (net.endpoint side).ended = true ∧
          (net.endpoint side.other).received = (net.endpoint side).accepted) := by
  have h := hr.joined hcfg hlen side
  rw [h.received_eq]
  refine ⟨List.take_prefix _ _, ?_⟩
  intro hend
  obtain ⟨hended, hall⟩ := h.inbound.at_end hend
  exact ⟨hended, List.take_of_length_le hall.ge⟩

/-- Configurations whose sequence numbers wrap around during the exchange. -/
def wrappingCfg : Side → TCPConfig
  | .left => { isn := ⟨4294967295⟩ }
  | .right => { isn := ⟨7⟩ }

/-- The handshake, two bytes that are delivered twice and partly read, and the
acknowledgment on its way back. -/
def shortExchange : List NetworkOp :=
  [.connect .left, .deliver .right 0, .deliver .left 0, .write .left [104, 105],
    .deliver .right 2, .read .right 1, .deliver .right 2, .deliver .left 1]

theorem end_to_end_integrity_short_exchange :
    ((Run.exec Network.step (Network.start wrappingCfg) shortExchange).endpoint .right).received =
      [104, 105] ∧
    ((Run.exec Network.step (Network.start wrappingCfg) shortExchange).endpoint .right).received <+:
      ((Run.exec Network.step (Network.start wrappingCfg) shortExchange).endpoint .left).accepted :=
  ⟨by decide +kernel,
    (end_to_end_integrity (by intro side; cases side <;> decide)
      (Run.Reach.exec .start (by decide +kernel))
      (by intro side; cases side <;> decide +kernel) .left).1⟩

/-- **Acknowledgment safety.**  Whatever the network does, what this side holds for
acknowledged has been assembled by the other side, and so has every segment that
this side has removed from its retransmission buffer. -/
theorem acknowledgment_safety {cfg : Side → TCPConfig}
    (hcfg : ∀ side, 1 ≤ (cfg side).recvCapacity ∧ (cfg side).recvCapacity < 2 ^ 62)
    {net : Network} (hr : Network.Reached cfg net)
    (hlen : ∀ side, (net.endpoint side).accepted.length < 2 ^ 31 - 2) (side : Side) :
    (net.endpoint side).connection.sender.curAckIndex ≤
        (if (net.endpoint side.other).connection.receiver.recieveIsn then
          1 + (net.endpoint side.other).connection.receiver.streamOut.bytesWritten +
            (if (net.endpoint side.other).connection.receiver.streamOut.inputEnded then 1 else 0)
        else 0) ∧
      ∀ node ∈ net.removed side, Assembled (net.endpoint side.other)
        (net.endpoint side).connection.sender.isn node.seg := by
  have h := hr.joined hcfg hlen side
  exact ⟨h.acked, h.assembled⟩

theorem acknowledgment_safety_short_exchange :
    ((Run.exec Network.step (Network.start wrappingCfg) shortExchange).removed .left).length = 2 ∧
    ∀ node ∈ (Run.exec Network.step (Network.start wrappingCfg) shortExchange).removed .left,
      Assembled ((Run.exec Network.step (Network.start wrappingCfg) shortExchange).endpoint .right)
        ((Run.exec Network.step (Network.start wrappingCfg) shortExchange).endpoint .left
          ).connection.sender.isn node.seg :=
  ⟨by decide +kernel,
    (acknowledgment_safety (by intro side; cases side <;> decide)
      (Run.Reach.exec .start (by decide +kernel))
      (by intro side; cases side <;> decide +kernel) .left).2⟩

end Sponge

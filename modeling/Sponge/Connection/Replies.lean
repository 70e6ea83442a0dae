import Sponge.Connection.Advertised
import Sponge.Connection.Dead

/-!
# What a connection answers

A segment makes a connection send through two queues and from three places: the
acknowledgment lets `fill_window` send, `send_empty_ack` answers what occupies
sequence numbers, and either may produce the SYN.  Two ends that both answered a bare
ACK by a bare ACK would never fall silent.  They do not: the only segment without a
sequence number is the one of `send_empty_ack`, and it is sent for a segment with
sequence numbers only.  Whatever is sent gets the receiver's present acknowledgment
and window when it moves from the sender's queue to the connection's.
-/

namespace Sponge

namespace TCPSender

variable {s : TCPSender} {whole : List Byte} {firsts : List TCPSegment} {n : Nat} {fin : Bool}

/-- What an acknowledgment lets the sender send occupies sequence numbers. -/
theorem Sent.takeAck_occupies (h : Sent s whole firsts n fin) (hedge : EdgeInRange s)
    (seg : TCPSegment) :
    ∃ new, (TCPConnection.takeAck s seg).segmentsOut = s.segmentsOut ++ new ∧
      ∀ out ∈ new, 1 ≤ out.lengthInSequenceSpace := by
  have hnone : ∃ new, s.segmentsOut = s.segmentsOut ++ new ∧
      ∀ out ∈ new, 1 ≤ out.lengthInSequenceSpace := ⟨[], by simp, by simp⟩
  unfold TCPConnection.takeAck
  split_ifs
  · cases hrej : s.rejects (unwrap seg.header.ackno s.isn s.nextSeqno) with
    | true =>
        rw [ackReceived_of_rejects seg.header.win hrej]
        exact hnone
    | false =>
        obtain ⟨-, hnext⟩ := accepts_iff.mp hrej
        obtain ⟨hwlt, -⟩ := hedge.widened hnext seg.header.win
        obtain ⟨new, n', fin', hadv, hsent, -⟩ :=
          h.readyToFill_fillWindow hedge seg.header.win hrej
        have heq := ackReceived_of_accepts seg.header.win rfl hrej hwlt hadv.wdRightEdge
        have hout := hadv.segmentsOut
        rw [readyToFill_segmentsOut] at hout
        rw [heq]
        refine ⟨new, hout, fun out hmem => ?_⟩
        exact hsent.shape.length_pos out (List.mem_append_right _ hmem)
  · exact hnone

end TCPSender

namespace TCPConnection

@[simp] theorem stamp_lengthInSequenceSpace (r : TCPReceiver) (seg : TCPSegment) :
    (stamp r seg).lengthInSequenceSpace = seg.lengthInSequenceSpace := by
  rw [TCPSegment.lengthInSequenceSpace, stamp_payload, stamp_syn, stamp_fin]
  rfl

end TCPConnection

namespace TCPReceiver

/-- Once the peer's SYN has been received there is something to acknowledge. -/
theorem exists_ackno {r : TCPReceiver} (h : r.recieveIsn = true) :
    ∃ ackno, r.ackno = some ackno := by
  rw [ackno, if_pos h]
  split_ifs
  · exact ⟨_, rfl⟩
  · exact ⟨_, rfl⟩

end TCPReceiver

namespace Endpoint

variable {e : Endpoint}

/-- The segment carries the acknowledgment and the window of the receiver. -/
def Acknowledges (r : TCPReceiver) (ackno : WrappingInt32) (out : TCPSegment) : Prop :=
  out.header.ack = true ∧ out.header.ackno = ackno ∧
    out.header.win.toNat = min 65535 r.windowSize

/-- An empty segment is answered by segments that occupy sequence numbers, if at all. -/
theorem Sending.receive_occupies (h : e.Sending) {seg : TCPSegment}
    (hrst : seg.header.rst = false) (hempty : seg.lengthInSequenceSpace = 0) :
    ∃ new, (e.step (.receive seg)).connection.segmentsOut = e.connection.segmentsOut ++ new ∧
      ∀ out ∈ new, 1 ≤ out.lengthInSequenceSpace := by
  have hruns : Runs e (.receive seg) := runs_of_not_shutsDown h.1 hrst
  obtain ⟨hdrained, hedge, whole, firsts, n, fin, hsent⟩ := h
  obtain ⟨new, hout, hpos⟩ := hsent.takeAck_occupies hedge seg
  rw [hdrained, List.nil_append] at hout
  have hdriven : e.driven (.receive seg) = TCPConnection.takeAck e.connection.sender seg := by
    rw [Endpoint.driven, TCPConnection.respond, if_neg (by omega)]
  refine ⟨new.map (TCPConnection.stamp (e.inbound (.receive seg))), ?_, ?_⟩
  · rw [hruns.segmentsOut, hdriven, hout]
  · intro out hmem
    obtain ⟨sent, hsent, rfl⟩ := List.mem_map.mp hmem
    rw [TCPConnection.stamp_lengthInSequenceSpace]
    exact hpos sent hsent

/-- A segment that occupies sequence numbers is answered. -/
theorem Settled.receive_answered (h : e.Settled) {seg : TCPSegment}
    (hrst : seg.header.rst = false) (hlen : 0 < seg.lengthInSequenceSpace) :
    ∃ new, (e.step (.receive seg)).connection.segmentsOut = e.connection.segmentsOut ++ new ∧
      new ≠ [] := by
  obtain ⟨-, new, hout, hquiet⟩ := h.step (.receive seg)
  refine ⟨new, hout, fun hnil => ?_⟩
  rcases hquiet.mp hnil with hset | ⟨hzero, -⟩
  · rw [hrst] at hset
    exact absurd hset (by simp)
  · omega

/-- What an operation sends carries the receiver's state after it. -/
theorem Runs.acknowledges {op : ConnectionOp} (h : Runs e op) :
    ∃ new, (e.step op).connection.segmentsOut = e.connection.segmentsOut ++ new ∧
      (e.step op).connection.sender.segmentsOut = [] ∧
      ((e.step op).connection.receiver.recieveIsn = true →
        ∃ ackno, (e.step op).connection.receiver.ackno = some ackno ∧
          ∀ out ∈ new, Acknowledges (e.step op).connection.receiver ackno out) := by
  refine ⟨_, h.segmentsOut, by rw [h.sender], ?_⟩
  rw [h.receiver]
  intro hsyn
  obtain ⟨ackno, hackno⟩ := TCPReceiver.exists_ackno hsyn
  refine ⟨ackno, hackno, fun out hmem => ?_⟩
  obtain ⟨sent, -, rfl⟩ := List.mem_map.mp hmem
  obtain ⟨hack, hnumber⟩ := TCPConnection.stamp_of_some _ sent hackno
  refine ⟨hack, hnumber, ?_⟩
  rw [TCPConnection.stamp_win, Nat.min_comm]

end Endpoint

/-- **No acknowledgment storms, and no silent data.**  In every reachable state: a segment
without sequence numbers is answered, if at all, by segments that occupy some; a segment
with sequence numbers is answered; and an operation that does not shut the connection down
leaves the sender's queue empty, and everything it sends after the peer's SYN carries the
receiver's present acknowledgment and window. -/
theorem replies_of_connection {cfg : TCPConfig} {e : Endpoint}
    (hr : Run.Reach Endpoint.step (fun _ _ => True) (Endpoint.start cfg) e) :
    (∀ seg : TCPSegment, seg.header.rst = false → seg.lengthInSequenceSpace = 0 →
      ∃ new, (e.connection.segmentReceived seg).segmentsOut = e.connection.segmentsOut ++ new ∧
        ∀ out ∈ new, 1 ≤ out.lengthInSequenceSpace) ∧
    (∀ seg : TCPSegment, seg.header.rst = false → 0 < seg.lengthInSequenceSpace →
      ∃ new, (e.connection.segmentReceived seg).segmentsOut = e.connection.segmentsOut ++ new ∧
        new ≠ []) ∧
    ∀ op : ConnectionOp, e.shutsDown op = false →
      ∃ new, (e.step op).connection.segmentsOut = e.connection.segmentsOut ++ new ∧
        (e.step op).connection.sender.segmentsOut = [] ∧
        ((e.step op).connection.receiver.recieveIsn = true →
          ∃ ackno, (e.step op).connection.receiver.ackno = some ackno ∧
            ∀ out ∈ new,
              Endpoint.Acknowledges (e.step op).connection.receiver ackno out) := by
  have hsending : e.Sending := Run.Reach.invariant (P := Endpoint.Sending) hr
    (Endpoint.sending_start cfg) fun _ op _ h => h.step op
  have hsettled : e.Settled := Run.Reach.invariant (P := Endpoint.Settled) hr
    (Endpoint.settled_start cfg) fun _ op _ h => (h.step op).1
  refine ⟨fun seg hrst hempty => hsending.receive_occupies hrst hempty,
    fun seg hrst hlen => hsettled.receive_answered hrst hlen, fun op hdown => ?_⟩
  exact (Endpoint.runs_of_not_shutsDown hsettled.drained hdown).acknowledges

/-- A byte waits under a closed window until a bare ACK opens it. -/
def waitingForWindow : List ConnectionOp :=
  [.connect,
    .receive { header := { syn := true, ack := true, seqno := ⟨50⟩, ackno := ⟨1⟩, win := 0 } },
    .write [97]]

/-- The bare ACK is answered by the byte, not by another bare ACK. -/
theorem replies_of_connection_bare_ack :
    ∃ new,
      ((Run.exec Endpoint.step (Endpoint.start { isn := ⟨0⟩ })
          waitingForWindow).connection.segmentReceived
        { header := { ack := true, seqno := ⟨51⟩, ackno := ⟨1⟩, win := 5 } }).segmentsOut =
        (Run.exec Endpoint.step (Endpoint.start { isn := ⟨0⟩ })
          waitingForWindow).connection.segmentsOut ++ new ∧
      ∀ out ∈ new, 1 ≤ out.lengthInSequenceSpace :=
  (replies_of_connection (Run.Reach.exec .start
    (Run.Admitted.of_forall (fun _ _ => trivial) _ waitingForWindow))).1
    { header := { ack := true, seqno := ⟨51⟩, ackno := ⟨1⟩, win := 5 } } rfl rfl

end Sponge

import Sponge.Connection.Dead
import Sponge.Receiver.Runs

/-!
# A listening connection

A fresh connection on which only `tick` and `segment_received` are called, and that
receives no SYN.  What it can ignore leaves everything but its clock unchanged; a
RST closes it, and whatever occupies sequence numbers or acknowledges its own
initial sequence number makes it send a SYN.
-/

namespace Sponge

/-- Near checkpoint zero, `unwrap` is the distance from the initial sequence number. -/
theorem unwrap_at_zero (n isn : WrappingInt32) :
    unwrap n isn 0 = (maxInt - isn.rawValue.toNat + n.rawValue.toNat) % maxInt := by
  have hlt : (maxInt - isn.rawValue.toNat + n.rawValue.toNat) % maxInt < maxInt :=
    Nat.mod_lt _ (by decide)
  have hmax : maxInt = 4294967296 := rfl
  simp only [unwrap, Nat.zero_div, Nat.zero_mul]
  generalize (maxInt - isn.rawValue.toNat + n.rawValue.toNat) % maxInt = offset at *
  rw [Word.add_of_lt (by omega), Nat.add_zero]
  by_cases hpos : offset > 0
  · rw [if_pos hpos, if_pos (Or.inr hlt)]
  · have hzero : offset = 0 := by omega
    rw [if_neg hpos, hzero, Word.sub_of_le (by norm_num) le_rfl, if_neg (by simp)]

theorem unwrap_at_zero_eq_zero_iff (n isn : WrappingInt32) : unwrap n isn 0 = 0 ↔ n = isn := by
  have hn := n.rawValue.toNat_lt
  have hisn := isn.rawValue.toNat_lt
  rw [unwrap_at_zero, maxInt]
  constructor
  · intro hzero
    apply WrappingInt32.ext_toNat
    omega
  · rintro rfl
    omega

namespace TCPConnection

/-- The connection is still in LISTEN, and nothing has gone wrong. -/
structure Listening (c : TCPConnection) : Prop where
  silent : c.segmentsOut = []
  active : c.active = true
  inbound_ok : c.receiver.streamOut.error = false
  outbound_ok : c.sender.stream.error = false
  no_syn : c.sender.nextSeqno = 0
  ackno : c.receiver.ackno = none

/-- A fresh connection, apart from its clock. -/
structure Fresh (cfg : TCPConfig) (c : TCPConnection) : Prop where
  receiver : c.receiver = TCPReceiver.new cfg.recvCapacity
  sender : c.sender = TCPSender.new cfg.sendCapacity cfg.rtTimeout cfg.isn
  close : c.close = false
  segmentsOut : c.segmentsOut = []

theorem fresh_new (cfg : TCPConfig) : Fresh cfg (new cfg) := ⟨rfl, rfl, rfl, rfl⟩

section Fresh

variable {cfg : TCPConfig} {c : TCPConnection}

theorem Fresh.listening (h : Fresh cfg c) : c.Listening where
  silent := h.segmentsOut
  active := by rw [active, h.close]; rfl
  inbound_ok := by rw [h.receiver]; rfl
  outbound_ok := by rw [h.sender]; rfl
  no_syn := by rw [h.sender]; rfl
  ackno := by rw [h.receiver]; rfl

/-- Flushing a sender that has nothing queued leaves a fresh connection fresh. -/
theorem Fresh.clean (h : Fresh cfg c) : Fresh cfg c.clean where
  receiver := by rw [clean_receiver, h.receiver]
  sender := by rw [clean_sender, h.sender]; rfl
  close := by
    have hopen : c.streamBothEof = false := by
      rw [streamBothEof, h.receiver]
      rfl
    rw [clean_close, h.close, hopen]
    rfl
  segmentsOut := by rw [clean_segmentsOut, h.segmentsOut, h.sender]; rfl

theorem Fresh.tick (h : Fresh cfg c) (ms : Nat) : Fresh cfg (c.tick ms) := by
  have hnone : c.sender.consecutiveRetransmissions = 0 := by rw [h.sender]; rfl
  have hidle : c.sender.tick ms = c.sender := TCPSender.tick_of_nil (by rw [h.sender]; rfl) ms
  unfold TCPConnection.tick
  dsimp only
  rw [if_neg (by rw [hnone]; decide), hidle]
  exact Fresh.clean ⟨h.receiver, h.sender, h.close, h.segmentsOut⟩

/-- An acknowledgment of anything but our initial sequence number is rejected. -/
theorem takeAck_of_unsent {s : TCPSender} {seg : TCPSegment} (hnext : s.nextSeqno = 0)
    (hack : seg.header.ack = true → seg.header.ackno ≠ s.isn) : takeAck s seg = s := by
  unfold takeAck
  split_ifs with hflag
  · have hpos : unwrap seg.header.ackno s.isn s.nextSeqno ≠ 0 := by
      rw [hnext]
      exact fun hzero => hack hflag ((unwrap_at_zero_eq_zero_iff _ _).mp hzero)
    apply TCPSender.ackReceived_of_rejects
    rw [TCPSender.rejects, decide_eq_true_eq]
    omega
  · rfl

theorem Fresh.segmentReceived (h : Fresh cfg c) {seg : TCPSegment} (hsyn : seg.header.syn = false)
    (hrst : seg.header.rst = false) (hlen : seg.lengthInSequenceSpace = 0)
    (hack : seg.header.ack = true → seg.header.ackno ≠ cfg.isn) :
    Fresh cfg (c.segmentReceived seg) := by
  -- there is nothing to answer, and the acknowledgment is one of unsent data
  have hrespond : respond c.sender seg = c.sender := by
    unfold respond
    rw [if_neg (by omega)]
    refine takeAck_of_unsent ?_ ?_
    · rw [h.sender]
      rfl
    · rw [h.sender]
      exact hack
  have hreceiver : c.receiver.segmentReceived seg = c.receiver :=
    TCPReceiver.segmentReceived_of_listen (by rw [h.receiver]; rfl) hsyn
  obtain ⟨r, hr⟩ := c.exists_received hrst
  rw [hr.flushed]
  refine Fresh.clean ⟨?_, ?_, ?_, ?_⟩
  · rw [hr.receiver, hreceiver, h.receiver]
  · rw [hr.sender, hrespond, h.sender]
  · rw [hr.close, h.close]
  · rw [hr.segmentsOut, h.segmentsOut]

end Fresh

end TCPConnection

namespace Endpoint

/-- The calls made on a listening connection: time passes, and segments without SYN
arrive. -/
def ListenOp : ConnectionOp → Prop
  | .tick _ => True
  | .receive seg => seg.header.syn = false
  | _ => False

/-- The segment carries neither RST nor anything that occupies sequence numbers, and
does not acknowledge our own initial sequence number. -/
def Ignorable (isn : WrappingInt32) : ConnectionOp → Prop
  | .receive seg =>
      seg.header.rst = false ∧ seg.lengthInSequenceSpace = 0 ∧
        (seg.header.ack = true → seg.header.ackno ≠ isn)
  | _ => True

/-- The peer has been answered, or the connection is closed. -/
def Heard (e : Endpoint) : Prop :=
  e.connection.close = true ∨ e.connection.segmentsOut ≠ []

theorem not_listening_of_heard {e : Endpoint} (h : e.Heard) : ¬e.connection.Listening := by
  intro hl
  rcases h with hclose | hout
  · have hactive := hl.active
    rw [TCPConnection.active, hclose] at hactive
    contradiction
  · exact hout hl.silent

theorem Heard.step {e : Endpoint} (h : e.Heard) (hs : e.Settled) (op : ConnectionOp) :
    (e.step op).Heard := by
  rcases h with hclose | hout
  · exact Or.inl (close_step hclose op)
  · obtain ⟨-, new, hnew, -⟩ := hs.step op
    refine Or.inr ?_
    rw [hnew]
    exact fun hnil => hout (List.append_eq_nil_iff.mp hnil).1

theorem Heard.exec {e : Endpoint} (h : e.Heard) (hs : e.Settled) (ops : List ConnectionOp) :
    (Run.exec Endpoint.step e ops).Heard := by
  induction ops generalizing e with
  | nil => exact h
  | cons op rest ih => exact ih (h.step hs op) (hs.step op).1

theorem fresh_step {cfg : TCPConfig} {e : Endpoint} (h : TCPConnection.Fresh cfg e.connection)
    {op : ConnectionOp} (hop : ListenOp op) (hign : Ignorable cfg.isn op) :
    TCPConnection.Fresh cfg (e.step op).connection := by
  cases op with
  | tick ms => exact h.tick ms
  | receive seg => exact h.segmentReceived hop hign.1 hign.2.1 hign.2.2
  | connect => exact hop.elim
  | write data => exact hop.elim
  | endInputStream => exact hop.elim
  | read len => exact hop.elim

/-- A call that cannot be ignored closes the connection or makes it send. -/
theorem heard_step {cfg : TCPConfig} {e : Endpoint} (h : TCPConnection.Fresh cfg e.connection)
    (hs : e.Settled) {op : ConnectionOp} (hign : ¬Ignorable cfg.isn op) : (e.step op).Heard := by
  cases op with
  | receive seg =>
      cases hrst : seg.header.rst with
      | true =>
          refine Or.inl ?_
          show (e.connection.segmentReceived seg).close = true
          unfold TCPConnection.segmentReceived
          rw [if_pos hrst]
          rfl
      | false =>
          -- an acknowledgment of the initial sequence number is accepted and lets the SYN out
          have hbusy : ¬e.Quiet (.receive seg) := by
            rintro (hyes | ⟨hlen, hack⟩)
            · rw [hrst] at hyes
              contradiction
            · refine hign ⟨hrst, hlen, fun hflag hisn => ?_⟩
              have hzero : unwrap seg.header.ackno e.connection.sender.isn
                  e.connection.sender.nextSeqno = 0 := by
                rw [h.sender]
                exact (unwrap_at_zero_eq_zero_iff _ _).mpr hisn
              have hquiet := hack hflag
              rw [hzero, h.sender] at hquiet
              rcases hquiet with hrej | hidle | ⟨hsyn, -⟩
              · revert hrej
                simp [TCPSender.rejects, TCPSender.new]
              · rw [TCPSender.readyToFill_nextSeqno, TCPSender.readyToFill_finAckIndex] at hidle
                revert hidle
                simp [TCPSender.new]
              · rw [TCPSender.readyToFill_nextSeqno] at hsyn
                exact hsyn rfl
          obtain ⟨-, new, hnew, hquiet⟩ := hs.step (.receive seg)
          refine Or.inr ?_
          rw [hnew]
          exact fun hnil => hbusy (hquiet.mp (List.append_eq_nil_iff.mp hnil).2)
  | connect => exact absurd trivial hign
  | write data => exact absurd trivial hign
  | endInputStream => exact absurd trivial hign
  | tick ms => exact absurd trivial hign
  | read len => exact absurd trivial hign

theorem listening_exec_iff {cfg : TCPConfig} {e : Endpoint}
    (h : TCPConnection.Fresh cfg e.connection) (hs : e.Settled) {ops : List ConnectionOp}
    (hops : ∀ op ∈ ops, ListenOp op) :
    (Run.exec Endpoint.step e ops).connection.Listening ↔ ∀ op ∈ ops, Ignorable cfg.isn op := by
  induction ops generalizing e with
  | nil => exact ⟨fun _ => by simp, fun _ => h.listening⟩
  | cons op rest ih =>
      rw [List.forall_mem_cons] at hops ⊢
      by_cases hign : Ignorable cfg.isn op
      · have hrest := ih (fresh_step h hops.1 hign) (hs.step op).1 hops.2
        exact ⟨fun hl => ⟨hign, hrest.mp hl⟩, fun hall => hrest.mpr hall.2⟩
      -- once heard of, the connection never gets back to LISTEN
      · have hheard := (heard_step h hs hign).exec (hs.step op).1 rest
        exact ⟨fun hl => absurd hl (not_listening_of_heard hheard), fun hall => absurd hall.1 hign⟩

end Endpoint

/-- **A listening connection stays in LISTEN exactly when every segment it receives
can be ignored.** -/
theorem listen_ignores_iff {cfg : TCPConfig} {ops : List ConnectionOp}
    (hops : ∀ op ∈ ops, Endpoint.ListenOp op) :
    (Run.exec Endpoint.step (Endpoint.start cfg) ops).connection.Listening ↔
      ∀ op ∈ ops, Endpoint.Ignorable cfg.isn op :=
  Endpoint.listening_exec_iff (TCPConnection.fresh_new cfg) (Endpoint.settled_start cfg) hops

/-- An acknowledgment and a tick. -/
theorem listen_ignores_ack :
    (Run.exec Endpoint.step (Endpoint.start { isn := ⟨0⟩ })
      [.receive { header := { ack := true, ackno := ⟨5⟩ } }, .tick 2000]).connection.Listening :=
  (listen_ignores_iff (by simp [Endpoint.ListenOp])).mpr
    (by simp [Endpoint.Ignorable, TCPSegment.lengthInSequenceSpace])

/-- A RST closes the connection. -/
theorem listen_closed_by_rst :
    ¬(Run.exec Endpoint.step (Endpoint.start { isn := ⟨0⟩ })
      [.receive { header := { rst := true } }]).connection.Listening := by
  intro hl
  have hactive := hl.active
  revert hactive
  decide +kernel

end Sponge

import Sponge.Connection.Outbound

/-!
# Runs of a connection

An `Endpoint` is a connection with the history of its run: the bytes its `write`
accepted, whether `end_input_stream` was called, what the application has read,
and the acknowledgments its sender accepted.  Every operation either shuts the
connection down or drives the sender and flushes it; the lemmas below say so
once, and the invariants of runs are derived from them.
-/

namespace Sponge

/-- What the owner of a connection can do with it. -/
inductive ConnectionOp where
  | connect
  | write (data : List Byte)
  | endInputStream
  | tick (msSinceLastTick : Nat)
  | read (len : Nat)
  | receive (seg : TCPSegment)
deriving DecidableEq, Repr

/-- A connection and the history of its run. -/
structure Endpoint where
  connection : TCPConnection
  /-- the bytes accepted by `write` -/
  accepted : List Byte := []
  /-- `end_input_stream` has been called -/
  ended : Bool := false
  /-- the bytes read from the inbound stream -/
  taken : List Byte := []
  /-- the acknowledgments accepted by the sender, unwrapped -/
  acks : List Nat := []
deriving DecidableEq, Repr

namespace Endpoint

def start (cfg : TCPConfig) : Endpoint where
  connection := TCPConnection.new cfg

/-- The acknowledgment a segment brings, if the sender accepts it. -/
def newAcks (e : Endpoint) (seg : TCPSegment) : List Nat :=
  let s := e.connection.sender
  let ack := unwrap seg.header.ackno s.isn s.nextSeqno
  if seg.header.rst || !seg.header.ack || s.rejects ack then [] else [ack]

def step (e : Endpoint) : ConnectionOp → Endpoint
  | .connect => { e with connection := e.connection.connect }
  | .write data =>
      { e with
        connection := (e.connection.write data).1
        accepted := e.accepted ++ e.connection.sender.stream.accepted data }
  | .endInputStream => { e with connection := e.connection.endInputStream, ended := true }
  | .tick ms => { e with connection := e.connection.tick ms }
  | .read len =>
      { e with
        connection := e.connection.readInbound len
        taken := e.taken ++ (e.connection.receiver.reassembler.outputStream.read len).2 }
  | .receive seg =>
      { e with
        connection := e.connection.segmentReceived seg
        acks := e.acks ++ e.newAcks seg }

/-- The application does not write after it has ended its stream. -/
def WritesBeforeEnd (e : Endpoint) : ConnectionOp → Prop
  | .write _ => e.ended = false
  | _ => True

instance (e : Endpoint) : ∀ op, Decidable (e.WritesBeforeEnd op)
  | .write _ => inferInstanceAs (Decidable (_ = _))
  | .connect => isTrue trivial
  | .endInputStream => isTrue trivial
  | .tick _ => isTrue trivial
  | .read _ => isTrue trivial
  | .receive _ => isTrue trivial

/-- The operation shuts the connection down uncleanly. -/
def shutsDown (e : Endpoint) : ConnectionOp → Bool
  | .tick _ => decide (e.connection.sender.consecutiveRetransmissions ≥ TCPConfig.maxRetxAttempts)
  | .receive seg => seg.header.rst
  | _ => false

/-- The sender once its stream has been written to or ended. -/
def prepared (e : Endpoint) : ConnectionOp → TCPSender
  | .write data =>
      { e.connection.sender with stream := (e.connection.sender.stream.write data).1 }
  | .endInputStream =>
      { e.connection.sender with stream := e.connection.sender.stream.endInput }
  | _ => e.connection.sender

/-- The sender after the calls the operation makes. -/
def driven (e : Endpoint) : ConnectionOp → TCPSender
  | .connect => (e.prepared .connect).fillWindow
  | .write data => (e.prepared (.write data)).fillWindow
  | .endInputStream => (e.prepared .endInputStream).fillWindow
  | .tick ms => e.connection.sender.tick ms
  | .read _ => e.connection.sender
  | .receive seg => TCPConnection.respond e.connection.sender seg

/-- The receiver after the operation. -/
def inbound (e : Endpoint) : ConnectionOp → TCPReceiver
  | .read len => e.connection.receiver.read len
  | .receive seg => e.connection.receiver.segmentReceived seg
  | _ => e.connection.receiver

/-- The segments an unclean shutdown emits. -/
def rstOut (e : Endpoint) : ConnectionOp → List TCPSegment
  | .tick _ => [e.connection.rstSegment]
  | _ => []

/-- An operation that does not shut the connection down. -/
structure Runs (e : Endpoint) (op : ConnectionOp) : Prop where
  cfg : (e.step op).connection.cfg = e.connection.cfg
  sender : (e.step op).connection.sender = { e.driven op with segmentsOut := [] }
  receiver : (e.step op).connection.receiver = e.inbound op
  segmentsOut : (e.step op).connection.segmentsOut = e.connection.segmentsOut ++
    (e.driven op).segmentsOut.map (TCPConnection.stamp (e.inbound op))
  close : (e.step op).connection.close = true →
    e.connection.close = true ∨ (e.step op).connection.streamBothEof = true

/-- An operation that does. -/
structure Shuts (e : Endpoint) (op : ConnectionOp) : Prop where
  cfg : (e.step op).connection.cfg = e.connection.cfg
  sender : (e.step op).connection.sender =
    { e.connection.sender with stream := e.connection.sender.stream.setError }
  receiver : (e.step op).connection.receiver = e.connection.receiver.setError
  segmentsOut : (e.step op).connection.segmentsOut = e.connection.segmentsOut ++ e.rstOut op

/-- Flushing shows in the connection as `Runs` describes it. -/
private theorem runs_of_clean {e : Endpoint} {op : ConnectionOp} {c : TCPConnection}
    (hstep : (e.step op).connection = c.clean) (hcfg : c.cfg = e.connection.cfg)
    (hsender : c.sender = e.driven op) (hreceiver : c.receiver = e.inbound op)
    (hout : c.segmentsOut = e.connection.segmentsOut) (hclose : c.close = e.connection.close) :
    Runs e op where
  cfg := by rw [hstep, TCPConnection.clean_cfg, hcfg]
  sender := by rw [hstep, TCPConnection.clean_sender, hsender]
  receiver := by rw [hstep, TCPConnection.clean_receiver, hreceiver]
  segmentsOut := by rw [hstep, TCPConnection.clean_segmentsOut, hsender, hreceiver, hout]
  close := by
    rw [hstep, TCPConnection.clean_close, TCPConnection.clean_streamBothEof, hclose]
    intro hor
    cases hc : e.connection.close with
    | true => exact Or.inl rfl
    | false =>
        rw [hc, Bool.false_or, Bool.and_eq_true] at hor
        exact Or.inr hor.1

theorem runs_of_not_shutsDown {e : Endpoint} {op : ConnectionOp}
    (hdrained : e.connection.sender.segmentsOut = []) (h : e.shutsDown op = false) :
    Runs e op := by
  cases op with
  | connect => exact runs_of_clean rfl rfl rfl rfl rfl rfl
  | write data => exact runs_of_clean rfl rfl rfl rfl rfl rfl
  | endInputStream => exact runs_of_clean rfl rfl rfl rfl rfl rfl
  | tick ms =>
      have hfew : ¬ e.connection.sender.consecutiveRetransmissions ≥ TCPConfig.maxRetxAttempts := by
        simpa [shutsDown] using h
      refine runs_of_clean ?_ rfl rfl rfl rfl rfl (c := { e.connection with
        nowTime := Word.add 32 e.connection.nowTime ms
        sender := e.connection.sender.tick ms })
      show e.connection.tick ms = _
      unfold TCPConnection.tick
      exact if_neg hfew
  | read len =>
      -- nothing is flushed, and nothing was waiting
      have hsame : ({ e.connection.sender with segmentsOut := [] } : TCPSender) =
          e.connection.sender := by
        rw [← hdrained]
      exact ⟨rfl, hsame.symm, rfl, by simp [driven, hdrained, step, TCPConnection.readInbound],
        fun hclose => Or.inl hclose⟩
  | receive seg =>
      obtain ⟨r, hr⟩ := e.connection.exists_received h
      exact runs_of_clean hr.flushed hr.cfg hr.sender hr.receiver hr.segmentsOut hr.close

/-- Only a tick and a RST shut a connection down. -/
theorem shutsDown_cases {e : Endpoint} {op : ConnectionOp} (h : e.shutsDown op = true) :
    (∃ ms, op = .tick ms ∧
      TCPConfig.maxRetxAttempts ≤ e.connection.sender.consecutiveRetransmissions) ∨
    ∃ seg, op = .receive seg ∧ seg.header.rst = true := by
  cases op with
  | tick ms => exact Or.inl ⟨ms, rfl, by simpa [shutsDown] using h⟩
  | receive seg => exact Or.inr ⟨seg, rfl, h⟩
  | connect => exact absurd h (by simp [shutsDown])
  | write data => exact absurd h (by simp [shutsDown])
  | endInputStream => exact absurd h (by simp [shutsDown])
  | read len => exact absurd h (by simp [shutsDown])

theorem shuts_of_shutsDown {e : Endpoint} {op : ConnectionOp} (h : e.shutsDown op = true) :
    Shuts e op := by
  rcases shutsDown_cases h with ⟨ms, rfl, hmany⟩ | ⟨seg, rfl, hrst⟩
  · have hstep : (e.step (.tick ms)).connection = TCPConnection.badShutdown
        { e.connection with nowTime := Word.add 32 e.connection.nowTime ms } true := by
      show e.connection.tick ms = _
      unfold TCPConnection.tick
      exact if_pos hmany
    refine ⟨?_, ?_, ?_, ?_⟩ <;> rw [hstep] <;> rfl
  · have hstep : (e.step (.receive seg)).connection = TCPConnection.badShutdown
        { e.connection with lastReciveTime := e.connection.nowTime } false := by
      show e.connection.segmentReceived seg = _
      unfold TCPConnection.segmentReceived
      exact if_pos hrst
    refine ⟨?_, ?_, ?_, ?_⟩ <;> rw [hstep]
    · rfl
    · rfl
    · rfl
    · simp [TCPConnection.badShutdown, rstOut]

/-- Accepted acknowledgments stay on record. -/
theorem mem_step_acks {e : Endpoint} {ack : Nat} (h : ack ∈ e.acks) (op : ConnectionOp) :
    ack ∈ (e.step op).acks := by
  cases op with
  | receive seg => exact List.mem_append_left _ h
  | connect => exact h
  | write data => exact h
  | endInputStream => exact h
  | tick ms => exact h
  | read len => exact h

/-- The stream is only ever appended to. -/
theorem step_accepted (e : Endpoint) (op : ConnectionOp) :
    ∃ more, (e.step op).accepted = e.accepted ++ more := by
  cases op with
  | write data => exact ⟨_, rfl⟩
  | connect => exact ⟨[], (List.append_nil _).symm⟩
  | endInputStream => exact ⟨[], (List.append_nil _).symm⟩
  | tick ms => exact ⟨[], (List.append_nil _).symm⟩
  | read len => exact ⟨[], (List.append_nil _).symm⟩
  | receive seg => exact ⟨[], (List.append_nil _).symm⟩

/-- `end_input_stream` cannot be taken back, and is the only way to end the stream. -/
theorem step_ended {e : Endpoint} (op : ConnectionOp) :
    (e.step op).ended = true ↔ e.ended = true ∨ op = .endInputStream := by
  cases op <;> simp [step]

theorem mem_rstOut {e : Endpoint} {op : ConnectionOp} {seg : TCPSegment} (h : seg ∈ e.rstOut op) :
    seg.header.rst = true ∧ seg.header.ack = false ∧ seg.header.fin = false ∧ seg.payload = [] := by
  cases op with
  | tick ms =>
      have hrst : seg = e.connection.rstSegment := by simpa [rstOut] using h
      rw [hrst]
      exact ⟨rfl, rfl, rfl, rfl⟩
  | receive seg' => exact absurd h (by simp [rstOut])
  | connect => exact absurd h (by simp [rstOut])
  | write data => exact absurd h (by simp [rstOut])
  | endInputStream => exact absurd h (by simp [rstOut])
  | read len => exact absurd h (by simp [rstOut])

/-! ## Driving the sender -/

section Driven

variable {e : Endpoint} {op : ConnectionOp} {whole : List Byte} {firsts : List TCPSegment}
  {n : Nat} {fin : Bool}

@[simp] theorem prepared_isn (e : Endpoint) (op : ConnectionOp) :
    (e.prepared op).isn = e.connection.sender.isn := by
  cases op <;> rfl

@[simp] theorem prepared_nextSeqno (e : Endpoint) (op : ConnectionOp) :
    (e.prepared op).nextSeqno = e.connection.sender.nextSeqno := by
  cases op <;> rfl

@[simp] theorem prepared_curAckIndex (e : Endpoint) (op : ConnectionOp) :
    (e.prepared op).curAckIndex = e.connection.sender.curAckIndex := by
  cases op <;> rfl

@[simp] theorem prepared_wdRightEdge (e : Endpoint) (op : ConnectionOp) :
    (e.prepared op).wdRightEdge = e.connection.sender.wdRightEdge := by
  cases op <;> rfl

@[simp] theorem prepared_segBuffer (e : Endpoint) (op : ConnectionOp) :
    (e.prepared op).segBuffer = e.connection.sender.segBuffer := by
  cases op <;> rfl

@[simp] theorem prepared_error (e : Endpoint) (op : ConnectionOp) :
    (e.prepared op).stream.error = e.connection.sender.stream.error := by
  cases op <;> rfl

/-- The calls an operation makes. -/
theorem driven_emitted (h : (e.prepared op).Sent whole firsts n fin)
    (hedge : (e.prepared op).EdgeInRange) :
    ∃ pushed firsts' n' fin',
      (e.prepared op).Emitted (e.driven op) whole firsts n fin pushed firsts' n' fin' := by
  have hfill : ∃ pushed firsts' n' fin', (e.prepared op).Emitted (e.prepared op).fillWindow
      whole firsts n fin pushed firsts' n' fin' := by
    obtain ⟨pushed, firsts', n', fin', hstep, -⟩ := h.fillWindow_stepped hedge
    exact ⟨pushed, firsts', n', fin', hstep.emitted h.next⟩
  cases op with
  | connect => exact hfill
  | write data => exact hfill
  | endInputStream => exact hfill
  | tick ms =>
      obtain ⟨pushed, hstep, -⟩ := h.tick_stepped hedge ms
      exact ⟨pushed, firsts, n, fin, hstep.emitted h.next⟩
  | read len => exact ⟨[], firsts, n, fin, h.emitted_refl hedge⟩
  | receive seg => exact h.respond_emitted hedge seg

/-- Only an accepted acknowledgment moves the acknowledged number. -/
theorem curAckIndex_driven (h : (e.prepared op).Sent whole firsts n fin)
    (hedge : (e.prepared op).EdgeInRange) :
    (e.driven op).curAckIndex = (e.prepared op).curAckIndex ∨
      ∃ seg, op = .receive seg ∧ seg.header.ack = true ∧
        e.connection.sender.rejects (unwrap seg.header.ackno e.connection.sender.isn
          e.connection.sender.nextSeqno) = false ∧
        (e.driven op).curAckIndex ≤ unwrap seg.header.ackno e.connection.sender.isn
          e.connection.sender.nextSeqno := by
  have hfill : (e.prepared op).fillWindow.curAckIndex = (e.prepared op).curAckIndex := by
    obtain ⟨-, -, -, -, -, hcur, -⟩ := h.fillWindow_stepped hedge
    exact hcur
  cases op with
  | connect => exact Or.inl hfill
  | write data => exact Or.inl hfill
  | endInputStream => exact Or.inl hfill
  | tick ms =>
      obtain ⟨-, -, hcur, -⟩ := h.tick_stepped hedge ms
      exact Or.inl hcur
  | read len => exact Or.inl rfl
  | receive seg =>
      rcases h.respond_curAckIndex hedge seg with hsame | hack
      · exact Or.inl hsame
      · exact Or.inr ⟨seg, rfl, hack⟩

end Driven

/-! ## The sending half along a run -/

/-- The invariant of the sending half. -/
def Sends (e : Endpoint) (firsts : List TCPSegment) (n : Nat) (fin : Bool) : Prop :=
  Outbound e.connection.sender e.connection.segmentsOut e.accepted e.ended firsts n fin

theorem sends_start (cfg : TCPConfig) : (start cfg).Sends [] 0 false :=
  outbound_new cfg.sendCapacity cfg.rtTimeout cfg.isn

section Sends

variable {e : Endpoint} {op : ConnectionOp} {firsts : List TCPSegment} {n : Nat} {fin : Bool}

/-- Before the sender is driven, the stream is what it will be after the step. -/
theorem Sends.prepared (h : e.Sends firsts n fin) (hop : e.WritesBeforeEnd op) :
    Outbound (e.prepared op) e.connection.segmentsOut (e.step op).accepted (e.step op).ended
      firsts n fin := by
  cases op with
  | write data =>
      have hopen : e.ended = false := hop
      have hw : Outbound e.connection.sender e.connection.segmentsOut e.accepted false
          firsts n fin := hopen ▸ h
      show Outbound _ _ (e.accepted ++ e.connection.sender.stream.accepted data) e.ended firsts n
        fin
      rw [hopen]
      exact hw.write data
  | endInputStream => exact h.endInput
  | connect => exact h
  | tick ms => exact h
  | read len => exact h
  | receive seg => exact h

theorem Sends.driven (h : e.Sends firsts n fin) (hop : e.WritesBeforeEnd op) :
    ∃ pushed firsts' n' fin', (e.prepared op).Emitted (e.driven op) (e.step op).accepted
      firsts n fin pushed firsts' n' fin' :=
  driven_emitted (h.prepared hop).sent (h.prepared hop).edge

theorem Sends.driven_curAckIndex (h : e.Sends firsts n fin) (hop : e.WritesBeforeEnd op) :
    (e.driven op).curAckIndex = e.connection.sender.curAckIndex ∨
      ∃ seg, op = .receive seg ∧ seg.header.ack = true ∧
        e.connection.sender.rejects (unwrap seg.header.ackno e.connection.sender.isn
          e.connection.sender.nextSeqno) = false ∧
        (e.driven op).curAckIndex ≤ unwrap seg.header.ackno e.connection.sender.isn
          e.connection.sender.nextSeqno := by
  have hcur := curAckIndex_driven (h.prepared hop).sent (h.prepared hop).edge
  rwa [prepared_curAckIndex] at hcur

theorem Sends.step (h : e.Sends firsts n fin) (hop : e.WritesBeforeEnd op) :
    ∃ firsts' n' fin', (e.step op).Sends firsts' n' fin' := by
  cases hdown : e.shutsDown op with
  | false =>
      have hruns := runs_of_not_shutsDown h.drained hdown
      obtain ⟨pushed, firsts', n', fin', hemit⟩ := h.driven hop
      refine ⟨firsts', n', fin', ?_⟩
      unfold Sends
      rw [hruns.sender, hruns.segmentsOut]
      exact (h.prepared hop).emit hemit (e.inbound op)
  | true =>
      have hshuts := shuts_of_shutsDown hdown
      have hsame : (e.step op).accepted = e.accepted ∧ (e.step op).ended = e.ended := by
        rcases shutsDown_cases hdown with ⟨ms, rfl, -⟩ | ⟨seg, rfl, -⟩
        · exact ⟨rfl, rfl⟩
        · exact ⟨rfl, rfl⟩
      refine ⟨firsts, n, fin, ?_⟩
      unfold Sends
      rw [hshuts.sender, hshuts.segmentsOut, hsame.1, hsame.2]
      exact Outbound.setError h fun seg hseg => (mem_rstOut hseg).1

theorem Sends.step_isn (h : e.Sends firsts n fin) (hop : e.WritesBeforeEnd op) :
    (e.step op).connection.sender.isn = e.connection.sender.isn := by
  cases hdown : e.shutsDown op with
  | false =>
      obtain ⟨pushed, firsts', n', fin', hemit⟩ := h.driven hop
      rw [(runs_of_not_shutsDown h.drained hdown).sender]
      exact hemit.isn.trans (prepared_isn e op)
  | true => rw [(shuts_of_shutsDown hdown).sender]

end Sends

end Endpoint
end Sponge

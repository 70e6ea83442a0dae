import Sponge.TCPReceiver
import Sponge.TCPSender

/-!
# The TCP connection

`TCPConnection` of `tcp_connection.hh` and `tcp_connection.cc`: a sender and a
receiver, the clock, and the rules by which the two are closed.  `segmentsOut`
is the outbound queue; nothing here takes segments from it, so it also is the
record of everything emitted.  `now_time` and `last_recive_time` are `uint32_t`.
-/

namespace Sponge

structure TCPConnection where
  cfg : TCPConfig
  receiver : TCPReceiver
  sender : TCPSender
  lastReciveTime : Nat := 0
  nowTime : Nat := 0
  close : Bool := false
  segmentsOut : List TCPSegment := []
  lingerAfterStreamsFinish : Bool := true
deriving DecidableEq, Repr

namespace TCPConnection

def new (cfg : TCPConfig) : TCPConnection where
  cfg := cfg
  receiver := TCPReceiver.new cfg.recvCapacity
  sender := TCPSender.new cfg.sendCapacity cfg.rtTimeout cfg.isn

/-- The segment that tells the peer of an unclean shutdown. -/
def rstSegment (c : TCPConnection) : TCPSegment where
  header := { rst := true, seqno := c.sender.nextSeqnoWrapped }

/-- Close with both streams in error. -/
def badShutdown (c : TCPConnection) (sendRst : Bool) : TCPConnection :=
  let c :=
    { c with
      close := true
      receiver := c.receiver.setError
      sender := { c.sender with stream := c.sender.stream.setError } }
  if sendRst then { c with segmentsOut := c.segmentsOut ++ [c.rstSegment] } else c

def streamBothEof (c : TCPConnection) : Bool :=
  c.receiver.streamOut.inputEnded && c.sender.stream.eof && c.sender.bytesInFlight == 0

/-- Nothing keeps a finished connection open: it need not linger, or has lingered
for ten times the initial timeout. -/
def lingerOver (c : TCPConnection) : Bool :=
  !c.lingerAfterStreamsFinish ||
    decide (Word.sub 32 c.nowTime c.lastReciveTime ≥ 10 * c.cfg.rtTimeout.toNat)

def checkClose (c : TCPConnection) : TCPConnection :=
  if c.streamBothEof && c.lingerOver then { c with close := true } else c

/-- Put the receiver's acknowledgment and window on an outgoing segment. -/
def stamp (r : TCPReceiver) (seg : TCPSegment) : TCPSegment :=
  let header :=
    match r.ackno with
    | some ackno => { seg.header with ack := true, ackno := ackno }
    | none => seg.header
  -- the field has 16 bits; a larger window is announced as the largest it can hold
  { seg with
    header := { header with
      win := UInt16.ofNat (if 65535 > r.windowSize then r.windowSize else 65535) } }

section Stamp

variable (r : TCPReceiver) (seg : TCPSegment)

@[simp] theorem stamp_payload : (stamp r seg).payload = seg.payload := rfl

@[simp] theorem stamp_seqno : (stamp r seg).header.seqno = seg.header.seqno := by
  unfold stamp
  cases r.ackno <;> rfl

@[simp] theorem stamp_syn : (stamp r seg).header.syn = seg.header.syn := by
  unfold stamp
  cases r.ackno <;> rfl

@[simp] theorem stamp_fin : (stamp r seg).header.fin = seg.header.fin := by
  unfold stamp
  cases r.ackno <;> rfl

@[simp] theorem stamp_rst : (stamp r seg).header.rst = seg.header.rst := by
  unfold stamp
  cases r.ackno <;> rfl

theorem stamp_of_none (h : r.ackno = none) : (stamp r seg).header.ack = seg.header.ack := by
  unfold stamp
  rw [h]

theorem stamp_of_some {ackno : WrappingInt32} (h : r.ackno = some ackno) :
    (stamp r seg).header.ack = true ∧ (stamp r seg).header.ackno = ackno := by
  unfold stamp
  rw [h]
  exact ⟨rfl, rfl⟩

end Stamp

/-- Move the sender's segments to the outbound queue. -/
def flush (c : TCPConnection) : TCPConnection :=
  { c with
    segmentsOut := c.segmentsOut ++ c.sender.segmentsOut.map (stamp c.receiver)
    sender := { c.sender with segmentsOut := [] } }

/-- Flush the sender, and see whether the connection is over. -/
def clean (c : TCPConnection) : TCPConnection :=
  c.flush.checkClose

section Clean

variable (c : TCPConnection)

@[simp] theorem clean_cfg : c.clean.cfg = c.cfg := by
  unfold clean checkClose
  split <;> rfl

@[simp] theorem clean_receiver : c.clean.receiver = c.receiver := by
  unfold clean checkClose
  split <;> rfl

@[simp] theorem clean_sender : c.clean.sender = { c.sender with segmentsOut := [] } := by
  unfold clean checkClose
  split <;> rfl

@[simp] theorem clean_segmentsOut :
    c.clean.segmentsOut = c.segmentsOut ++ c.sender.segmentsOut.map (stamp c.receiver) := by
  unfold clean checkClose
  split <;> rfl

@[simp] theorem clean_linger :
    c.clean.lingerAfterStreamsFinish = c.lingerAfterStreamsFinish := by
  unfold clean checkClose
  split <;> rfl

theorem streamBothEof_iff : c.streamBothEof = true ↔
    c.receiver.streamOut.inputEnded = true ∧ c.sender.stream.eof = true ∧
      c.sender.bytesInFlight = 0 := by
  simp [streamBothEof, and_assoc]

@[simp] theorem clean_streamBothEof : c.clean.streamBothEof = c.streamBothEof := by
  unfold streamBothEof
  rw [clean_receiver, clean_sender]
  rfl

/-- `clean` closes the connection exactly when both streams are over and nothing
keeps it open. -/
theorem clean_close : c.clean.close = (c.close || (c.streamBothEof && c.lingerOver)) := by
  have hsame : (c.flush.streamBothEof && c.flush.lingerOver) =
      (c.streamBothEof && c.lingerOver) := rfl
  unfold clean checkClose
  rw [hsame]
  cases c.streamBothEof && c.lingerOver with
  | true => simp
  | false => simp [flush]

end Clean

def remainingOutboundCapacity (c : TCPConnection) : Nat := c.sender.stream.remainingCapacity

def bytesInFlight (c : TCPConnection) : Nat := c.sender.bytesInFlight

def timeSinceLastSegmentReceived (c : TCPConnection) : Nat :=
  Word.sub 32 c.nowTime c.lastReciveTime

@[simp] theorem clean_timeSinceLastSegmentReceived (c : TCPConnection) :
    c.clean.timeSinceLastSegmentReceived = c.timeSinceLastSegmentReceived := by
  unfold clean checkClose
  split <;> rfl

/-- The receiver's half of `segment_received`; no lingering is needed if the peer's
stream ends before ours does. -/
def receive (c : TCPConnection) (seg : TCPSegment) : TCPConnection :=
  let c := { c with receiver := c.receiver.segmentReceived seg }
  -- asked after the segment has been assembled, so that its own FIN counts
  if c.receiver.streamOut.inputEnded && !c.sender.stream.eof then
    { c with lingerAfterStreamsFinish := false }
  else c

section Receive

variable (c : TCPConnection) (seg : TCPSegment)

@[simp] theorem receive_cfg : (c.receive seg).cfg = c.cfg := by
  simp only [receive]
  split <;> rfl

@[simp] theorem receive_sender : (c.receive seg).sender = c.sender := by
  simp only [receive]
  split <;> rfl

@[simp] theorem receive_receiver :
    (c.receive seg).receiver = c.receiver.segmentReceived seg := by
  simp only [receive]
  split <;> rfl

@[simp] theorem receive_segmentsOut : (c.receive seg).segmentsOut = c.segmentsOut := by
  simp only [receive]
  split <;> rfl

@[simp] theorem receive_close : (c.receive seg).close = c.close := by
  simp only [receive]
  split <;> rfl

@[simp] theorem receive_timeSinceLastSegmentReceived :
    (c.receive seg).timeSinceLastSegmentReceived = c.timeSinceLastSegmentReceived := by
  simp only [receive]
  split <;> rfl

theorem receive_linger :
    (c.receive seg).lingerAfterStreamsFinish =
      (c.lingerAfterStreamsFinish &&
        !((c.receiver.segmentReceived seg).streamOut.inputEnded && !c.sender.stream.eof)) := by
  simp only [receive]
  generalize c.receiver.segmentReceived seg = r
  cases r.streamOut.inputEnded && !c.sender.stream.eof with
  | true => simp
  | false => simp

end Receive

/-- The acknowledgment on an incoming segment goes to the sender. -/
def takeAck (s : TCPSender) (seg : TCPSegment) : TCPSender :=
  if seg.header.ack then s.ackReceived seg.header.ackno seg.header.win else s

/-- The sender's half of `segment_received`: take the acknowledgment, and answer
what occupies sequence numbers. -/
def respond (s : TCPSender) (seg : TCPSegment) : TCPSender :=
  if seg.lengthInSequenceSpace > 0 then (takeAck s seg).sendEmptyAck else takeAck s seg

def segmentReceived (c : TCPConnection) (seg : TCPSegment) : TCPConnection :=
  let c := { c with lastReciveTime := c.nowTime }
  -- a RST is neither assembled nor answered, and none is sent back
  if seg.header.rst then c.badShutdown false
  else
    let c := c.receive seg
    clean { c with sender := respond c.sender seg }

/-- `r` is `c` when `segment_received` has dealt with `seg` and is about to flush. -/
structure Received (c : TCPConnection) (seg : TCPSegment) (r : TCPConnection) : Prop where
  flushed : c.segmentReceived seg = r.clean
  cfg : r.cfg = c.cfg
  receiver : r.receiver = c.receiver.segmentReceived seg
  sender : r.sender = respond c.sender seg
  now : r.timeSinceLastSegmentReceived = 0
  close : r.close = c.close
  segmentsOut : r.segmentsOut = c.segmentsOut
  linger : r.lingerAfterStreamsFinish = (c.lingerAfterStreamsFinish &&
    !((c.receiver.segmentReceived seg).streamOut.inputEnded && !c.sender.stream.eof))

/-- What `segment_received` does with a segment that is no RST. -/
theorem exists_received (c : TCPConnection) {seg : TCPSegment} (hrst : seg.header.rst = false) :
    ∃ r, Received c seg r := by
  have hno : ¬ seg.header.rst = true := by simp [hrst]
  have hcfg := receive_cfg { c with lastReciveTime := c.nowTime } seg
  have hreceiver := receive_receiver { c with lastReciveTime := c.nowTime } seg
  have hsender := receive_sender { c with lastReciveTime := c.nowTime } seg
  have htime := receive_timeSinceLastSegmentReceived { c with lastReciveTime := c.nowTime } seg
  have hclose := receive_close { c with lastReciveTime := c.nowTime } seg
  have hout := receive_segmentsOut { c with lastReciveTime := c.nowTime } seg
  have hlinger := receive_linger { c with lastReciveTime := c.nowTime } seg
  have heq : c.segmentReceived seg = clean
      { receive { c with lastReciveTime := c.nowTime } seg with
        sender := respond (receive { c with lastReciveTime := c.nowTime } seg).sender seg } :=
    if_neg hno
  generalize receive { c with lastReciveTime := c.nowTime } seg = r at *
  refine ⟨{ r with sender := respond r.sender seg }, ?_⟩
  exact {
    flushed := heq
    cfg := hcfg
    receiver := hreceiver
    sender := by rw [hsender]
    now := htime.trans (Word.sub_self 32 c.nowTime)
    close := hclose
    segmentsOut := hout
    linger := hlinger }

def active (c : TCPConnection) : Bool := !c.close

/-- Write to the outbound stream; the number of accepted bytes is returned. -/
def write (c : TCPConnection) (data : List Byte) : TCPConnection × Nat :=
  let written := c.sender.stream.write data
  (clean { c with sender := { c.sender with stream := written.1 }.fillWindow }, written.2)

def tick (c : TCPConnection) (msSinceLastTick : Nat) : TCPConnection :=
  let c := { c with nowTime := Word.add 32 c.nowTime msSinceLastTick }
  -- the count is read before the sender's timer has run
  if c.sender.consecutiveRetransmissions ≥ TCPConfig.maxRetxAttempts then c.badShutdown true
  else clean { c with sender := c.sender.tick msSinceLastTick }

def endInputStream (c : TCPConnection) : TCPConnection :=
  clean { c with sender := { c.sender with stream := c.sender.stream.endInput }.fillWindow }

def connect (c : TCPConnection) : TCPConnection :=
  clean { c with sender := c.sender.fillWindow }

/-- The application reads from the inbound stream. -/
def readInbound (c : TCPConnection) (len : Nat) : TCPConnection :=
  { c with receiver := c.receiver.read len }

end TCPConnection
end Sponge

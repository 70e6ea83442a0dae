import Sponge.TCPSegment

/-!
# The TCP sender

`TCPSender` of `tcp_sender.hh` and `tcp_sender.cc`.  The `std::queue` and the
`std::deque` are lists, front first.  `uint64_t` and `size_t` values are natural
numbers; sums and differences that the source does not guard are 64-bit word
operations.
-/

namespace Sponge

/-- `TCPSender::Timer`. -/
structure Timer where
  lastFlashTime : Nat := 0
  nowTime : Nat := 0
deriving DecidableEq, Repr

namespace Timer

def flash (t : Timer) : Timer :=
  { t with lastFlashTime := t.nowTime }

def tick (t : Timer) (passTime : Nat) : Timer :=
  { t with nowTime := Word.add 64 t.nowTime passTime }

def timeOut (t : Timer) (rto : Nat) : Bool :=
  decide (Word.sub 64 t.nowTime t.lastFlashTime ≥ rto)

end Timer

/-- `TCPSender::seg_node`: an outstanding segment and the absolute sequence
number that acknowledges it. -/
structure SegNode where
  seg : TCPSegment := {}
  ackIndex : Nat := 0
deriving DecidableEq, Repr

structure TCPSender where
  isn : WrappingInt32
  segmentsOut : List TCPSegment := []
  initialRetransmissionTimeout : Nat
  stream : ByteStream
  nextSeqno : Nat := 0
  curAckIndex : Nat := 0
  finAckIndex : Nat := 18446744073709551615
  segBuffer : List SegNode := []
  wdRightEdge : Nat := 1
  retransNum : Nat := 0
  rto : Nat
  timer : Timer := {}
deriving DecidableEq, Repr

namespace TCPSender

def new (capacity : Nat) (retxTimeout : UInt16) (isn : WrappingInt32) : TCPSender where
  isn := isn
  initialRetransmissionTimeout := retxTimeout.toNat
  stream := { capcity := capacity }
  rto := retxTimeout.toNat

def getInitSeg (s : TCPSender) : TCPSegment where
  header := { seqno := wrap s.nextSeqno s.isn }

def sendNewSeg (s : TCPSender) (seg : TCPSegment) : TCPSender :=
  let next := Word.add 64 s.nextSeqno seg.lengthInSequenceSpace
  { s with
    segmentsOut := s.segmentsOut ++ [seg]
    nextSeqno := next
    segBuffer := s.segBuffer ++ [⟨seg, next⟩] }

def bytesInFlight (s : TCPSender) : Nat :=
  Word.sub 64 s.nextSeqno s.curAckIndex

/-- The SYN segment, sent by `fill_window` and by `send_empty_ack`. -/
def synSeg (s : TCPSender) : TCPSegment :=
  { s.getInitSeg with header := { s.getInitSeg.header with syn := true } }

/-- The loop that sends segments of the full payload size; returns the data
left for the last segment.  Each round sends at least one byte, so the length of
the data is fuel enough. -/
def sendFull : Nat → TCPSender → List Byte → TCPSender × List Byte
  | 0, s, data => (s, data)
  | fuel + 1, s, data =>
      if TCPConfig.maxPayloadSize < data.length then
        sendFull fuel
          (s.sendNewSeg { s.getInitSeg with payload := data.take TCPConfig.maxPayloadSize })
          (data.drop TCPConfig.maxPayloadSize)
      else (s, data)

/-- Number of sequence numbers the window still has room for, as `uint32_t`. -/
def fillSize (s : TCPSender) : Nat :=
  (if s.wdRightEdge > s.nextSeqno then s.wdRightEdge - s.nextSeqno else 0) % 2 ^ 32

/-- Cut the data read from the stream into segments and send them; the last one
takes what is left and the FIN. -/
def sendData (s : TCPSender) (totalData : List Byte) (finFlg : Bool) : TCPSender :=
  let result := sendFull totalData.length s totalData
  if result.2 ≠ [] ∨ finFlg = true then
    let lastSeg : TCPSegment :=
      { header := { result.1.getInitSeg.header with fin := finFlg }, payload := result.2 }
    let s := result.1.sendNewSeg lastSeg
    if finFlg then { s with finAckIndex := s.nextSeqno } else s
  else result.1

/-- Create and send segments to fill as much of the window as possible. -/
@[irreducible] def fillWindow (s : TCPSender) : TCPSender :=
  if s.nextSeqno = s.finAckIndex then s
  else if s.nextSeqno = 0 then s.sendNewSeg s.synSeg
  else
    let fillSize := s.fillSize
    let totalData := (s.stream.read fillSize).2
    let s := { s with stream := (s.stream.read fillSize).1 }
    -- the FIN takes a sequence number of its own, hence the strict comparison
    let finFlg := s.stream.eof && decide (totalData.length < fillSize)
    s.sendData totalData finFlg

/-- Remove the acknowledged segments from the front of the buffer; returns the
new `cur_ack_index`, whether a segment was removed, and the rest. -/
def popAcked (ack : Nat) : Nat → Bool → List SegNode → Nat × Bool × List SegNode
  | cur, newAck, [] => (cur, newAck, [])
  | cur, newAck, node :: rest =>
      if node.ackIndex ≤ ack then popAcked ack node.ackIndex true rest
      else (cur, newAck, node :: rest)

/-- The acknowledgment loop and the timer reset that follows a new one. -/
def acknowledge (s : TCPSender) (ack : Nat) : TCPSender :=
  let popped := popAcked ack s.curAckIndex false s.segBuffer
  let s := { s with curAckIndex := popped.1, segBuffer := popped.2.2 }
  if popped.2.1 then
    { s with rto := s.initialRetransmissionTimeout, retransNum := 0, timer := s.timer.flash }
  else s

/-- The right edge of the window only moves right. -/
def widen (s : TCPSender) (ack : Nat) (windowSize : UInt16) : TCPSender :=
  let nowWdRight := Word.add 64 ack windowSize.toNat
  if nowWdRight > s.wdRightEdge then { s with wdRightEdge := nowWdRight } else s

/-- The guard against acknowledgments of unsent data and delayed ones. -/
def rejects (s : TCPSender) (ack : Nat) : Bool :=
  decide (ack > s.nextSeqno ∨ ack < s.curAckIndex)

@[irreducible] def ackReceived (s : TCPSender) (ackno : WrappingInt32) (windowSize : UInt16) :
    TCPSender :=
  let ack := unwrap ackno s.isn s.nextSeqno
  if s.rejects ack then s
  else
    let s := (s.acknowledge ack).widen ack windowSize
    if windowSize = 0 then
      -- one byte of window probe: the edge is moved for this call only
      let s := fillWindow { s with wdRightEdge := Word.add 64 s.wdRightEdge 1 }
      { s with wdRightEdge := Word.sub 64 s.wdRightEdge 1 }
    else s.fillWindow

@[irreducible] def tick (s : TCPSender) (msSinceLastTick : Nat) : TCPSender :=
  match s.segBuffer with
  | [] => s
  | front :: _ =>
      let s := { s with timer := s.timer.tick msSinceLastTick }
      if s.timer.timeOut s.rto = false then s
      else
        let s := { s with segmentsOut := s.segmentsOut ++ [front.seg] }
        let windSize := Word.sub 64 s.wdRightEdge s.curAckIndex
        let s :=
          -- a closed window is no reason to back off
          if windSize ≠ 0 then
            { s with retransNum := Word.add 64 s.retransNum 1, rto := s.rto * 2 % 2 ^ 64 }
          else s
        { s with timer := s.timer.flash }

/-- `unsigned int`, so the low 32 bits of the counter. -/
def consecutiveRetransmissions (s : TCPSender) : Nat :=
  s.retransNum % 2 ^ 32

@[irreducible] def sendEmptyAck (s : TCPSender) : TCPSender :=
  if s.nextSeqno = 0 then s.sendNewSeg s.synSeg
  -- it occupies no sequence number, so it is not kept for retransmission
  else { s with segmentsOut := s.segmentsOut ++ [s.getInitSeg] }

def nextSeqnoAbsolute (s : TCPSender) : Nat := s.nextSeqno

/-- The relative sequence number of the next byte. -/
def nextSeqnoWrapped (s : TCPSender) : WrappingInt32 := wrap s.nextSeqno s.isn

end TCPSender
end Sponge

import Sponge.StreamReassembler
import Sponge.TCPSegment

/-!
# The TCP receiver

`TCPReceiver` of `tcp_receiver.hh` and `tcp_receiver.cc`.  The member `isn` is the
sequence number after the SYN's, so that absolute number `k` of the reassembled
stream is `wrap k isn`.
-/

namespace Sponge

structure TCPReceiver where
  reassembler : StreamReassembler
  capacity : Nat
  recieveIsn : Bool := false
  isn : WrappingInt32 := ⟨0⟩
deriving DecidableEq, Repr

namespace TCPReceiver

def new (capacity : Nat) : TCPReceiver where
  reassembler := StreamReassembler.new capacity
  capacity := capacity

def streamOut (r : TCPReceiver) : ByteStream := r.reassembler.streamOut

def windowSize (r : TCPReceiver) : Nat :=
  Word.sub 64 r.capacity r.streamOut.bufferSize

/-- A SYN fixes the initial sequence number. -/
def noteSyn (r : TCPReceiver) (seg : TCPSegment) : TCPReceiver :=
  if seg.header.syn then { r with recieveIsn := true, isn := wrap 1 seg.header.seqno } else r

/-- Largest stream index the window admits. -/
def winRight (r : TCPReceiver) : Nat :=
  Word.sub 64 (Word.add 64 r.windowSize r.streamOut.bytesWritten) 1

/-- Stream index at which a segment's payload starts. -/
def segStart (r : TCPReceiver) (seg : TCPSegment) : Nat :=
  if seg.header.syn then 0 else unwrap seg.header.seqno r.isn r.streamOut.bytesWritten

/-- Handle an inbound segment. -/
@[irreducible] def segmentReceived (r : TCPReceiver) (seg : TCPSegment) : TCPReceiver :=
  let r := r.noteSyn seg
  if r.recieveIsn = false then r
  else
    let segStart := r.segStart seg
    -- outside the window
    if segStart > r.winRight ∨
        Word.add 64 segStart seg.lengthInSequenceSpace ≤ r.streamOut.bytesWritten then r
    else
      { r with
        reassembler := r.reassembler.pushSubstring seg.payload segStart seg.header.fin }

/-- The acknowledgment number sent to the peer. -/
def ackno (r : TCPReceiver) : Option WrappingInt32 :=
  if r.recieveIsn then
    if r.streamOut.inputEnded then some (wrap (Word.add 64 1 r.streamOut.bytesWritten) r.isn)
    else some (wrap r.streamOut.bytesWritten r.isn)
  else none

/-- The application reads from the reassembled stream. -/
def read (r : TCPReceiver) (len : Nat) : TCPReceiver :=
  { r with
    reassembler :=
      { r.reassembler with outputStream := (r.reassembler.outputStream.read len).1 } }

/-- The stream is marked as broken. -/
def setError (r : TCPReceiver) : TCPReceiver :=
  { r with
    reassembler :=
      { r.reassembler with outputStream := r.reassembler.outputStream.setError } }

end TCPReceiver
end Sponge

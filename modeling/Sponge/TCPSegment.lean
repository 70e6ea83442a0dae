import Sponge.ByteStream
import Sponge.WrappingIntegers

/-!
# TCP segments and configuration

`TCPHeader` (`tcp_header.hh`), `TCPSegment` (`tcp_segment.hh`) and the
constants and fields of `TCPConfig` (`tcp_config.hh`).  The payload `Buffer` is
the list of its bytes.
-/

namespace Sponge

/-- The TCP header, with the defaults of the source. -/
structure TCPHeader where
  sport : UInt16 := 0
  dport : UInt16 := 0
  seqno : WrappingInt32 := ⟨0⟩
  ackno : WrappingInt32 := ⟨0⟩
  doff : UInt8 := 5
  urg : Bool := false
  ack : Bool := false
  psh : Bool := false
  rst : Bool := false
  syn : Bool := false
  fin : Bool := false
  win : UInt16 := 0
  cksum : UInt16 := 0
  uptr : UInt16 := 0
deriving DecidableEq, Repr

structure TCPSegment where
  header : TCPHeader := {}
  payload : List Byte := []
deriving DecidableEq, Repr

/-- Payload length plus one for SYN and one for FIN. -/
def TCPSegment.lengthInSequenceSpace (seg : TCPSegment) : Nat :=
  seg.payload.length + (if seg.header.syn then 1 else 0) + (if seg.header.fin then 1 else 0)

namespace TCPConfig

def defaultCapacity : Nat := 64000

def maxPayloadSize : Nat := 1000

def timeoutDflt : UInt16 := 1000

def maxRetxAttempts : Nat := 8

end TCPConfig

/-- The configuration of a connection.  Where the source draws a random initial
sequence number, `isn` is that number. -/
structure TCPConfig where
  rtTimeout : UInt16 := TCPConfig.timeoutDflt
  recvCapacity : Nat := TCPConfig.defaultCapacity
  sendCapacity : Nat := TCPConfig.defaultCapacity
  isn : WrappingInt32
deriving DecidableEq, Repr

end Sponge

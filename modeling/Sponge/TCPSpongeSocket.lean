import Sponge.DatagramAdapter
import Sponge.EventLoop
import Sponge.TCPState

/-!
# The socket

`TCPSpongeSocket` of `tcp_sponge_socket.hh` and `tcp_sponge_socket.cc`: the four rules by
which the TCP thread moves bytes between its owner, the connection and the datagram
adapter, and the loops that run them.  The owner is at the other end of a pair of stream
sockets; `StreamEnd` is the kernel's side of the thread's end, with the record of what has
gone through it.  The debugging output is left out.
-/

namespace Sponge

/-- The signal for a write that nobody can read; nothing in the source handles or ignores it. -/
def sigpipe : Nat := 13

/-- The thread's end of the pair of stream sockets. -/
structure StreamEnd where
  /-- read by the thread so far -/
  consumed : List Byte := []
  /-- written by the owner, and not read yet -/
  inbound : List Byte := []
  /-- the owner will write nothing more -/
  inboundEnd : Bool := false
  /-- written for the owner so far -/
  outbound : List Byte := []
  /-- nothing more will be written for the owner, who reads to the end of it -/
  outboundEnd : Bool := false
  /-- the owner will read nothing more -/
  ownerGone : Bool := false
  /-- how much the kernel moves at most in the next calls; all there is when it is empty -/
  grants : List Nat := []
deriving DecidableEq, Repr

namespace StreamEnd

/-- A read waits for the first byte; it fails here where the source's, which does not block,
would fail. -/
def read (e : StreamEnd) (n : Nat) : SysResult (List Byte) × StreamEnd :=
  if n = 0 then (.returns [], e)
  else if e.inbound = [] then
    if e.inboundEnd then (.returns [], e) else (.fails eagain, e)
  else
    let k := min n (max 1 (e.grants.headD e.inbound.length))
    (.returns (e.inbound.take k),
      { e with
        consumed := e.consumed ++ e.inbound.take k
        inbound := e.inbound.drop k
        grants := e.grants.tail })

/-- A write of nothing does not get as far as the socket. -/
def writev (e : StreamEnd) (buffer : BufferViewList) : SysResult Nat × StreamEnd :=
  if buffer.size = 0 then (.returns 0, e)
  else if e.outboundEnd ∨ e.ownerGone then (.kills sigpipe, e)
  else
    let k := min buffer.size (e.grants.headD buffer.size)
    let e := { e with grants := e.grants.tail }
    if k = 0 then (.fails eagain, e)
    else (.returns k, { e with outbound := e.outbound ++ buffer.bytes.take k })

end StreamEnd

instance : KernelFile StreamEnd where
  read := StreamEnd.read
  writev := StreamEnd.writev

/-- `Socket::shutdown(SHUT_WR)`. -/
def shutdownWr : EStateM Exception (FileDescriptor StreamEnd) Unit := do
  let _ ← FileDescriptor.sys "shutdown" fun file =>
    (.returns (), { file with outboundEnd := true })
  FileDescriptor.registerWrite

structure TCPSpongeSocket (α : Type) where
  threadData : FileDescriptor StreamEnd
  datagramAdapter : α
  tcp : TCPConnection
  /-- the inbound data to the owner has been shut down -/
  inboundShutdown : Bool := false
  /-- the owner has shut down the outbound data -/
  outboundShutdown : Bool := false
  /-- the outbound data has been fully acknowledged by the peer -/
  fullyAcked : Bool := false

namespace TCPSpongeSocket

open EventLoop

variable {α : Type} (adapt : DatagramAdapter α)

def onThreadData {β : Type} (m : EStateM Exception (FileDescriptor StreamEnd) β) :
    EStateM Exception (TCPSpongeSocket α) β :=
  Program.zoom (fun s => s.threadData) (fun s fd => { s with threadData := fd }) id m

def onAdapter {β : Type} (m : EStateM Exception α β) : EStateM Exception (TCPSpongeSocket α) β :=
  Program.zoom (fun s => s.datagramAdapter) (fun s a => { s with datagramAdapter := a }) id m

/-- A call of the connection. -/
def onTcp (f : TCPConnection → TCPConnection) : EStateM Exception (TCPSpongeSocket α) Unit :=
  modify fun s => { s with tcp := f s.tcp }

def inboundStream (s : TCPSpongeSocket α) : ByteStream := s.tcp.receiver.streamOut

/-- Rule 1: read from filtered packet stream and dump into the connection. -/
def readSegment : EStateM Exception (TCPSpongeSocket α) Unit := do
  match ← onAdapter adapt.read with
  | some seg => onTcp fun tcp => tcp.segmentReceived seg
  | none => pure ()
  modify fun s =>
    if s.threadData.eof && s.tcp.bytesInFlight == 0 && !s.fullyAcked then
      { s with fullyAcked := true }
    else s

def rule1 : Rule (TCPSpongeSocket α) where
  fd := fun s => adapt.fd s.datagramAdapter
  direction := .In
  callback := readSegment adapt
  interest := fun s => s.tcp.active
  cancel := pure ()

/-- `end_input_stream`, and the owner has shut down the outbound data. -/
def endOutbound : EStateM Exception (TCPSpongeSocket α) Unit := do
  onTcp TCPConnection.endInputStream
  modify fun s => { s with outboundShutdown := true }

/-- Rule 2: read from pipe into outbound buffer. -/
def readPipe : EStateM Exception (TCPSpongeSocket α) Unit := do
  let capacity := (← get).tcp.remainingOutboundCapacity
  let data ← onThreadData (FileDescriptor.read capacity)
  let amountWritten := ((← get).tcp.write data).2
  onTcp fun tcp => (tcp.write data).1
  if amountWritten ≠ data.length then
    throw (.runtime ⟨"TCPConnection::write() accepted less than advertised length"⟩)
  if (← get).threadData.eof then
    endOutbound

def rule2 : Rule (TCPSpongeSocket α) where
  fd := fun s => s.threadData.toFDWrapper
  direction := .In
  callback := readPipe
  interest := fun s =>
    s.tcp.active && !s.outboundShutdown && decide (0 < s.tcp.remainingOutboundCapacity)
  cancel := endOutbound

/-- Rule 3: read from inbound buffer into pipe. -/
def writePipe : EStateM Exception (TCPSpongeSocket α) Unit := do
  -- write from the inbound stream into the pipe, and only pop what was actually written
  let inbound := (← get).inboundStream
  let amountToWrite := min 65536 inbound.bufferSize
  let buffer := inbound.peekOutput amountToWrite
  let bytesWritten ← onThreadData (FileDescriptor.write (.ofString buffer) false)
  onTcp fun tcp => tcp.readInbound bytesWritten
  let inbound := (← get).inboundStream
  if inbound.eof || inbound.error then
    onThreadData shutdownWr
    modify fun s => { s with inboundShutdown := true }

def rule3 : Rule (TCPSpongeSocket α) where
  fd := fun s => s.threadData.toFDWrapper
  direction := .Out
  callback := writePipe
  interest := fun s => !s.inboundStream.bufferEmpty ||
    ((s.inboundStream.eof || s.inboundStream.error) && !s.inboundShutdown)
  cancel := pure ()

/-- The loop of rule 4, with the segments that are in the queue. -/
def writeSegments : List TCPSegment → EStateM Exception (TCPSpongeSocket α) Unit
  | [] => pure ()
  | seg :: rest => do
      onAdapter (adapt.write seg)
      onTcp fun tcp => { tcp with segmentsOut := rest }
      writeSegments rest

/-- Rule 4: read outbound segments from the connection and send as datagrams. -/
def sendSegments : EStateM Exception (TCPSpongeSocket α) Unit := do
  let s ← get
  writeSegments adapt s.tcp.segmentsOut

def rule4 : Rule (TCPSpongeSocket α) where
  fd := fun s => adapt.fd s.datagramAdapter
  direction := .Out
  callback := sendSegments adapt
  interest := fun s => !s.tcp.segmentsOut.isEmpty
  cancel := pure ()

/-- The event loop that `_initialize_TCP` sets up. -/
def rules : List (Rule (TCPSpongeSocket α)) :=
  [rule1 adapt, rule2, rule3, rule4 adapt]

/-- The socket that `_initialize_TCP` sets up. -/
def initializeTCP (config : TCPConfig) (threadData : FileDescriptor StreamEnd)
    (datagramAdapter : α) : TCPSpongeSocket α where
  threadData := threadData
  datagramAdapter := datagramAdapter
  tcp := .new config

/-- The state that `connect` expects after `TCPConnection::connect`. -/
def expectedState : TCPState := .ofState .SYN_SENT

/-- `connect`, up to its loop. -/
def connect (cad : FdAdapterConfig) : EStateM Exception (TCPSpongeSocket α) Unit := do
  modify fun s => { s with datagramAdapter := adapt.setConfig cad s.datagramAdapter }
  onTcp TCPConnection.connect
  let state := (← get).tcp.state
  if state ≠ expectedState then
    throw (.runtime ⟨"After TCPConnection::connect(), state was " ++ state.name ++
      " but expected " ++ expectedState.name⟩)

/-- `listen_and_accept`, up to its loop. -/
def listenAndAccept (cad : FdAdapterConfig) : EStateM Exception (TCPSpongeSocket α) Unit :=
  modify fun s =>
    { s with
      datagramAdapter := adapt.setListening true (adapt.setConfig cad s.datagramAdapter) }

/-- One round of `_tcp_loop`, once its condition has been tested: whether the loop goes on,
and the rules that are left.  `abort` is what `_abort` holds after the wait, and `elapsed` the
milliseconds since the last tick. -/
def loopRound (rules : List (Rule (TCPSpongeSocket α)))
    (poll : TCPSpongeSocket α → List PollFd → PollAnswer) (abort : Bool) (elapsed : Nat) :
    EStateM Exception (TCPSpongeSocket α) (Bool × List (Rule (TCPSpongeSocket α))) := do
  let (ret, rules) ← waitNextEvent rules poll
  if ret = .Exit ∨ abort then
    return (false, rules)
  if (← get).tcp.active then
    onTcp fun tcp => tcp.tick elapsed
    onAdapter (adapt.tick elapsed)
  return (true, rules)

end TCPSpongeSocket

/-! ## The thread -/

/-- Where the work on a socket stands: in the loop of `connect` or of `listen_and_accept`, in
that of `_tcp_main`, or after it; `failed` is after an exception or the end of the process. -/
inductive Phase where
  | connecting
  | accepting
  | running
  | finished
  | failed (e : Exception)
deriving DecidableEq, Repr

/-- The condition of the loop, where there is a loop. -/
def Phase.condition : Phase → TCPConnection → Bool
  | .connecting, tcp => decide (tcp.state = .ofState .SYN_SENT)
  | .accepting, tcp =>
      decide (tcp.state = .ofState .LISTEN ∨ tcp.state = .ofState .SYN_RCVD ∨
        tcp.state = .ofState .SYN_SENT)
  | .running, _ => true
  | .finished, _ => false
  | .failed _, _ => false

/-- A socket, the rules that are left, and where the work on it stands. -/
structure TCPThread (α : Type) where
  socket : TCPSpongeSocket α
  rules : List (EventLoop.Rule (TCPSpongeSocket α))
  phase : Phase

/-- What a turn of the loop meets: the answers of `poll`, the flag that the destructor sets,
and the milliseconds since the last tick. -/
structure Turn (α : Type) where
  poll : TCPSpongeSocket α → List EventLoop.PollFd → EventLoop.PollAnswer
  abort : Bool := false
  elapsed : Nat := 0

namespace TCPThread

variable {α : Type}

/-- `connect`, up to its loop. -/
def connect (adapt : DatagramAdapter α) (cad : FdAdapterConfig) (socket : TCPSpongeSocket α) :
    TCPThread α :=
  match (TCPSpongeSocket.connect adapt cad).run socket with
  | .ok _ socket => ⟨socket, TCPSpongeSocket.rules adapt, .connecting⟩
  | .error e socket => ⟨socket, TCPSpongeSocket.rules adapt, .failed e⟩

/-- `listen_and_accept`, up to its loop. -/
def listenAndAccept (adapt : DatagramAdapter α) (cad : FdAdapterConfig)
    (socket : TCPSpongeSocket α) : TCPThread α :=
  match (TCPSpongeSocket.listenAndAccept adapt cad).run socket with
  | .ok _ socket => ⟨socket, TCPSpongeSocket.rules adapt, .accepting⟩
  | .error e socket => ⟨socket, TCPSpongeSocket.rules adapt, .failed e⟩

/-- What follows a loop: `_tcp_main` starts, or shuts down the owner's end of the pair in both
directions, so that nothing more is written there and the owner reads to an end. -/
def afterLoop (socket : TCPSpongeSocket α) (rules : List (EventLoop.Rule (TCPSpongeSocket α))) :
    Phase → TCPThread α
  | .connecting => ⟨socket, rules, .running⟩
  | .accepting => ⟨socket, rules, .running⟩
  | .running =>
      let file := { socket.threadData.file with
        inboundEnd := true
        outboundEnd := true
        ownerGone := true }
      ⟨{ socket with threadData := { socket.threadData with file := file } }, rules, .finished⟩
  | .finished => ⟨socket, rules, .finished⟩
  | .failed e => ⟨socket, rules, .failed e⟩

/-- One turn of `_tcp_loop`. -/
def turn (adapt : DatagramAdapter α) (t : TCPThread α) (turn : Turn α) : TCPThread α :=
  if t.phase.condition t.socket.tcp then
    match (TCPSpongeSocket.loopRound adapt t.rules turn.poll turn.abort turn.elapsed).run
        t.socket with
    | .ok (true, rules) socket => ⟨socket, rules, t.phase⟩
    | .ok (false, rules) socket => afterLoop socket rules t.phase
    | .error e socket => ⟨socket, t.rules, .failed e⟩
  else afterLoop t.socket t.rules t.phase

end TCPThread

/-! ## The owner -/

/-- What happens at the other end of the pair; `grant` is the kernel's. -/
inductive OwnerOp where
  | write (data : List Byte)
  | shutdownWrite
  | leave
  | grant (sizes : List Nat)
deriving DecidableEq, Repr

namespace StreamEnd

/-- The owner writes nothing once it has shut down writing. -/
def owner (e : StreamEnd) : OwnerOp → StreamEnd
  | .write data => if e.inboundEnd then e else { e with inbound := e.inbound ++ data }
  | .shutdownWrite => { e with inboundEnd := true }
  | .leave => { e with ownerGone := true }
  | .grant sizes => { e with grants := sizes }

end StreamEnd

def TCPThread.owner {α : Type} (t : TCPThread α) (op : OwnerOp) : TCPThread α :=
  { t with socket := { t.socket with threadData :=
    { t.socket.threadData with file := t.socket.threadData.file.owner op } } }

end Sponge

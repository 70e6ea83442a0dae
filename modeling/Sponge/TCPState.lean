import Sponge.Connection.StateSummary

/-!
# The official states

`TCPState` of `tcp_state.hh` and `tcp_state.cc`: the summaries of the sender and of the
receiver with the two flags of the connection, and the twelve states of the TCP
specification in these terms.  The texts that the source compares tell the summaries
apart, so that the summaries themselves are compared here.
-/

namespace Sponge

/-- The texts of `TCPReceiverStateSummary`, one constructor each. -/
inductive TCPReceiverStateSummary where
  | error
  | listen
  | synRecv
  | finRecv
deriving DecidableEq, Repr

namespace TCPReceiverStateSummary

def text : TCPReceiverStateSummary → String
  | error => "error (connection was reset)"
  | listen => "waiting for SYN: ackno is empty"
  | synRecv => "SYN received (ackno exists), and input to stream hasn't ended"
  | finRecv => "input to stream has ended"

end TCPReceiverStateSummary

/-- `TCPState::state_summary`, of a receiver. -/
def TCPReceiver.stateSummary (r : TCPReceiver) : TCPReceiverStateSummary :=
  if r.streamOut.error then .error
  else if r.ackno.isNone then .listen
  else if r.streamOut.inputEnded then .finRecv
  else .synRecv

structure TCPState where
  sender : TCPSenderStateSummary
  receiver : TCPReceiverStateSummary
  active : Bool := true
  lingerAfterStreamsFinish : Bool := true
deriving DecidableEq, Repr

namespace TCPState

/-- The names of the specification. -/
inductive State where
  | LISTEN
  | SYN_RCVD
  | SYN_SENT
  | ESTABLISHED
  | CLOSE_WAIT
  | LAST_ACK
  | FIN_WAIT_1
  | FIN_WAIT_2
  | CLOSING
  | TIME_WAIT
  | CLOSED
  | RESET
deriving DecidableEq, Repr

/-- The constructor that takes an official name. -/
def ofState : State → TCPState
  | .LISTEN => { receiver := .listen, sender := .closed }
  | .SYN_RCVD => { receiver := .synRecv, sender := .synSent }
  | .SYN_SENT => { receiver := .listen, sender := .synSent }
  | .ESTABLISHED => { receiver := .synRecv, sender := .synAcked }
  | .CLOSE_WAIT =>
      { receiver := .finRecv, sender := .synAcked, lingerAfterStreamsFinish := false }
  | .LAST_ACK => { receiver := .finRecv, sender := .finSent, lingerAfterStreamsFinish := false }
  | .CLOSING => { receiver := .finRecv, sender := .finSent }
  | .FIN_WAIT_1 => { receiver := .synRecv, sender := .finSent }
  | .FIN_WAIT_2 => { receiver := .synRecv, sender := .finAcked }
  | .TIME_WAIT => { receiver := .finRecv, sender := .finAcked }
  | .RESET =>
      { receiver := .error, sender := .error, lingerAfterStreamsFinish := false, active := false }
  | .CLOSED =>
      { receiver := .finRecv, sender := .finAcked, lingerAfterStreamsFinish := false
        active := false }

/-- No two official states are the same summary. -/
theorem ofState_inj {a b : State} : ofState a = ofState b ↔ a = b := by
  cases a <;> cases b <;> decide

/-- The constructor that takes a sender, a receiver and the two flags. -/
def summarize (sender : TCPSender) (receiver : TCPReceiver) (active linger : Bool) : TCPState where
  sender := sender.stateSummary
  receiver := receiver.stateSummary
  active := active
  lingerAfterStreamsFinish := if active then linger else false

/-- `TCPState::name`. -/
def name (s : TCPState) : String :=
  "sender=\x60" ++ s.sender.text ++ "\x60, receiver=\x60" ++ s.receiver.text ++ "\x60, active=" ++
    (if s.active then "1" else "0") ++ ", linger_after_streams_finish=" ++
    (if s.lingerAfterStreamsFinish then "1" else "0")

end TCPState

/-- `TCPConnection::state`. -/
def TCPConnection.state (c : TCPConnection) : TCPState :=
  .summarize c.sender c.receiver c.active c.lingerAfterStreamsFinish

end Sponge

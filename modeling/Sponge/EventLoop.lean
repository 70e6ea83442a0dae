import Sponge.FileDescriptor

/-!
# The event loop

`EventLoop` of `eventloop.hh` and `eventloop.cc`.  The callbacks work on a state `σ` that
they share, and may throw; `interest` only looks at it.  A rule's descriptor is looked up in
that state, since the rule holds a duplicate that shares its `FDWrapper`.  `poll(2)` is a
parameter: it is given the state and what is asked for, and answers as it likes.
-/

namespace Sponge

/-- What `poll` found for a descriptor. -/
structure Revents where
  pollin : Bool := false
  pollout : Bool := false
  pollerr : Bool := false
  pollhup : Bool := false
  pollnval : Bool := false
deriving DecidableEq, Repr

namespace EventLoop

/-- Interest in reading or in writing. -/
inductive Direction where
  | In
  | Out
deriving DecidableEq, Repr

structure Rule (σ : Type) where
  fd : σ → FDWrapper
  direction : Direction
  callback : EStateM Exception σ Unit
  interest : σ → Bool
  cancel : EStateM Exception σ Unit

inductive Result where
  | Success
  | Timeout
  | Exit
deriving DecidableEq, Repr

/-- A `pollfd`; without `events` it only is a placeholder. -/
structure PollFd where
  fd : Nat
  events : Option Direction
deriving DecidableEq, Repr

/-- What `poll` returns. -/
inductive PollAnswer where
  | timeout
  | ready (revents : List Revents)
  | fails (errno : Nat)
deriving DecidableEq, Repr

/-- The `errno` of a call that a signal has interrupted. -/
def eintr : Nat := 4

variable {σ : Type}

/-- The number of times the descriptor has been read or written. -/
def Rule.serviceCount (rule : Rule σ) (s : σ) : UInt32 :=
  match rule.direction with
  | .In => (rule.fd s).readCount
  | .Out => (rule.fd s).writeCount

/-- `revents & events`. -/
def PollFd.ready (pollfd : PollFd) (revents : Revents) : Bool :=
  match pollfd.events with
  | none => false
  | some .In => revents.pollin
  | some .Out => revents.pollout

/-- Set up the `pollfd` of each rule; the rules whose descriptor is at its end or closed are
cancelled. -/
def prepare : List (Rule σ) → EStateM Exception σ (List (Rule σ × PollFd))
  | [] => return []
  | thisRule :: rest => do
      let s ← get
      if thisRule.direction = .In ∧ (thisRule.fd s).eof then
        thisRule.cancel
        prepare rest
      else if (thisRule.fd s).closed then
        thisRule.cancel
        prepare rest
      else
        let events := if thisRule.interest s then some thisRule.direction else none
        let polled ← prepare rest
        return (thisRule, ⟨(thisRule.fd s).fd, events⟩) :: polled

/-- Go through the poll results. -/
def dispatch : List (Rule σ × PollFd) → List Revents → EStateM Exception σ (List (Rule σ))
  | [], _ => return []
  | (thisRule, thisPollfd) :: rest, revents => do
      let thisRevents := revents.headD {}
      if thisRevents.pollerr || thisRevents.pollnval then
        throw (.runtime ⟨"EventLoop: error on polled file descriptor"⟩)
      let pollReady := thisPollfd.ready thisRevents
      if thisRevents.pollhup && thisPollfd.events.isSome && !pollReady then
        -- the only condition was a hangup: this descriptor is defunct
        thisRule.cancel
        dispatch rest revents.tail
      else
        if pollReady then
          let countBefore := thisRule.serviceCount (← get)
          thisRule.callback
          let s ← get
          if countBefore = thisRule.serviceCount s ∧ thisRule.interest s then
            throw (.runtime ⟨"EventLoop: busy wait detected: callback did not read/write fd " ++
              "and is still interested"⟩)
        let kept ← dispatch rest revents.tail
        return thisRule :: kept

/-- One call of `wait_next_event`; the rules that are left are returned with the result. -/
def waitNextEvent (rules : List (Rule σ)) (poll : σ → List PollFd → PollAnswer) :
    EStateM Exception σ (Result × List (Rule σ)) := do
  let polled ← prepare rules
  -- quit if there is nothing left to poll
  if polled.all fun p => p.2.events.isNone then
    return (.Exit, polled.map Prod.fst)
  match poll (← get) (polled.map Prod.snd) with
  | .timeout => return (.Timeout, polled.map Prod.fst)
  | .ready revents => return (.Success, ← dispatch polled revents)
  | .fails errno =>
      if errno = eintr then
        return (.Exit, polled.map Prod.fst)
      -- any other failure is caught too: the results are gone through, and nothing is ready
      return (.Success, ← dispatch polled [])

end EventLoop
end Sponge

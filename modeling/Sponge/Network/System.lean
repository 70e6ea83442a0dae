import Sponge.Connection.Endpoint

/-!
# Two connections and a network between them

Each side runs a connection.  The network may deliver any segment the other side
has ever emitted, at any time and any number of times: so it loses, duplicates,
reorders and delays.  A run is any sequence of operations of the two applications,
of the clock and of deliveries.
-/

namespace Sponge

inductive Side where
  | left
  | right
deriving DecidableEq, Repr

namespace Side

def other : Side → Side
  | left => right
  | right => left

@[simp] theorem other_other (side : Side) : side.other.other = side := by
  cases side <;> rfl

theorem other_ne (side : Side) : side.other ≠ side := by
  cases side <;> simp [other]

theorem eq_or_eq_other (side there : Side) : there = side ∨ there = side.other := by
  cases side <;> cases there <;> simp [other]

end Side

/-- What can happen at one side, or between the two. -/
inductive NetworkOp where
  | connect (side : Side)
  | write (side : Side) (data : List Byte)
  | endInputStream (side : Side)
  | tick (side : Side) (msSinceLastTick : Nat)
  | read (side : Side) (len : Nat)
  /-- the `i`-th segment emitted by the other side arrives -/
  | deliver (side : Side) (i : Nat)
deriving DecidableEq, Repr

/-- The two endpoints, and the segments each has removed from its retransmission
buffer. -/
structure Network where
  endpoint : Side → Endpoint
  removed : Side → List SegNode

namespace Network

def start (cfg : Side → TCPConfig) : Network where
  endpoint := fun side => Endpoint.start (cfg side)
  removed := fun _ => []

/-- The side an operation happens at, and what happens there. -/
def request (net : Network) : NetworkOp → Option (Side × ConnectionOp)
  | .connect side => some (side, .connect)
  | .write side data => some (side, .write data)
  | .endInputStream side => some (side, .endInputStream)
  | .tick side ms => some (side, .tick ms)
  | .read side len => some (side, .read len)
  | .deliver side i =>
      ((net.endpoint side.other).connection.segmentsOut[i]?).map fun seg => (side, .receive seg)

/-- The segments that leave the retransmission buffer between two states. -/
def leaving (before after : Endpoint) : List SegNode :=
  before.connection.sender.segBuffer.filter fun node =>
    decide (node ∉ after.connection.sender.segBuffer)

/-- An operation at one side. -/
def act (net : Network) (side : Side) (op : ConnectionOp) : Network where
  endpoint := Function.update net.endpoint side ((net.endpoint side).step op)
  removed := Function.update net.removed side
    (net.removed side ++ leaving (net.endpoint side) ((net.endpoint side).step op))

def step (net : Network) (op : NetworkOp) : Network :=
  match net.request op with
  | some (side, cop) => net.act side cop
  | none => net

/-- Neither application writes after it has ended its stream. -/
def WritesBeforeEnd (net : Network) : NetworkOp → Prop
  | .write side _ => (net.endpoint side).ended = false
  | _ => True

instance (net : Network) : ∀ op, Decidable (net.WritesBeforeEnd op)
  | .write _ _ => inferInstanceAs (Decidable (_ = _))
  | .connect _ => isTrue trivial
  | .endInputStream _ => isTrue trivial
  | .tick _ _ => isTrue trivial
  | .read _ _ => isTrue trivial
  | .deliver _ _ => isTrue trivial

theorem WritesBeforeEnd.at_side {net : Network} {op : NetworkOp} (h : net.WritesBeforeEnd op)
    {side : Side} {cop : ConnectionOp} (hreq : net.request op = some (side, cop)) :
    (net.endpoint side).WritesBeforeEnd cop := by
  cases op with
  | write side' data =>
      obtain ⟨rfl, rfl⟩ := Prod.mk.inj (Option.some.inj hreq)
      exact h
  | deliver side' i =>
      obtain ⟨seg, -, heq⟩ := Option.map_eq_some_iff.mp hreq
      obtain ⟨rfl, rfl⟩ := Prod.mk.inj heq
      exact trivial
  | connect side' =>
      obtain ⟨rfl, rfl⟩ := Prod.mk.inj (Option.some.inj hreq)
      exact trivial
  | endInputStream side' =>
      obtain ⟨rfl, rfl⟩ := Prod.mk.inj (Option.some.inj hreq)
      exact trivial
  | tick side' ms =>
      obtain ⟨rfl, rfl⟩ := Prod.mk.inj (Option.some.inj hreq)
      exact trivial
  | read side' len =>
      obtain ⟨rfl, rfl⟩ := Prod.mk.inj (Option.some.inj hreq)
      exact trivial

section Act

variable (net : Network) (side : Side) (op : ConnectionOp)

@[simp] theorem act_endpoint_self :
    (net.act side op).endpoint side = (net.endpoint side).step op := by
  simp [act]

@[simp] theorem act_endpoint_other :
    (net.act side op).endpoint side.other = net.endpoint side.other := by
  simp [act, Side.other_ne]

@[simp] theorem act_removed_self : (net.act side op).removed side =
    net.removed side ++ leaving (net.endpoint side) ((net.endpoint side).step op) := by
  simp [act]

@[simp] theorem act_removed_other :
    (net.act side op).removed side.other = net.removed side.other := by
  simp [act, Side.other_ne]

end Act

/-- A step is nothing, or an operation at one side; what arrives there has been
emitted by the other side. -/
theorem step_cases (net : Network) (op : NetworkOp) :
    net.step op = net ∨ ∃ side cop, net.request op = some (side, cop) ∧
      net.step op = net.act side cop ∧
      ∀ seg, cop = .receive seg → seg ∈ (net.endpoint side.other).connection.segmentsOut := by
  unfold step
  cases hreq : net.request op with
  | none => exact Or.inl rfl
  | some sc =>
      obtain ⟨side, cop⟩ := sc
      refine Or.inr ⟨side, cop, rfl, rfl, ?_⟩
      intro seg hseg
      cases op with
      | deliver side' i =>
          obtain ⟨seg', hget, heq⟩ := Option.map_eq_some_iff.mp hreq
          obtain ⟨rfl, rfl⟩ := Prod.mk.inj heq
          rw [← ConnectionOp.receive.inj hseg]
          exact List.mem_of_getElem? hget
      | connect side' => simp [request, hseg] at hreq
      | write side' data => simp [request, hseg] at hreq
      | endInputStream side' => simp [request, hseg] at hreq
      | tick side' ms => simp [request, hseg] at hreq
      | read side' len => simp [request, hseg] at hreq

end Network
end Sponge

import Sponge.Lib.Run
import Sponge.Router

/-!
# Hosts, routers and wires

`Host` and `Network` of `network_simulator.cc`, for any hosts, routers and wires between
their interfaces.  A frame reaches the other interfaces of its wire with its payload in one
buffer, as `deliver` passes it on.  The simulator lets every frame arrive once and in order;
here it may arrive at any time, any number of times or never, so that the simulator's runs
are some of these.  What a host expects to receive is left out.
-/

namespace Sponge

/-- The addresses of an interface. -/
structure InterfaceAddress where
  ethernetAddress : EthernetAddress
  ipAddress : UInt32
deriving DecidableEq, Repr

/-- A new interface. -/
def AsyncNetworkInterface.new (address : InterfaceAddress) : AsyncNetworkInterface where
  interface := { ethernetAddress := address.ethernetAddress, ipAddress := address.ipAddress }

structure Host where
  interface : AsyncNetworkInterface
  nextHop : Address

namespace Host

def sendDatagram (host : Host) (dgram : InternetDatagram) : Except RuntimeError Host := do
  let interface ← host.interface.sendDatagram dgram host.nextHop
  return { host with interface }

/-- The datagram that `send_to` makes; the length is a `uint16_t`. -/
def datagramTo (host : Host) (dst : UInt32) (payload : Buffer) (ttl : UInt8) :
    InternetDatagram :=
  let header : IPv4Header := { src := host.interface.interface.ipAddress, dst, ttl }
  { header := { header with len := header.hlen.toUInt16 * 4 + payload.length.toUInt16 }
    payload := .ofBuffer payload }

/-- `Host::send_to`, with any payload. -/
def sendTo (host : Host) (destination : Address) (payload : Buffer) (ttl : UInt8) :
    Except RuntimeError (Host × InternetDatagram) := do
  let dst ← destination.ipv4Numeric
  let dgram := host.datagramTo dst payload ttl
  return (← host.sendDatagram dgram, dgram)

end Host

/-- An interface of a router, or the one of a host. -/
inductive Port (ρ η : Type) where
  | router (r : ρ) (interfaceNum : Nat)
  | host (h : η)
deriving DecidableEq, Repr

/-- The hosts and the routers, and what they have been asked to send. -/
structure Internet (ρ η : Type) where
  router : ρ → Router
  host : η → Host
  /-- the datagrams that hosts have sent -/
  submitted : List (η × InternetDatagram) := []

/-- What can happen: a host sends a datagram or takes one that it has received, a router
routes, a frame arrives, or time passes for an interface. -/
inductive InternetOp (ρ η : Type) where
  | send (h : η) (dgram : InternetDatagram)
  | take (h : η)
  | route (r : ρ)
  /-- the `k`-th frame that `src` has emitted reaches `dst` -/
  | deliver (src dst : Port ρ η) (k : Nat)
  | tick (p : Port ρ η) (msSinceLastTick : Nat)
deriving DecidableEq, Repr

namespace Internet

variable {ρ η : Type}

/-- The interface at a port. -/
def port (net : Internet ρ η) : Port ρ η → Option AsyncNetworkInterface
  | .router r n => (net.router r).interfaces[n]?
  | .host h => some (net.host h).interface

/-- `deliver` puts the payload into one buffer. -/
def onePiece (frame : EthernetFrame) : EthernetFrame :=
  { frame with payload := .ofBuffer frame.payload.concatenate }

/-- The `k`-th frame that a port has emitted. -/
def emitted (net : Internet ρ η) (src : Port ρ η) (k : Nat) : Option EthernetFrame :=
  (net.port src).bind fun a => a.interface.framesOut[k]?

section Set

variable [DecidableEq ρ] (net : Internet ρ η)

def setRouter (r : ρ) (router : Router) : Internet ρ η :=
  { net with router := Function.update net.router r router }

@[simp] theorem setRouter_router_self (r : ρ) (router : Router) :
    (net.setRouter r router).router r = router :=
  Function.update_self ..

theorem setRouter_router_ne {r r' : ρ} (h : r' ≠ r) (router : Router) :
    (net.setRouter r router).router r' = net.router r' :=
  Function.update_of_ne h ..

end Set

section Set

variable [DecidableEq η] (net : Internet ρ η)

def setHost (h : η) (host : Host) : Internet ρ η :=
  { net with host := Function.update net.host h host }

@[simp] theorem setHost_host_self (h : η) (host : Host) : (net.setHost h host).host h = host :=
  Function.update_self ..

theorem setHost_host_ne {h h' : η} (hne : h' ≠ h) (host : Host) :
    (net.setHost h host).host h' = net.host h' :=
  Function.update_of_ne hne ..

end Set

variable [DecidableEq ρ] [DecidableEq η]

def recvFrame (net : Internet ρ η) (frame : EthernetFrame) :
    Port ρ η → Except RuntimeError (Internet ρ η)
  | .router r n => do
      let router ← (net.router r).recvFrame n frame
      return net.setRouter r router
  | .host h => do
      let interface ← (net.host h).interface.recvFrame frame
      return net.setHost h { net.host h with interface }

def tick (net : Internet ρ η) (msSinceLastTick : Nat) :
    Port ρ η → Except RuntimeError (Internet ρ η)
  | .router r n => do
      let router ← (net.router r).tick n msSinceLastTick
      return net.setRouter r router
  | .host h =>
      let a := (net.host h).interface
      .ok (net.setHost h { net.host h with
        interface := { a with interface := a.interface.tick msSinceLastTick } })

def send (net : Internet ρ η) (h : η) (dgram : InternetDatagram) :
    Except RuntimeError (Internet ρ η) := do
  let host ← (net.host h).sendDatagram dgram
  return { net.setHost h host with submitted := net.submitted ++ [(h, dgram)] }

/-- `datagrams_out().pop()`. -/
def take (net : Internet ρ η) (h : η) : Internet ρ η :=
  net.setHost h { net.host h with interface := (net.host h).interface.pop }

/-- One step, unless an earlier one has thrown. -/
def step (address : String → Address) (s : Except RuntimeError (Internet ρ η))
    (op : InternetOp ρ η) : Except RuntimeError (Internet ρ η) := do
  let net ← s
  match op with
  | .send h dgram => net.send h dgram
  | .take h => return net.take h
  | .route r => do
      let router ← (net.router r).route address
      return net.setRouter r router
  | .deliver src dst k =>
      match net.emitted src k with
      | some frame => net.recvFrame (onePiece frame) dst
      | none => return net
  | .tick p ms => net.tick ms p

end Internet

/-- How an internet is set up: the interfaces and the routes that each router is given, the
addresses and the next hop of each host, and which interfaces are on one wire. -/
structure Topology (ρ η : Type) where
  interfaces : ρ → List InterfaceAddress
  routes : ρ → List (RoutNode Address)
  host : η → InterfaceAddress
  nextHop : η → Address
  wire : Port ρ η → Nat

namespace Topology

variable {ρ η : Type} (topo : Topology ρ η)

def start : Internet ρ η where
  router := fun r =>
    { interfaces := (topo.interfaces r).map .new, routMap := Router.addRoutes (topo.routes r) }
  host := fun h => { interface := .new (topo.host h), nextHop := topo.nextHop h }

/-- The addresses at a port. -/
def address : Port ρ η → Option InterfaceAddress
  | .router r n => (topo.interfaces r)[n]?
  | .host h => some (topo.host h)

/-- An interface with these addresses is on the wire of `p`. -/
def Neighbour (p : Port ρ η) (ip : UInt32) (ethernet : EthernetAddress) : Prop :=
  ∃ q, topo.wire q = topo.wire p ∧ topo.address q = some ⟨ethernet, ip⟩

/-- The routes lead out of interfaces that are there, to IPv4 addresses; on one wire all
Ethernet addresses are different, and none is the one that stands for all. -/
structure Proper : Prop where
  exist : ∀ r, ∀ x ∈ topo.routes r, x.interfaceNum < (topo.interfaces r).length
  numeric : ∀ r, ∀ x ∈ topo.routes r, ∀ hop ∈ x.nextHop, ∃ ip, hop.ipv4Numeric = .ok ip
  nextHop : ∀ h, ∃ ip, (topo.nextHop h).ipv4Numeric = .ok ip
  distinct : ∀ p q a b, topo.wire p = topo.wire q → topo.address p = some a →
    topo.address q = some b → a.ethernetAddress = b.ethernetAddress → p = q
  unicast : ∀ p a, topo.address p = some a → a.ethernetAddress ≠ ethernetBroadcast

end Topology
end Sponge

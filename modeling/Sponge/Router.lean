import Sponge.Lib.OrderedSet
import Sponge.NetworkInterface

/-!
# The router

`Router::add_route`, `Router::match` and `Router::route_one_datagram` of
`router.cc`, over the table `rout_map` of `router.hh`.  The table is a
`std::set` ordered by `RoutNode::operator<`; it is the list of its nodes in
iteration order, grown by `OrderedSet.insertUnique`.

The addresses are a type parameter of the table.  `Address(string)` asks `getaddrinfo`, so
the lookup takes that conversion as the argument `address`.

`Router` is the table with the interfaces, whose `AsyncNetworkInterface`s keep the
datagrams they receive until `Router::route` sends them on.
-/

namespace Sponge

variable {Addr : Type*}

/-- A route: the prefix, its length in bits, the next hop (none when the network
is directly attached) and the outgoing interface. -/
structure RoutNode (Addr : Type*) where
  routePrefix : UInt32 := 0
  prefixLength : UInt8 := 0
  nextHop : Option Addr := none
  interfaceNum : Nat := 0
deriving DecidableEq, Repr

/-- `RoutNode::operator<`.  A direct route is smaller than every route, itself
and the other direct routes included. -/
def RoutNode.lt (a b : RoutNode Addr) : Bool :=
  if a.nextHop.isNone then true
  else if b.nextHop.isNone then false
  else decide (b.prefixLength < a.prefixLength)

/-- The routes in the iteration order of `rout_map`. -/
abbrev RoutMap (Addr : Type*) := List (RoutNode Addr)

/-- One call of `send_datagram`. -/
structure SendDatagram (Addr : Type*) where
  interfaceNum : Nat
  dgram : InternetDatagram
  nextHop : Addr
deriving DecidableEq, Repr

namespace Router

/-- `rout_map.insert`. -/
def addRoute (routMap : RoutMap Addr) (route : RoutNode Addr) : RoutMap Addr :=
  OrderedSet.insertUnique RoutNode.lt route routMap

/-- The table after a sequence of `add_route` calls. -/
def addRoutes (added : List (RoutNode Addr)) : RoutMap Addr :=
  added.foldl addRoute []

/-- `Router::match`.  The shift is by less than 32 bits for every prefix length
from 1 to 32; the length 0 is tested on its own. -/
def matchRoute (routIp : UInt32) (prefixLen : UInt8) (ip : UInt32) : Bool :=
  if prefixLen = 0 then true
  else routIp >>> (32 - prefixLen.toUInt32) == ip >>> (32 - prefixLen.toUInt32)

end Router

/-- The test of the lookup loop on one node. -/
def RoutNode.matches (route : RoutNode Addr) (ip : UInt32) : Bool :=
  Router.matchRoute route.routePrefix route.prefixLength ip

namespace Router

/-- `Router::route_one_datagram`: the `send_datagram` calls it makes.  A datagram
whose TTL would reach zero is dropped; otherwise the TTL is decremented and the
first matching node in iteration order decides. -/
def routeOneDatagram (address : String → Addr) (routMap : RoutMap Addr)
    (dgram : InternetDatagram) : List (SendDatagram Addr) :=
  if dgram.header.ttl ≤ 1 then []
  else
    let dgram := { dgram with header := { dgram.header with ttl := dgram.header.ttl - 1 } }
    let ip := dgram.header.dst
    match routMap.find? fun x => x.matches ip with
    | none => []
    | some x =>
        match x.nextHop with
        | some hop => [⟨x.interfaceNum, dgram, hop⟩]
        | none => [⟨x.interfaceNum, dgram, address (toString dgram.header.dst)⟩]

end Router

/-- `AsyncNetworkInterface`: received datagrams are kept for later. -/
structure AsyncNetworkInterface where
  interface : NetworkInterface
  datagramsOut : List InternetDatagram := []

namespace AsyncNetworkInterface

def recvFrame (a : AsyncNetworkInterface) (frame : EthernetFrame) :
    Except RuntimeError AsyncNetworkInterface := do
  let (interface, optionalDgram) ← a.interface.recvFrame frame
  return { interface, datagramsOut := a.datagramsOut ++ optionalDgram.toList }

def sendDatagram (a : AsyncNetworkInterface) (dgram : InternetDatagram) (nextHop : Address) :
    Except RuntimeError AsyncNetworkInterface := do
  let interface ← a.interface.sendDatagram dgram nextHop
  return { a with interface }

/-- `datagrams_out().pop()`. -/
def pop (a : AsyncNetworkInterface) : AsyncNetworkInterface :=
  { a with datagramsOut := a.datagramsOut.tail }

end AsyncNetworkInterface

structure Router where
  interfaces : List AsyncNetworkInterface := []
  routMap : RoutMap Address := []

namespace Router

/-- `_interfaces[n].send_datagram(..)`.  The index is not checked: that there is such an
interface is up to the routes, and what follows if there is none is not defined. -/
def sendOn (r : Router) (call : SendDatagram Address) : Except RuntimeError Router :=
  match r.interfaces[call.interfaceNum]? with
  | some a => do
      let a ← a.sendDatagram call.dgram call.nextHop
      return { r with interfaces := r.interfaces.set call.interfaceNum a }
  | none => .error ⟨"undefined: no such interface"⟩

/-- `route_one_datagram` with its effect on the interfaces. -/
def forward (address : String → Address) (r : Router) (dgram : InternetDatagram) :
    Except RuntimeError Router :=
  (routeOneDatagram address r.routMap dgram).foldlM sendOn r

/-- `datagrams_out()` of interface `i`. -/
def queue (r : Router) (i : Nat) : List InternetDatagram :=
  (r.interfaces[i]?.map AsyncNetworkInterface.datagramsOut).getD []

/-- The inner loop of `route`; each round takes one datagram from the queue. -/
def drain (address : String → Address) (i : Nat) : Nat → Router → Except RuntimeError Router
  | 0, r => .ok r
  | fuel + 1, r =>
      match r.queue i with
      | [] => .ok r
      | dgram :: _ => do
          -- the datagram is taken from the queue only when it has been forwarded
          let r ← forward address r dgram
          drain address i fuel { r with interfaces := r.interfaces.modify i .pop }

/-- `Router::route`.  Routing adds to no queue of received datagrams, so the length of a
queue when its turn comes is fuel enough. -/
def route (address : String → Address) (r : Router) : Except RuntimeError Router :=
  (List.range r.interfaces.length).foldlM (fun r i => drain address i (r.queue i).length r) r

/-- `interface(n).recv_frame(frame)`. -/
def recvFrame (r : Router) (n : Nat) (frame : EthernetFrame) : Except RuntimeError Router :=
  match r.interfaces[n]? with
  | some a => do
      let a ← a.recvFrame frame
      return { r with interfaces := r.interfaces.set n a }
  | none => .error ⟨"vector::_M_range_check"⟩

/-- `interface(n).tick(ms_since_last_tick)`. -/
def tick (r : Router) (n : Nat) (msSinceLastTick : Nat) : Except RuntimeError Router :=
  match r.interfaces[n]? with
  | some a => .ok { r with
      interfaces := r.interfaces.set n { a with interface := a.interface.tick msSinceLastTick } }
  | none => .error ⟨"vector::_M_range_check"⟩

end Router
end Sponge

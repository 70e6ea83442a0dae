import Sponge.Internet.Journey

/-!
# Runs of an internet

Nothing that happens makes a host or a router throw, every mapping in an ARP cache is true,
and every datagram that is received has come from a host, hop by hop.
-/

namespace Sponge
namespace Topology

variable {ρ η : Type} {topo : Topology ρ η} {address : String → Address}

/-- The invariant. -/
structure Sound (topo : Topology ρ η) (address : String → Address) (net : Internet ρ η) :
    Prop where
  router : ∀ r, topo.RouterSound address net.submitted r (net.router r)
  host : ∀ h, topo.PortSound address net.submitted (.host h) (net.host h).interface
  nextHop : ∀ h, (net.host h).nextHop = topo.nextHop h
  submitted : Encodable net.submitted

theorem sound_start (topo : Topology ρ η) (address : String → Address) :
    topo.Sound address topo.start where
  router := by
    intro r
    refine ⟨rfl, List.length_map _, ?_⟩
    intro n a ha
    have hmap : ((topo.interfaces r)[n]?).map AsyncNetworkInterface.new = some a := by
      rw [← List.getElem?_map]
      exact ha
    obtain ⟨own, hown, rfl⟩ := Option.map_eq_some_iff.mp hmap
    exact portSound_new hown
  host := fun h => portSound_new rfl
  nextHop := fun _ => rfl
  submitted := fun x hx => absurd hx List.not_mem_nil

section Steps

variable {net : Internet ρ η}

theorem Sound.port (hs : topo.Sound address net) {p : Port ρ η} {a : AsyncNetworkInterface}
    (ha : net.port p = some a) : topo.PortSound address net.submitted p a := by
  cases p with
  | router r n => exact (hs.router r).port n a ha
  | host h =>
      rw [← Option.some.inj ha]
      exact hs.host h

/-- The interfaces are those of the topology. -/
theorem Sound.exists_port (hs : topo.Sound address net) {p : Port ρ η}
    (hp : (topo.address p).isSome = true) : ∃ a, net.port p = some a := by
  cases p with
  | router r n =>
      have hn : n < (topo.interfaces r).length := by
        obtain ⟨own, hown⟩ := Option.isSome_iff_exists.mp hp
        exact (List.getElem?_eq_some_iff.mp hown).1
      rw [← (hs.router r).length] at hn
      exact ⟨_, List.getElem?_eq_getElem hn⟩
  | host h => exact ⟨_, rfl⟩

/-- One more datagram has been submitted. -/
theorem Sound.submit (hs : topo.Sound address net) (h : η) {dgram : InternetDatagram}
    (hdgram : dgram.Representable) :
    topo.Sound address { net with submitted := net.submitted ++ [(h, dgram)] } where
  router := fun r =>
    ⟨(hs.router r).routMap, (hs.router r).length, fun n a ha =>
      ((hs.router r).port n a ha).mono _⟩
  host := fun h' => (hs.host h').mono _
  nextHop := hs.nextHop
  submitted := by
    intro x hx
    cases List.mem_append.mp hx with
    | inl hold => exact hs.submitted x hold
    | inr hnew =>
        rw [List.mem_singleton.mp hnew]
        exact hdgram

theorem Sound.setRouter [DecidableEq ρ] (hs : topo.Sound address net) {r : ρ} {router : Router}
    (hrouter : topo.RouterSound address net.submitted r router) :
    topo.Sound address (net.setRouter r router) where
  router := by
    intro r'
    by_cases hr : r' = r
    · subst hr
      rw [Internet.setRouter_router_self]
      exact hrouter
    · rw [Internet.setRouter_router_ne net hr]
      exact hs.router r'
  host := hs.host
  nextHop := hs.nextHop
  submitted := hs.submitted

theorem Sound.setHost [DecidableEq η] (hs : topo.Sound address net) {h : η} (host : Host)
    (hinterface : topo.PortSound address net.submitted (.host h) host.interface)
    (hnext : host.nextHop = topo.nextHop h) : topo.Sound address (net.setHost h host) where
  router := hs.router
  host := by
    intro h'
    by_cases hh : h' = h
    · subst hh
      rw [Internet.setHost_host_self]
      exact hinterface
    · rw [Internet.setHost_host_ne net hh]
      exact hs.host h'
  nextHop := by
    intro h'
    by_cases hh : h' = h
    · subst hh
      rw [Internet.setHost_host_self]
      exact hnext
    · rw [Internet.setHost_host_ne net hh]
      exact hs.nextHop h'
  submitted := hs.submitted

theorem Sound.send [DecidableEq η] (hproper : topo.Proper) (hs : topo.Sound address net) (h : η)
    {dgram : InternetDatagram} (hdgram : dgram.Representable) :
    ∃ net', net.send h dgram = .ok net' ∧ topo.Sound address net' ∧
      net'.submitted = net.submitted ++ [(h, dgram)] := by
  obtain ⟨hop, hhop⟩ := hproper.nextHop h
  have hmore := hs.submit h hdgram
  have hasked : topo.Asked address (net.submitted ++ [(h, dgram)]) (.host h) hop dgram :=
    ⟨h, dgram, [], List.mem_append_right _ (List.mem_singleton.mpr rfl), .sent hhop⟩
  rw [← hs.nextHop h] at hhop
  obtain ⟨a', heq, ha'⟩ := (hmore.host h).sendDatagram hdgram hhop hasked
  have hsent : net.send h dgram = .ok { net.setHost h { net.host h with interface := a' } with
      submitted := net.submitted ++ [(h, dgram)] } := by
    have hhost : (net.host h).sendDatagram dgram = .ok { net.host h with interface := a' } := by
      rw [Host.sendDatagram]
      have heq' : (net.host h).interface.sendDatagram dgram (net.host h).nextHop = .ok a' := heq
      rw [heq']
      rfl
    rw [Internet.send, hhost]
    rfl
  exact ⟨_, hsent, hmore.setHost { net.host h with interface := a' } ha' (hs.nextHop h),
    rfl⟩

theorem Sound.take [DecidableEq η] (hs : topo.Sound address net) (h : η) :
    topo.Sound address (net.take h) :=
  hs.setHost { net.host h with interface := (net.host h).interface.pop }
    ((hs.host h).taken fun _ hd => List.mem_of_mem_tail hd) (hs.nextHop h)

theorem Sound.recvFrame [DecidableEq ρ] [DecidableEq η] (hproper : topo.Proper)
    (hs : topo.Sound address net) {src dst : Port ρ η}
    (hwire : topo.wire src = topo.wire dst) (hdst : (topo.address dst).isSome = true)
    {frame : EthernetFrame} (hframe : NetworkInterface.Genuine (topo.Neighbour src)
      (topo.Asked address net.submitted src) frame) :
    ∃ net', net.recvFrame (Internet.onePiece frame) dst = .ok net' ∧ topo.Sound address net' ∧
      net'.submitted = net.submitted := by
  obtain ⟨a, ha⟩ := hs.exists_port hdst
  obtain ⟨a', heq, ha'⟩ := (hs.port ha).recvFrame hproper hwire hframe
  cases dst with
  | router r n =>
      have hrecv : (net.router r).recvFrame n (Internet.onePiece frame) =
          .ok { net.router r with interfaces := (net.router r).interfaces.set n a' } := by
        have hget : (net.router r).interfaces[n]? = some a := ha
        rw [Router.recvFrame, hget]
        simp only [heq]
        rfl
      refine ⟨_, ?_, hs.setRouter ((hs.router r).set ha'), rfl⟩
      rw [Internet.recvFrame, hrecv]
      rfl
  | host h =>
      have hhost : (net.host h).interface.recvFrame (Internet.onePiece frame) = .ok a' := by
        rw [Option.some.inj ha]
        exact heq
      refine ⟨_, ?_, hs.setHost { net.host h with interface := a' } ha' (hs.nextHop h),
        rfl⟩
      rw [Internet.recvFrame, hhost]
      rfl

theorem Sound.tick [DecidableEq ρ] [DecidableEq η] (hs : topo.Sound address net) {p : Port ρ η}
    (hp : (topo.address p).isSome = true) (ms : Nat) :
    ∃ net', net.tick ms p = .ok net' ∧ topo.Sound address net' ∧
      net'.submitted = net.submitted := by
  obtain ⟨a, ha⟩ := hs.exists_port hp
  have hticked := (hs.port ha).tick ms
  cases p with
  | router r n =>
      have hget : (net.router r).interfaces[n]? = some a := ha
      refine ⟨_, ?_, hs.setRouter ((hs.router r).set hticked), rfl⟩
      rw [Internet.tick, Router.tick, hget]
      rfl
  | host h =>
      refine ⟨_, rfl, hs.setHost { net.host h with interface :=
        { (net.host h).interface with interface := (net.host h).interface.interface.tick ms } }
        ?_ (hs.nextHop h), rfl⟩
      rw [Option.some.inj ha]
      exact hticked

theorem Sound.route [DecidableEq ρ]
    (haddress : ∀ ip : UInt32, address (toString ip) = .ipv4 ip 0)
    (hproper : topo.Proper) (hs : topo.Sound address net) (r : ρ) :
    ∃ router', (net.router r).route address = .ok router' ∧
      topo.Sound address (net.setRouter r router') := by
  have hcalls := (hs.router r).justified haddress hproper hs.submitted
  obtain ⟨sent, heq, hsent⟩ := (hs.router r).sends hcalls
  refine ⟨sent.emptied, ?_, hs.setRouter hsent.emptied⟩
  rw [Router.route_eq, heq]
  rfl

/-- **One step keeps the invariant, and throws nothing.** -/
theorem Sound.step [DecidableEq ρ] [DecidableEq η]
    (haddress : ∀ ip : UInt32, address (toString ip) = .ipv4 ip 0)
    (hproper : topo.Proper) (hs : topo.Sound address net) {op : InternetOp ρ η}
    (hop : topo.Admits op) :
    ∃ net', Internet.step address (.ok net) op = .ok net' ∧ topo.Sound address net' := by
  cases op with
  | send h dgram =>
      obtain ⟨net', heq, hkept, -⟩ := hs.send hproper h hop
      exact ⟨net', heq, hkept⟩
  | take h => exact ⟨_, rfl, hs.take h⟩
  | route r =>
      obtain ⟨router', heq, hkept⟩ := hs.route haddress hproper r
      refine ⟨_, ?_, hkept⟩
      show ((net.router r).route address >>= fun router => pure (net.setRouter r router)) = _
      rw [heq]
      rfl
  | deliver src dst k =>
      obtain ⟨hwire, -, hdst⟩ := hop
      cases hemitted : net.emitted src k with
      | none =>
          refine ⟨net, ?_, hs⟩
          simp only [Internet.step, bind, Except.bind, hemitted]
          rfl
      | some frame =>
          obtain ⟨a, ha, hframe⟩ := Option.bind_eq_some_iff.mp hemitted
          obtain ⟨own, -, htruthful, -⟩ := hs.port ha
          obtain ⟨net', heq, hkept, -⟩ := hs.recvFrame hproper hwire hdst
            (htruthful.pending frame (List.mem_of_getElem? hframe))
          refine ⟨net', ?_, hkept⟩
          simp only [Internet.step, bind, Except.bind, hemitted]
          exact heq
  | tick p ms =>
      obtain ⟨net', heq, hkept, -⟩ := hs.tick hop ms
      exact ⟨net', heq, hkept⟩

end Steps

/-- The runs of an internet. -/
abbrev Reached [DecidableEq ρ] [DecidableEq η] (topo : Topology ρ η) (address : String → Address)
    (s : Except RuntimeError (Internet ρ η)) : Prop :=
  Run.Reach (Internet.step address) (fun _ op => topo.Admits op) (.ok topo.start) s

theorem Reached.sound [DecidableEq ρ] [DecidableEq η]
    (haddress : ∀ ip : UInt32, address (toString ip) = .ipv4 ip 0)
    (hproper : topo.Proper) {s : Except RuntimeError (Internet ρ η)}
    (hr : topo.Reached address s) : ∃ net, s = .ok net ∧ topo.Sound address net := by
  refine Run.Reach.invariant (P := fun s => ∃ net, s = .ok net ∧ topo.Sound address net) hr
    ⟨_, rfl, sound_start topo address⟩ ?_
  rintro s op hop ⟨net, rfl, hs⟩
  obtain ⟨net', heq, hkept⟩ := hs.step haddress hproper hop
  exact ⟨net', heq, hkept⟩

end Topology

/-- **What is received has been sent.**  In a proper topology, however hosts send, routers route
and frames are lost, repeated and reordered on their wires: nothing throws; every mapping in a
cache is that of a neighbour; and a datagram that an interface has received was sent by a host,
and given over each wire to the next hop, to the last of which the interface belongs.  It is the
datagram that was sent, its TTL lower by one for each router on the path. -/
theorem datagrams_travel {ρ η : Type} [DecidableEq ρ] [DecidableEq η] {topo : Topology ρ η}
    {address : String → Address} (haddress : ∀ ip : UInt32, address (toString ip) = .ipv4 ip 0)
    (hproper : topo.Proper) {s : Except RuntimeError (Internet ρ η)}
    (hr : topo.Reached address s) :
    ∃ net, s = .ok net ∧ ∀ q a, net.port q = some a →
      (∀ ip dst, a.interface.ipAddressMap.lookup ip = some dst → topo.Neighbour q ip dst) ∧
      ∀ received ∈ a.datagramsOut, ∃ h original p hop dgram path,
        (h, original) ∈ net.submitted ∧ topo.Journey address h original p hop dgram path ∧
        topo.wire q = topo.wire p ∧ hop = a.interface.ipAddress ∧
        received.header = { original.header with
          ttl := received.header.ttl, cksum := received.header.cksum } ∧
        received.header.ttl.toNat + path.length = original.header.ttl.toNat ∧
        (path ≠ [] → 0 < received.header.ttl.toNat) ∧
        received.payload.concatenate = original.payload.concatenate := by
  obtain ⟨net, rfl, hs⟩ := hr.sound haddress hproper
  refine ⟨net, rfl, fun q a ha => ?_⟩
  obtain ⟨own, hown, htruthful, harrived⟩ := hs.port ha
  refine ⟨htruthful.cache, fun received hreceived => ?_⟩
  obtain ⟨h, original, p, hop, dgram, path, hmem, hjourney, hwire, ⟨own', hown', hip⟩, hread⟩ :=
    harrived received hreceived
  have horiginal := hs.submitted _ hmem
  have haged := (hjourney.aged haddress horiginal).readAs horiginal hread
  have hhop : hop = a.interface.ipAddress := by
    rw [htruthful.ipAddress, ← hip, Option.some.inj (hown'.symm.trans hown)]
  exact ⟨h, original, p, hop, dgram, path, hmem, hjourney, hwire, hhop, haged.header, haged.ttl,
    fun hne => haged.alive (List.length_pos_iff.mpr hne), haged.payload⟩

/-! ## The network of the simulator -/

/-- The hosts of `Network`. -/
inductive HostName where
  | applesauce
  | defaultRouter
  | cherrypie
  | hsRouter
  | dm42
  | dm43
deriving DecidableEq, Repr

/-- The number of an address that is written in four parts. -/
def quad (a b c d : Nat) : UInt32 :=
  (((a * 256 + b) * 256 + c) * 256 + d).toUInt32

namespace HostName

def ipAddress : HostName → UInt32
  | applesauce => quad 10 0 0 2
  | defaultRouter => quad 171 67 76 1
  | cherrypie => quad 192 168 0 2
  | hsRouter => quad 143 195 0 1
  | dm42 => quad 198 178 229 42
  | dm43 => quad 198 178 229 43

def nextHop : HostName → UInt32
  | applesauce => quad 10 0 0 1
  | defaultRouter => 0
  | cherrypie => quad 192 168 0 1
  | hsRouter => 0
  | dm42 => quad 198 178 229 1
  | dm43 => quad 198 178 229 1

/-- The interface of the router that `simulate_physical_connections` connects a host with. -/
def wire : HostName → Nat
  | applesauce => 1
  | defaultRouter => 0
  | cherrypie => 3
  | hsRouter => 5
  | dm42 => 4
  | dm43 => 4

end HostName

/-- What the constructor of `Network` sets up; the Ethernet addresses are random. -/
def simulatorTopology (ethernet : Port Unit HostName → EthernetAddress) :
    Topology Unit HostName where
  interfaces := fun _ =>
    [⟨ethernet (.router () 0), quad 171 67 76 46⟩, ⟨ethernet (.router () 1), quad 10 0 0 1⟩,
      ⟨ethernet (.router () 2), quad 172 16 0 1⟩, ⟨ethernet (.router () 3), quad 192 168 0 1⟩,
      ⟨ethernet (.router () 4), quad 198 178 229 1⟩, ⟨ethernet (.router () 5), quad 143 195 0 2⟩,
      ⟨ethernet (.router () 6), quad 128 30 76 255⟩]
  routes := fun _ =>
    [⟨0, 0, some (.ipv4 (quad 171 67 76 1) 0), 0⟩, ⟨quad 10 0 0 0, 8, none, 1⟩,
      ⟨quad 172 16 0 0, 16, none, 2⟩, ⟨quad 192 168 0 0, 24, none, 3⟩,
      ⟨quad 198 178 229 0, 24, none, 4⟩,
      ⟨quad 143 195 0 0, 17, some (.ipv4 (quad 143 195 0 1) 0), 5⟩,
      ⟨quad 143 195 128 0, 18, some (.ipv4 (quad 143 195 0 1) 0), 5⟩,
      ⟨quad 143 195 192 0, 19, some (.ipv4 (quad 143 195 0 1) 0), 5⟩,
      ⟨quad 128 30 76 255, 16, some (.ipv4 (quad 128 30 0 1) 0), 6⟩]
  host := fun h => ⟨ethernet (.host h), h.ipAddress⟩
  nextHop := fun h => .ipv4 h.nextHop 0
  wire
    | .router _ n => n
    | .host h => h.wire

/-- The interfaces that there are. -/
def simulatorPorts : List (Port Unit HostName) :=
  [.router () 0, .router () 1, .router () 2, .router () 3, .router () 4, .router () 5, .router () 6,
    .host .applesauce, .host .defaultRouter, .host .cherrypie, .host .hsRouter, .host .dm42,
    .host .dm43]

theorem simulatorTopology_port {ethernet : Port Unit HostName → EthernetAddress}
    {p : Port Unit HostName} {a : InterfaceAddress}
    (h : (simulatorTopology ethernet).address p = some a) :
    p ∈ simulatorPorts ∧ a.ethernetAddress = ethernet p := by
  cases p with
  | router r n =>
      have hn : n < 7 := (List.getElem?_eq_some_iff.mp h).1
      interval_cases n
      all_goals
        cases h
        exact ⟨by cases r; decide, rfl⟩
  | host name =>
      cases h
      exact ⟨by cases name <;> decide, rfl⟩

/-- It is enough that the Ethernet addresses are different and none is the one for all. -/
theorem simulatorTopology_proper {ethernet : Port Unit HostName → EthernetAddress}
    (hdistinct : ∀ p ∈ simulatorPorts, ∀ q ∈ simulatorPorts, ethernet p = ethernet q → p = q)
    (hunicast : ∀ p ∈ simulatorPorts, ethernet p ≠ ethernetBroadcast) :
    (simulatorTopology ethernet).Proper where
  exist := by
    intro r
    simp [simulatorTopology]
  numeric := by
    intro r
    simp [simulatorTopology, Address.ipv4Numeric]
  nextHop := fun h => ⟨h.nextHop, rfl⟩
  distinct := by
    intro p q a b _ hp hq hsame
    obtain ⟨hpmem, hpa⟩ := simulatorTopology_port hp
    obtain ⟨hqmem, hqb⟩ := simulatorTopology_port hq
    rw [hpa, hqb] at hsame
    exact hdistinct p hpmem q hqmem hsame
  unicast := by
    intro p a hp
    obtain ⟨hpmem, hpa⟩ := simulatorTopology_port hp
    rw [hpa]
    exact hunicast p hpmem

/-- A private Ethernet address; routers and hosts are told apart by its fifth byte. -/
def privateAddress (fifth last : Byte) : EthernetAddress := #v[2, 0, 0, 0, fifth, last]

def privateEthernet : Port Unit HostName → EthernetAddress
  | .router _ n => privateAddress 0 n.toUInt8
  | .host .applesauce => privateAddress 1 1
  | .host .defaultRouter => privateAddress 1 2
  | .host .cherrypie => privateAddress 1 3
  | .host .hsRouter => privateAddress 1 4
  | .host .dm42 => privateAddress 1 5
  | .host .dm43 => privateAddress 1 6

/-- What `getaddrinfo` makes of a number in decimal digits. -/
def addressOfDigits (ip : String) : Address :=
  .ipv4 (Nat.ofDigitChars 10 ip.toList 0).toUInt32 0

theorem addressOfDigits_toString (ip : UInt32) : addressOfDigits (toString ip) = .ipv4 ip 0 := by
  have hdigits : (toString ip).toList = Nat.toDigits 10 ip.toNat := Nat.toList_repr
  rw [addressOfDigits, hdigits, Nat.ofDigitChars_toDigits (by norm_num) (by norm_num)]
  simp

/-- Two bytes from applesauce to cherrypie. -/
def cherrypieDatagram : InternetDatagram :=
  { header := { src := quad 10 0 0 2, dst := quad 192 168 0 2, ttl := 64, len := 22 }
    payload := .ofBuffer [104, 105] }

example : ((simulatorTopology privateEthernet).start.host .applesauce).datagramTo
    (quad 192 168 0 2) [104, 105] 64 = cherrypieDatagram := by
  decide +kernel

/-- Applesauce resolves the address of the router, and the router that of cherrypie. -/
def toCherrypie : List (InternetOp Unit HostName) :=
  [.send .applesauce cherrypieDatagram,
    .deliver (.host .applesauce) (.router () 1) 0, .deliver (.router () 1) (.host .applesauce) 0,
    .deliver (.host .applesauce) (.router () 1) 1, .route (),
    .deliver (.router () 3) (.host .cherrypie) 0, .deliver (.host .cherrypie) (.router () 3) 0,
    .deliver (.router () 3) (.host .cherrypie) 1]

/-- It is received with one taken from its TTL, for the one router on its way. -/
theorem datagrams_travel_to_cherrypie :
    ∃ net received, ∃ path : List Unit,
      Run.exec (Internet.step addressOfDigits) (.ok (simulatorTopology privateEthernet).start)
        toCherrypie = .ok net ∧
      (net.host .cherrypie).interface.datagramsOut = [received] ∧
      received.payload.concatenate = [104, 105] ∧ received.header.ttl = 63 ∧
      (.applesauce, cherrypieDatagram) ∈ net.submitted ∧ path.length = 1 := by
  have hadmitted : Run.Admitted (Internet.step addressOfDigits)
      (fun _ op => (simulatorTopology privateEthernet).Admits op)
      (.ok (simulatorTopology privateEthernet).start) toCherrypie := by
    decide +kernel
  generalize hrun : Run.exec (Internet.step addressOfDigits)
    (.ok (simulatorTopology privateEthernet).start) toCherrypie = s
  have hreached : (simulatorTopology privateEthernet).Reached addressOfDigits s :=
    hrun ▸ Run.Reach.exec .start hadmitted
  obtain ⟨net, rfl, hports⟩ := datagrams_travel addressOfDigits_toString
    (simulatorTopology_proper (by decide +kernel) (by decide +kernel)) hreached
  -- what the run gives is computed; where it has come from is not
  have hout : ((Run.exec (Internet.step addressOfDigits)
      (.ok (simulatorTopology privateEthernet).start) toCherrypie).toOption.map
        fun net => ((net.host .cherrypie).interface.datagramsOut.map fun d =>
          (d.payload.concatenate, d.header.ttl), net.submitted)) =
      some ([([104, 105], 63)], [(.applesauce, cherrypieDatagram)]) := by
    decide +kernel
  rw [hrun] at hout
  obtain ⟨hgiven, hsubmitted⟩ := Prod.mk.inj (Option.some.inj hout)
  obtain ⟨received, hone, hreceived⟩ := List.map_eq_singleton_iff.mp hgiven
  obtain ⟨hpayload, httl⟩ := Prod.mk.inj hreceived
  obtain ⟨-, harrived⟩ := hports (.host .cherrypie) _ rfl
  obtain ⟨h, original, p, hop, dgram, path, hmem, -, -, -, -, hlower, -⟩ :=
    harrived received (hone ▸ List.mem_singleton.mpr rfl)
  rw [hsubmitted] at hmem
  have horiginal : original.header.ttl = 64 := by
    rw [(Prod.mk.inj (List.mem_singleton.mp hmem)).2]
    rfl
  rw [httl, horiginal] at hlower
  have hrouters : 63 + path.length = 64 := hlower
  exact ⟨net, received, path, rfl, hone, hpayload, httl,
    hsubmitted ▸ List.mem_singleton.mpr rfl, by omega⟩

end Sponge

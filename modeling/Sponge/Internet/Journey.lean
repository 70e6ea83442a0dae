import Sponge.Datagram.RoundTrip
import Sponge.Internet.Neighbours
import Sponge.Router.Delivery

/-!
# The journey of a datagram

`Journey` follows a datagram from the host that sent it over the routers that forward it, and
says at which port it is given to `send_datagram`, and for which next hop.  In every run, all
an interface is asked to send, and all it receives, has come on a journey.
-/

namespace Sponge

namespace IPv4Datagram

instance (h : IPv4Header) : Decidable h.Representable :=
  decidable_of_iff (h.ver = 4 ∧ 5 ≤ h.hlen.toNat ∧ h.hlen.toNat < 16 ∧ h.offset.toNat < 2 ^ 13)
    ⟨fun h => ⟨h.1, h.2.1, h.2.2.1, h.2.2.2⟩, fun h => ⟨h.ver, h.hlen, h.hlen_lt, h.offset_lt⟩⟩

instance (d : IPv4Datagram) : Decidable d.Representable :=
  decidable_of_iff (d.header.Representable ∧
    d.header.len.toNat = 4 * d.header.hlen.toNat + d.payload.size)
    ⟨fun h => ⟨h.1, h.2⟩, fun h => ⟨h.header, h.len⟩⟩

/-- A representable datagram arrives with its checksum and its payload in one piece. -/
theorem Representable.readAs_iff {d received : IPv4Datagram} (hd : d.Representable) :
    d.ReadAs received ↔ received = ⟨headerOut d.header, .ofBuffer d.payload.concatenate⟩ := by
  obtain ⟨bytes, hserialize, hparse⟩ := parse_serialize hd {}
  constructor
  · rintro ⟨payload, hpayload, hread⟩
    obtain rfl := Except.ok.inj (hserialize.symm.trans hpayload)
    exact (Prod.mk.inj (hread.symm.trans hparse)).2
  · rintro rfl
    exact ⟨bytes, hserialize, hparse⟩

/-- `dgram` is `original` after `k` routers: only its TTL, by one for each of them, and its
checksum have changed, and the pieces of its payload. -/
structure Aged (original : IPv4Datagram) (k : Nat) (dgram : IPv4Datagram) : Prop where
  header : dgram.header =
    { original.header with ttl := dgram.header.ttl, cksum := dgram.header.cksum }
  ttl : dgram.header.ttl.toNat + k = original.header.ttl.toNat
  alive : 0 < k → 0 < dgram.header.ttl.toNat
  payload : dgram.payload.concatenate = original.payload.concatenate

theorem Aged.representable {original dgram : IPv4Datagram} {k : Nat}
    (h : original.Aged k dgram) (horiginal : original.Representable) : dgram.Representable := by
  have hsize : dgram.payload.size = original.payload.size := by
    rw [← BufferList.length_concatenate, h.payload, BufferList.length_concatenate]
  refine ⟨⟨?_, ?_, ?_, ?_⟩, ?_⟩
  · rw [h.header]
    exact horiginal.header.ver
  · rw [h.header]
    exact horiginal.header.hlen
  · rw [h.header]
    exact horiginal.header.hlen_lt
  · rw [h.header]
    exact horiginal.header.offset_lt
  · rw [h.header, hsize]
    exact horiginal.len

theorem Aged.readAs {original dgram received : IPv4Datagram} {k : Nat}
    (h : original.Aged k dgram) (horiginal : original.Representable)
    (hread : dgram.ReadAs received) : original.Aged k received := by
  have hreceived := (h.representable horiginal).readAs_iff.mp hread
  subst hreceived
  have hheader : headerOut dgram.header = { original.header with
      ttl := dgram.header.ttl, cksum := headerChecksum dgram.header } := by
    rw [headerOut]
    generalize headerChecksum dgram.header = cksum
    rw [h.header]
  exact ⟨hheader, h.ttl, h.alive, by simpa [BufferList.ofBuffer, BufferList.concatenate]
    using h.payload⟩

theorem Aged.forwards {original received : IPv4Datagram} {k : Nat} {x : RoutNode Address}
    {call : SendDatagram Address} (h : original.Aged k received)
    (hforwards : Router.Forwards received x call) : original.Aged (k + 1) call.dgram := by
  have hheader : call.dgram.header = { original.header with
      ttl := call.dgram.header.ttl, cksum := call.dgram.header.cksum } := by
    rw [hforwards.header]
    generalize call.dgram.header.ttl = ttl
    rw [h.header]
  refine ⟨hheader, ?_, fun _ => hforwards.alive, ?_⟩
  · have hbefore := h.ttl
    have hstep := hforwards.ttl
    omega
  · rw [hforwards.payload]
    exact h.payload

end IPv4Datagram

namespace Host

/-- What `send_to` makes can be encoded and read back, unless the payload is too long. -/
theorem datagramTo_representable (host : Host) (dst : UInt32) {payload : Buffer}
    (hpayload : payload.length ≤ 65515) (ttl : UInt8) :
    (host.datagramTo dst payload ttl).Representable := by
  have hsize : (BufferList.ofBuffer payload).size = payload.length := by
    simp [BufferList.ofBuffer, BufferList.size]
  refine ⟨⟨rfl, ?_, ?_, ?_⟩, ?_⟩
  · exact (by decide : 5 ≤ (5 : UInt8).toNat)
  · exact (by decide : (5 : UInt8).toNat < 16)
  · exact (by decide : (0 : UInt16).toNat < 2 ^ 13)
  show ((5 : UInt8).toUInt16 * 4 + payload.length.toUInt16).toNat =
    4 * 5 + (BufferList.ofBuffer payload).size
  rw [hsize, UInt16.toNat_add, Nat.toUInt16_eq, UInt16.toNat_ofNat']
  have htwenty : ((5 : UInt8).toUInt16 * 4).toNat = 20 := by decide
  rw [htwenty]
  omega

/-- `send_to` sends a datagram that can be encoded and read back. -/
theorem sendTo_spec {host host' : Host} {destination : Address} {payload : Buffer} {ttl : UInt8}
    {dgram : InternetDatagram} (hpayload : payload.length ≤ 65515)
    (hsend : host.sendTo destination payload ttl = .ok (host', dgram)) :
    host.sendDatagram dgram = .ok host' ∧ dgram.Representable := by
  rw [sendTo] at hsend
  cases hdst : destination.ipv4Numeric with
  | error e => simp [hdst, bind, Except.bind] at hsend
  | ok dst =>
      cases hafter : host.sendDatagram (host.datagramTo dst payload ttl) with
      | error e => simp [hdst, hafter, bind, Except.bind] at hsend
      | ok after =>
          simp only [hdst, hafter, bind, Except.bind] at hsend
          obtain ⟨rfl, rfl⟩ := Prod.mk.inj (Except.ok.inj hsend)
          exact ⟨hafter, datagramTo_representable host dst hpayload ttl⟩

end Host

namespace Topology

variable {ρ η : Type} (topo : Topology ρ η) (address : String → Address)

/-- `original`, sent by `h`, is given to `send_datagram` at a port, for a next hop, after the
routers of the path have forwarded it. -/
inductive Journey (h : η) (original : InternetDatagram) :
    Port ρ η → UInt32 → InternetDatagram → List ρ → Prop
  | sent {hop : UInt32} (hhop : (topo.nextHop h).ipv4Numeric = .ok hop) :
      Journey h original (.host h) hop original []
  /-- a router that has the address of the next hop receives it, and its table decides -/
  | forwarded {p : Port ρ η} {hop hop' : UInt32} {dgram received : InternetDatagram}
      {path : List ρ} {r : ρ} {n : Nat} {own : InterfaceAddress} {call : SendDatagram Address}
      (hjourney : Journey h original p hop dgram path)
      (hwire : topo.wire (.router r n) = topo.wire p)
      (hown : topo.address (.router r n) = some own) (hip : own.ipAddress = hop)
      (hread : dgram.ReadAs received)
      (hcall : call ∈ Router.routeOneDatagram address (Router.addRoutes (topo.routes r)) received)
      (hhop : call.nextHop.ipv4Numeric = .ok hop') :
      Journey h original (.router r call.interfaceNum) hop' call.dgram (path ++ [r])

/-- What has been submitted makes this step of its journey at `p`. -/
def Asked (submitted : List (η × InternetDatagram)) (p : Port ρ η) (hop : UInt32)
    (dgram : InternetDatagram) : Prop :=
  ∃ h original path, (h, original) ∈ submitted ∧ topo.Journey address h original p hop dgram path

/-- A datagram has come over the wire of `q` to the next hop it was for. -/
def Arrived (submitted : List (η × InternetDatagram)) (q : Port ρ η)
    (received : InternetDatagram) : Prop :=
  ∃ h original p hop dgram path, (h, original) ∈ submitted ∧
    topo.Journey address h original p hop dgram path ∧ topo.wire q = topo.wire p ∧
    (∃ own, topo.address q = some own ∧ own.ipAddress = hop) ∧ dgram.ReadAs received

/-- What can happen: the datagrams are ones that can be encoded and read back, the ports are
there, and frames stay on their wire. -/
def Admits : InternetOp ρ η → Prop
  | .send _ dgram => dgram.Representable
  | .take _ => True
  | .route _ => True
  | .deliver src dst _ =>
      topo.wire src = topo.wire dst ∧ src ≠ dst ∧ (topo.address dst).isSome = true
  | .tick p _ => (topo.address p).isSome = true

instance [DecidableEq ρ] [DecidableEq η] : ∀ op, Decidable (topo.Admits op)
  | .send _ _ => inferInstanceAs (Decidable (IPv4Datagram.Representable _))
  | .take _ => isTrue trivial
  | .route _ => isTrue trivial
  | .deliver _ _ _ => inferInstanceAs (Decidable (_ ∧ _ ∧ _))
  | .tick _ _ => inferInstanceAs (Decidable (_ = true))

variable {topo address} {submitted : List (η × InternetDatagram)}

/-- A journey changes only what routers may change. -/
theorem Journey.aged (haddress : ∀ ip : UInt32, address (toString ip) = .ipv4 ip 0) {h : η}
    {original dgram : InternetDatagram} {p : Port ρ η} {hop : UInt32} {path : List ρ}
    (hjourney : topo.Journey address h original p hop dgram path)
    (horiginal : original.Representable) : original.Aged path.length dgram := by
  induction hjourney with
  | sent hhop => exact ⟨rfl, rfl, fun hpos => absurd hpos (Nat.lt_irrefl 0), rfl⟩
  | @forwarded p hop hop' dgram received path r n own call _ _ _ _ hread hcall _ ih =>
      have hreceived := ih.readAs horiginal hread
      rw [List.length_append, List.length_singleton]
      rcases @Router.routeOneDatagram_cases address (Router.addRoutes (topo.routes r)) received
        (haddress received.header.dst) with hnil | ⟨call', x, -, -, heq, hforwards⟩
      · rw [hnil] at hcall
        exact absurd hcall List.not_mem_nil
      · rw [heq, List.mem_singleton] at hcall
        subst hcall
        exact hreceived.forwards hforwards

theorem Asked.mono {more : List (η × InternetDatagram)} {p : Port ρ η} {hop : UInt32}
    {dgram : InternetDatagram} (h : topo.Asked address submitted p hop dgram) :
    topo.Asked address (submitted ++ more) p hop dgram := by
  obtain ⟨from', original, path, hmem, hjourney⟩ := h
  exact ⟨from', original, path, List.mem_append_left more hmem, hjourney⟩

theorem Arrived.mono {more : List (η × InternetDatagram)} {q : Port ρ η}
    {received : InternetDatagram} (h : topo.Arrived address submitted q received) :
    topo.Arrived address (submitted ++ more) q received := by
  obtain ⟨from', original, p, hop, dgram, path, hmem, hrest⟩ := h
  exact ⟨from', original, p, hop, dgram, path, List.mem_append_left more hmem, hrest⟩

/-- All that has been submitted can be encoded and read back. -/
def Encodable (submitted : List (η × InternetDatagram)) : Prop :=
  ∀ x ∈ submitted, x.2.Representable

/-- What an interface of the internet keeps. -/
def PortSound (topo : Topology ρ η) (address : String → Address)
    (submitted : List (η × InternetDatagram)) (p : Port ρ η) (a : AsyncNetworkInterface) : Prop :=
  ∃ own, topo.address p = some own ∧
    a.interface.Truthful (topo.Neighbour p) (topo.Asked address submitted p) own ∧
    ∀ received ∈ a.datagramsOut, topo.Arrived address submitted p received

theorem PortSound.mono {p : Port ρ η} {a : AsyncNetworkInterface}
    (h : topo.PortSound address submitted p a) (more : List (η × InternetDatagram)) :
    topo.PortSound address (submitted ++ more) p a := by
  obtain ⟨own, hown, htruthful, harrived⟩ := h
  exact ⟨own, hown, htruthful.mono fun _ _ hasked => hasked.mono,
    fun received hreceived => (harrived received hreceived).mono⟩

theorem portSound_new {p : Port ρ η} {own : InterfaceAddress} (hown : topo.address p = some own) :
    topo.PortSound address submitted p (.new own) :=
  ⟨own, hown, NetworkInterface.truthful_new ⟨p, rfl, hown⟩, by simp [AsyncNetworkInterface.new]⟩

theorem PortSound.tick {p : Port ρ η} {a : AsyncNetworkInterface}
    (h : topo.PortSound address submitted p a) (ms : Nat) :
    topo.PortSound address submitted p { a with interface := a.interface.tick ms } := by
  obtain ⟨own, hown, htruthful, harrived⟩ := h
  exact ⟨own, hown, htruthful.tick ms, harrived⟩

/-- Some of what was received is taken. -/
theorem PortSound.taken {p : Port ρ η} {a : AsyncNetworkInterface} {left : List InternetDatagram}
    (h : topo.PortSound address submitted p a) (hleft : ∀ d ∈ left, d ∈ a.datagramsOut) :
    topo.PortSound address submitted p { a with datagramsOut := left } := by
  obtain ⟨own, hown, htruthful, harrived⟩ := h
  exact ⟨own, hown, htruthful, fun received hreceived =>
    harrived received (hleft received hreceived)⟩

/-- A datagram that makes a step of its journey here. -/
theorem PortSound.sendDatagram {p : Port ρ η} {a : AsyncNetworkInterface}
    (h : topo.PortSound address submitted p a) {dgram : InternetDatagram} {nextHop : Address}
    {hop : UInt32} (hdgram : dgram.Representable) (hhop : nextHop.ipv4Numeric = .ok hop)
    (hasked : topo.Asked address submitted p hop dgram) :
    ∃ a', a.sendDatagram dgram nextHop = .ok a' ∧ topo.PortSound address submitted p a' := by
  obtain ⟨own, hown, htruthful, harrived⟩ := h
  obtain ⟨payload, hserialize, -⟩ := hdgram.serialize_eq
  obtain ⟨n', heq, hkept⟩ := htruthful.sendDatagram hserialize hhop hasked
  refine ⟨{ a with interface := n' }, ?_, own, hown, hkept, harrived⟩
  rw [AsyncNetworkInterface.sendDatagram, heq]
  rfl

/-- A frame that is on the wire. -/
theorem PortSound.recvFrame (hproper : topo.Proper) {p src : Port ρ η}
    {a : AsyncNetworkInterface} (h : topo.PortSound address submitted p a)
    (hwire : topo.wire src = topo.wire p) {frame : EthernetFrame}
    (hframe : NetworkInterface.Genuine (topo.Neighbour src) (topo.Asked address submitted src)
      frame) :
    ∃ a', a.recvFrame (Internet.onePiece frame) = .ok a' ∧
      topo.PortSound address submitted p a' := by
  obtain ⟨own, hown, htruthful, harrived⟩ := h
  have hsame : topo.Neighbour src = topo.Neighbour p := by
    unfold Neighbour
    rw [hwire]
  rw [hsame] at hframe
  obtain ⟨n', r, heq, hkept, hr⟩ := htruthful.recvFrame hframe
  have hdone : a.recvFrame (Internet.onePiece frame) =
      .ok { interface := n', datagramsOut := a.datagramsOut ++ r.toList } := by
    rw [AsyncNetworkInterface.recvFrame, heq]
    rfl
  refine ⟨_, hdone, own, hown, hkept, fun received hreceived => ?_⟩
  cases List.mem_append.mp hreceived with
  | inl hold => exact harrived received hold
  | inr hnew =>
      obtain ⟨hop, dgram, hasked, hneighbour, hread, hdst⟩ :=
        hr received (Option.mem_toList.mp hnew)
      obtain ⟨q, hqwire, hq⟩ := hneighbour
      -- the only interface of the wire with this Ethernet address is this one
      have hethernet : frame.header.dst = own.ethernetAddress :=
        hdst.resolve_right (hproper.unicast q _ hq)
      obtain rfl := hproper.distinct q p _ own hqwire hq hown hethernet
      have hhop : own.ipAddress = hop := by
        rw [Option.some.inj (hown.symm.trans hq)]
      obtain ⟨h, original, path, hmem, hjourney⟩ := hasked
      exact ⟨h, original, src, hop, dgram, path, hmem, hjourney, hwire.symm,
        ⟨own, hown, hhop⟩, hread⟩

/-- What a router of the internet keeps. -/
structure RouterSound (topo : Topology ρ η) (address : String → Address)
    (submitted : List (η × InternetDatagram)) (r : ρ) (router : Router) : Prop where
  routMap : router.routMap = Router.addRoutes (topo.routes r)
  length : router.interfaces.length = (topo.interfaces r).length
  port : ∀ n a, router.interfaces[n]? = some a →
    topo.PortSound address submitted (.router r n) a

variable {r : ρ} {router : Router}

/-- One interface is replaced. -/
theorem RouterSound.set (h : topo.RouterSound address submitted r router) {n : Nat}
    {a : AsyncNetworkInterface} (ha : topo.PortSound address submitted (.router r n) a) :
    topo.RouterSound address submitted r { router with
      interfaces := router.interfaces.set n a } where
  routMap := h.routMap
  length := List.length_set.trans h.length
  port := by
    intro m b hb
    rw [List.getElem?_set] at hb
    by_cases hm : n = m
    · subst hm
      rw [if_pos rfl] at hb
      split at hb
      · rw [← Option.some.inj hb]
        exact ha
      · cases hb
    · rw [if_neg hm] at hb
      exact h.port m b hb

theorem RouterSound.emptied (h : topo.RouterSound address submitted r router) :
    topo.RouterSound address submitted r router.emptied where
  routMap := h.routMap
  length := by
    rw [← h.length]
    simp [Router.emptied, Router.mapQueues]
  port := by
    intro n a ha
    simp only [Router.emptied, Router.mapQueues, List.getElem?_mapIdx, Option.map_eq_some_iff] at ha
    obtain ⟨b, hb, rfl⟩ := ha
    exact (h.port n b hb).taken fun d hd => absurd hd List.not_mem_nil

/-- A call that is a step of a journey. -/
def Justified (topo : Topology ρ η) (address : String → Address)
    (submitted : List (η × InternetDatagram)) (r : ρ) (call : SendDatagram Address) : Prop :=
  call.interfaceNum < (topo.interfaces r).length ∧ call.dgram.Representable ∧
    ∃ hop, call.nextHop.ipv4Numeric = .ok hop ∧
      topo.Asked address submitted (.router r call.interfaceNum) hop call.dgram

theorem RouterSound.sendOn (h : topo.RouterSound address submitted r router)
    {call : SendDatagram Address} (hcall : topo.Justified address submitted r call) :
    ∃ router', router.sendOn call = .ok router' ∧
      topo.RouterSound address submitted r router' := by
  obtain ⟨hexists, hdgram, hop, hhop, hasked⟩ := hcall
  rw [← h.length] at hexists
  have hsome := List.getElem?_eq_getElem hexists
  obtain ⟨a', heq, ha'⟩ := (h.port _ _ hsome).sendDatagram hdgram hhop hasked
  refine ⟨_, ?_, h.set ha'⟩
  rw [Router.sendOn, hsome]
  simp only [heq]
  rfl

theorem RouterSound.sends {calls : List (SendDatagram Address)}
    (h : topo.RouterSound address submitted r router)
    (hcalls : ∀ call ∈ calls, topo.Justified address submitted r call) :
    ∃ router', calls.foldlM Router.sendOn router = .ok router' ∧
      topo.RouterSound address submitted r router' := by
  induction calls generalizing router with
  | nil => exact ⟨router, rfl, h⟩
  | cons call rest ih =>
      obtain ⟨between, heq, hbetween⟩ := h.sendOn (hcalls call List.mem_cons_self)
      obtain ⟨router', hrest, hdone⟩ := ih hbetween fun c hc =>
        hcalls c (List.mem_cons_of_mem call hc)
      refine ⟨router', ?_, hdone⟩
      rw [List.foldlM_cons, heq]
      exact hrest

/-- The calls for what a router has received take each datagram one step further. -/
theorem RouterSound.justified (haddress : ∀ ip : UInt32, address (toString ip) = .ipv4 ip 0)
    (hproper : topo.Proper) (hsubmitted : Encodable submitted)
    (h : topo.RouterSound address submitted r router) :
    ∀ call ∈ router.calls address, topo.Justified address submitted r call := by
  intro call hcall
  obtain ⟨i, received, hreceived, hin⟩ := Router.mem_calls.mp hcall
  obtain ⟨a, ha, hqueue⟩ : ∃ a, router.interfaces[i]? = some a ∧ received ∈ a.datagramsOut := by
    rw [Router.queue] at hreceived
    cases ha : router.interfaces[i]? with
    | none => simp [ha] at hreceived
    | some a =>
        rw [ha] at hreceived
        exact ⟨a, rfl, hreceived⟩
  obtain ⟨own, hown, -, harrived⟩ := h.port i a ha
  obtain ⟨from', original, p, hop, dgram, path, hmem, hjourney, hwire, ⟨own', hown', hip⟩, hread⟩ :=
    harrived received hqueue
  have horiginal := hsubmitted _ hmem
  rw [h.routMap] at hin
  rcases @Router.routeOneDatagram_cases address (Router.addRoutes (topo.routes r)) received
    (haddress received.header.dst) with hnil | ⟨call', x, hx, -, heq, hforwards⟩
  · rw [hnil] at hin
    exact absurd hin List.not_mem_nil
  have hroute : x ∈ topo.routes r := Router.mem_of_mem_addRoutes hx
  have hsame : call = call' := by
    rw [heq] at hin
    exact List.mem_singleton.mp hin
  have hnumeric : ∃ hop', call.nextHop.ipv4Numeric = .ok hop' := by
    rw [hsame, hforwards.nextHop]
    cases hnext : x.nextHop with
    | none => exact ⟨received.header.dst, rfl⟩
    | some nextHop => exact hproper.numeric r x hroute nextHop hnext
  obtain ⟨hop', hhop'⟩ := hnumeric
  have hjourney' := hjourney.forwarded hwire hown' hip hread hin hhop'
  refine ⟨?_, (hjourney'.aged haddress horiginal).representable horiginal, hop', hhop',
    from', original, _, hmem, hjourney'⟩
  rw [hsame, hforwards.interfaceNum]
  exact hproper.exist r x hroute

end Topology
end Sponge

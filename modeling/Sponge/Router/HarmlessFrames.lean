import Sponge.Datagram.Acceptance
import Sponge.Lib.Run
import Sponge.Router.Forwarding

/-!
# Can a frame from the network make the router throw?

`IPv4Datagram::serialize` asks for the version and the header length that
`IPv4Datagram::parse` does not insist on.  The frames whose datagram can be encoded again
are harmless; any other one makes `route` throw as soon as its datagram is to be
forwarded.
-/

namespace Sponge

/-! ## What frames bring -/

/-- The frame is for this interface and carries a datagram that is accepted. -/
def NetworkInterface.HandsUp (n : NetworkInterface) (header : EthernetHeader) (b : Buffer) : Prop :=
  n.notForUs ⟨header, .ofBuffer b⟩ = false ∧ header.type = EthernetHeader.typeIPv4 ∧
    IPv4Datagram.Accepted b

instance (n : NetworkInterface) (header : EthernetHeader) (b : Buffer) :
    Decidable (n.HandsUp header b) :=
  inferInstanceAs (Decidable (_ ∧ _ ∧ _))

/-- A frame of one buffer never makes `recv_frame` throw; it brings one datagram or
none. -/
theorem NetworkInterface.recvFrame_single (n : NetworkInterface) (header : EthernetHeader)
    (b : Buffer) :
    (n.HandsUp header b ∧
        n.recvFrame ⟨header, .ofBuffer b⟩ = .ok (n, some (IPv4Datagram.parse {} b).2)) ∨
      (¬n.HandsUp header b ∧ ∃ n', n.recvFrame ⟨header, .ofBuffer b⟩ = .ok (n', none)) := by
  rw [HandsUp, recvFrame, ← IPv4Datagram.parse_fresh_iff]
  by_cases hus : n.notForUs ⟨header, .ofBuffer b⟩ = true
  · rw [if_pos hus, hus]
    exact Or.inr ⟨by simp, n, rfl⟩
  rw [if_neg hus]
  have hours : n.notForUs ⟨header, .ofBuffer b⟩ = false := by simpa using hus
  by_cases htype : header.type = EthernetHeader.typeIPv4
  · rw [if_pos htype]
    simp only [BufferList.toBuffer_ofBuffer, bind, Except.bind, hours, htype, true_and]
    split_ifs with hok
    · exact Or.inl ⟨hok, rfl⟩
    · exact Or.inr ⟨hok, n, rfl⟩
  · rw [if_neg htype]
    -- whatever is not IPv4 is taken for ARP, and no ARP message is handed up
    refine Or.inr ⟨fun h => htype h.2.1, ?_⟩
    simp only [BufferList.toBuffer_ofBuffer, bind, Except.bind]
    split_ifs
    · rcases n.recvArp_cases (ARPMessage.parse {} b).2 with ⟨-, payload, hok⟩ | ⟨-, hok⟩
      · rw [hok]
        exact ⟨_, rfl⟩
      · rw [hok]
        exact ⟨_, rfl⟩
    · exact ⟨n, rfl⟩

namespace Router

/-- Received frames are appended to the queue of their interface. -/
theorem recvFrame_eq {r : Router} {i : Nat} {a : AsyncNetworkInterface}
    (ha : r.interfaces[i]? = some a) (header : EthernetHeader) (b : Buffer) :
    ∃ r', r.recvFrame i ⟨header, .ofBuffer b⟩ = .ok r' ∧ r'.routMap = r.routMap ∧
      r'.interfaces.length = r.interfaces.length ∧
      ∀ j, r'.queue j = r.queue j ++
        if j = i ∧ a.interface.HandsUp header b then [(IPv4Datagram.parse {} b).2] else [] := by
  obtain ⟨hi, hget⟩ := List.getElem?_eq_some_iff.mp ha
  have hqueue : r.queue i = a.datagramsOut := by
    rw [queue, ha]
    rfl
  rw [recvFrame, ha]
  rcases a.interface.recvFrame_single header b with ⟨hup, hok⟩ | ⟨hnot, n', hok⟩
  · simp only [AsyncNetworkInterface.recvFrame, hok, bind, Except.bind]
    refine ⟨_, rfl, rfl, List.length_set, ?_⟩
    intro j
    rw [queue_set hi]
    by_cases hj : j = i
    · simp [hj, hup, hqueue]
    · simp [hj]
  · simp only [AsyncNetworkInterface.recvFrame, hok, bind, Except.bind]
    refine ⟨_, rfl, rfl, List.length_set, ?_⟩
    intro j
    rw [queue_set hi]
    by_cases hj : j = i
    · simp [hj, hnot, hqueue]
    · simp [hj]

/-- The frame brings nothing, or a datagram that is harmless. -/
def HarmlessFrame (address : String → Address) (r : Router) (i : Nat) (header : EthernetHeader)
    (b : Buffer) : Prop :=
  ∀ a ∈ r.interfaces[i]?, a.interface.HandsUp header b →
    Harmless address r.routMap (IPv4Header.encodedIn b)

instance (address : String → Address) (r : Router) (i : Nat) (header : EthernetHeader)
    (b : Buffer) : Decidable (r.HarmlessFrame address i header b) :=
  inferInstanceAs (Decidable (∀ a ∈ _, _))

/-- What has been received can be routed. -/
structure Routable (address : String → Address) (r : Router) : Prop where
  routes : r.RoutesExist
  sized : r.Sized
  harmless : ∀ i, ∀ dgram ∈ r.queue i, Harmless address r.routMap dgram.header

section Runs

variable {address : String → Address} {r r' : Router} {i : Nat}

/-- A router that has received nothing. -/
theorem routable_of_empty (hroutes : r.RoutesExist) (hempty : ∀ i, r.queue i = []) :
    r.Routable address where
  routes := hroutes
  sized := by
    intro i dgram hdgram
    rw [hempty i] at hdgram
    exact absurd hdgram (by simp)
  harmless := by
    intro i dgram hdgram
    rw [hempty i] at hdgram
    exact absurd hdgram (by simp)

/-- A frame keeps the received datagrams routable exactly if it is harmless. -/
theorem Routable.recvFrame_iff (h : r.Routable address) (hi : i < r.interfaces.length)
    (header : EthernetHeader) (b : Buffer) :
    ∃ r', r.recvFrame i ⟨header, .ofBuffer b⟩ = .ok r' ∧ r'.RoutesExist ∧ r'.Sized ∧
      ((∀ j, ∀ dgram ∈ r'.queue j, Harmless address r'.routMap dgram.header) ↔
        r.HarmlessFrame address i header b) := by
  have hget := List.getElem?_eq_getElem hi
  generalize r.interfaces[i] = a at hget
  obtain ⟨r', hok, hmap, hlen, hqueues⟩ := recvFrame_eq hget header b
  have hframe : r.HarmlessFrame address i header b ↔
      (a.interface.HandsUp header b → Harmless address r.routMap (IPv4Header.encodedIn b)) := by
    rw [HarmlessFrame, hget]
    simp
  refine ⟨r', hok, h.routes.of_same hmap hlen, ?_, ?_⟩
  · intro j dgram hdgram
    rw [hqueues j, List.mem_append] at hdgram
    cases hdgram with
    | inl hold => exact h.sized j dgram hold
    | inr hnew =>
        split_ifs at hnew with hup
        · rw [List.mem_singleton.mp hnew]
          exact IPv4Datagram.payload_size_of_accepted
            ((IPv4Datagram.parse_fresh_iff b).mpr hup.2.2.2)
        · exact absurd hnew (by simp)
  · rw [hframe, hmap]
    constructor
    · intro hall hup
      have hheader := (IPv4Datagram.parse_of_long {} hup.2.2.1).1
      rw [← hheader]
      refine hall i _ ?_
      rw [hqueues i, if_pos ⟨rfl, hup⟩]
      simp
    · intro hharmless j dgram hdgram
      rw [hqueues j, List.mem_append] at hdgram
      cases hdgram with
      | inl hold => exact h.harmless j dgram hold
      | inr hnew =>
          split_ifs at hnew with hup
          · have hheader := (IPv4Datagram.parse_of_long {} hup.2.2.2.1).1
            rw [List.mem_singleton.mp hnew, hheader]
            exact hharmless hup.2
          · exact absurd hnew (by simp)

/-- Time passes without touching what was received. -/
theorem Routable.tick (h : r.Routable address) (hi : i < r.interfaces.length) (ms : Nat) :
    ∃ r', r.tick i ms = .ok r' ∧ r'.Routable address := by
  have hget := List.getElem?_eq_getElem hi
  generalize r.interfaces[i] = a at hget
  rw [Router.tick, hget]
  refine ⟨_, rfl, ?_⟩
  have hqueue : ∀ j, queue { r with
      interfaces := r.interfaces.set i { a with interface := a.interface.tick ms } } j =
        r.queue j := by
    intro j
    rw [queue_set hi]
    by_cases hj : j = i
    · rw [if_pos hj, hj, queue, hget]
      rfl
    · rw [if_neg hj]
  refine ⟨h.routes.of_same rfl List.length_set, ?_, ?_⟩
  · intro j
    rw [hqueue j]
    exact h.sized j
  · intro j
    rw [hqueue j]
    exact h.harmless j

/-- `route` completes and leaves nothing to be routed. -/
theorem Routable.route (h : r.Routable address) :
    ∃ r', r.route address = .ok r' ∧ r'.Routable address := by
  rcases route_iff address h.routes h.sized with ⟨-, r', hok, hmap, hlen, hempty⟩ | ⟨hnot, -⟩
  · exact ⟨r', hok, routable_of_empty (h.routes.of_same hmap hlen) hempty⟩
  · exact absurd h.harmless hnot

end Runs

end Router

/-- What can happen to a router. -/
inductive RouterOp where
  | recvFrame (i : Nat) (header : EthernetHeader) (payload : Buffer)
  | tick (i : Nat) (msSinceLastTick : Nat)
  | route
deriving DecidableEq, Repr

namespace RouterOp

/-- A call, unless an earlier one has thrown. -/
def step (address : String → Address) (s : Except RuntimeError Router) (op : RouterOp) :
    Except RuntimeError Router := do
  let r ← s
  match op with
  | .recvFrame i header payload => r.recvFrame i ⟨header, .ofBuffer payload⟩
  | .tick i ms => r.tick i ms
  | .route => r.route address

/-- The call is to an interface there is, and brings it no datagram that cannot be
routed. -/
def Admits (address : String → Address) : Except RuntimeError Router → RouterOp → Prop
  | .ok r, .recvFrame i header payload =>
      i < r.interfaces.length ∧ r.HarmlessFrame address i header payload
  | .ok r, .tick i _ => i < r.interfaces.length
  | .ok _, .route => True
  | .error _, _ => False

instance (address : String → Address) :
    ∀ s op, Decidable (Admits address s op)
  | .ok _, .recvFrame _ _ _ => inferInstanceAs (Decidable (_ ∧ _))
  | .ok _, .tick _ _ => inferInstanceAs (Decidable (_ < _))
  | .ok _, .route => isTrue trivial
  | .error _, _ => isFalse id

end RouterOp

/-- **When the router throws.**  In every run of a router whose routes name interfaces, in
which the frames bring only harmless datagrams, `route` completes; and the next frame can
make it throw exactly if it is not harmless.  The datagrams that `parse` accepts and
`serialize` refuses are those of a wrong version or with a header too short. -/
theorem route_completes {address : String → Address} {start : Router}
    {s : Except RuntimeError Router} (hroutes : start.RoutesExist)
    (hempty : ∀ i, start.queue i = [])
    (hs : Run.Reach (RouterOp.step address) (RouterOp.Admits address) (.ok start) s) :
    (∃ r, s = .ok r ∧ (∃ r', r.route address = .ok r') ∧
      ∀ i header payload, i < r.interfaces.length →
        ((∃ r', (r.recvFrame i ⟨header, .ofBuffer payload⟩ >>= Router.route address) = .ok r') ↔
          r.HarmlessFrame address i header payload)) ∧
    ∀ (d : IPv4Datagram) b,
      ((d.parse b).1 = .noError → ∃ bytes, (d.parse b).2.serialize = .ok bytes) ↔
        d.Reencodable b := by
  refine ⟨?_, IPv4Datagram.accepted_serializes_iff⟩
  have hroutable : ∃ r, s = .ok r ∧ r.Routable address := by
    refine hs.invariant (P := fun s => ∃ r, s = .ok r ∧ r.Routable address)
      ⟨start, rfl, Router.routable_of_empty hroutes hempty⟩ ?_
    rintro s op hop ⟨r, rfl, h⟩
    cases op with
    | recvFrame i header payload =>
        obtain ⟨r', hok, hroutes', hsized', hiff⟩ := h.recvFrame_iff hop.1 header payload
        exact ⟨r', hok, hroutes', hsized', hiff.mpr hop.2⟩
    | tick i ms => exact h.tick hop ms
    | route => exact h.route
  obtain ⟨r, hr, h⟩ := hroutable
  obtain ⟨done, hdone, -⟩ := h.route
  refine ⟨r, hr, ⟨done, hdone⟩, ?_⟩
  intro i header payload hi
  obtain ⟨r', hok, hroutes', hsized', hiff⟩ := h.recvFrame_iff hi header payload
  -- `recv_frame` does not throw, so that `route` decides
  rw [hok, ← hiff]
  rcases Router.route_iff address hroutes' hsized' with ⟨hall, r'', hrouted, -⟩ | ⟨hnot, e, herr⟩
  · exact ⟨fun _ => hall, fun _ => ⟨r'', hrouted⟩⟩
  · refine ⟨fun hroute => ?_, fun hall => absurd hall hnot⟩
    obtain ⟨r'', hrouted⟩ := hroute
    have hrouted : r'.route address = .ok r'' := hrouted
    rw [herr] at hrouted
    exact absurd hrouted (by simp)

/-- A router with two interfaces, which sends everything to 10.0.0.0/8 to 10.0.0.9. -/
def twoInterfaces : Router where
  interfaces :=
    [⟨{ ethernetAddress := #v[2, 0, 0, 0, 1, 1], ipAddress := 0x0a000001 }, []⟩,
      ⟨{ ethernetAddress := #v[2, 0, 0, 0, 1, 2], ipAddress := 0x0b000001 }, []⟩]
  routMap := Router.addRoutes [⟨0x0a000000, 8, some (.ipv4 0x0a000009 0), 1⟩]

/-- The address that a number in decimal digits stands for. -/
def addressOfDecimal (ip : String) : Address :=
  .ipv4 (ip.toNat?.getD 0).toUInt32 0

/-- A datagram without payload to 10.0.0.2; the version and the header length are in the
first byte. -/
def bareHeader (firstByte ttl : Byte) : Buffer :=
  [firstByte, 0, 0, 20, 0, 0, 0, 0, ttl, 6, 0, 0, 10, 0, 0, 1, 10, 0, 0, 2]

/-- The header of an IPv4 frame to everybody. -/
def broadcastIPv4 : EthernetHeader :=
  { dst := ethernetBroadcast, src := #v[2, 0, 0, 0, 0, 9], type := EthernetHeader.typeIPv4 }

/-- A datagram is routed, and one of version 5 comes, whose time to live is over. -/
def twoDatagrams : List RouterOp :=
  [.recvFrame 0 broadcastIPv4 (bareHeader 0x45 64), .route, .tick 1 100,
    .recvFrame 1 broadcastIPv4 (bareHeader 0x55 1)]

theorem route_completes_two_datagrams :
    ∃ r, Run.exec (RouterOp.step addressOfDecimal) (.ok twoInterfaces) twoDatagrams = .ok r ∧
      ∃ r', r.route addressOfDecimal = .ok r' := by
  have hroutes : twoInterfaces.RoutesExist := by
    unfold Router.RoutesExist
    decide +kernel
  have hempty : ∀ i, twoInterfaces.queue i = []
    | 0 => rfl
    | 1 => rfl
    | _ + 2 => rfl
  have hadmitted : Run.Admitted (RouterOp.step addressOfDecimal) (RouterOp.Admits addressOfDecimal)
      (.ok twoInterfaces) twoDatagrams := by decide +kernel
  obtain ⟨⟨r, hr, hroute, -⟩, -⟩ :=
    route_completes hroutes hempty (Run.Reach.exec .start hadmitted)
  exact ⟨r, hr, hroute⟩

/-- A datagram of version 5 is accepted, cannot be encoded again, and makes `route`
throw. -/
theorem version_five_makes_route_throw :
    twoInterfaces.RoutesExist ∧
      (IPv4Datagram.parse {} (bareHeader 0x55 64)).1 = .noError ∧
      (IPv4Datagram.parse {} (bareHeader 0x55 64)).2.serialize = .error ⟨"wrong IP version"⟩ ∧
      Run.exec (RouterOp.step addressOfDecimal) (.ok twoInterfaces)
        [.recvFrame 0 broadcastIPv4 (bareHeader 0x55 64), .route] =
          .error ⟨"wrong IP version"⟩ := by
  refine ⟨?_, by decide +kernel, by decide +kernel, rfl⟩
  unfold Router.RoutesExist
  decide +kernel

end Sponge

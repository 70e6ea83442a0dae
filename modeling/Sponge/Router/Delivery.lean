import Sponge.Router.Forwarding
import Sponge.Router.LongestPrefix

/-!
# What `route` sends

`route` empties one queue after the other, and every datagram it takes may change any
interface.  `route_eq` says that nothing of this matters: `route` makes of a router what
the `send_datagram` calls for the datagrams that were queued make of it, in the order of the
queues, with the queues emptied.  The soundness of forwarding is then a statement about
the calls for one datagram.
-/

namespace Sponge

namespace Router

/-- Change what has been received, and nothing else. -/
def mapQueues (f : Nat → List InternetDatagram → List InternetDatagram) (r : Router) : Router :=
  { r with
    interfaces := r.interfaces.mapIdx fun i a => { a with datagramsOut := f i a.datagramsOut } }

/-- The router with every queue of received datagrams empty. -/
def emptied (r : Router) : Router :=
  r.mapQueues fun _ _ => []

/-- The calls for the datagrams received on some of the interfaces. -/
def callsOn (address : String → Address) (r : Router) (indices : List Nat) :
    List (SendDatagram Address) :=
  indices.flatMap fun i => (r.queue i).flatMap (routeOneDatagram address r.routMap)

/-- The calls for everything that has been received. -/
def calls (address : String → Address) (r : Router) : List (SendDatagram Address) :=
  r.callsOn address (List.range r.interfaces.length)

/-! ## Sending leaves the queues alone -/

theorem queue_mapQueues (f : Nat → List InternetDatagram → List InternetDatagram) (r : Router)
    (i : Nat) (hnil : f i [] = []) : (r.mapQueues f).queue i = f i (r.queue i) := by
  rw [queue, queue, mapQueues, List.getElem?_mapIdx]
  cases r.interfaces[i]? with
  | none => simp [hnil]
  | some a => simp

theorem mapQueues_mapQueues (f g : Nat → List InternetDatagram → List InternetDatagram)
    (r : Router) : (r.mapQueues f).mapQueues g = r.mapQueues fun i => g i ∘ f i := by
  simp [mapQueues, List.mapIdx_mapIdx, Function.comp_def]

/-- Only what is done to the queues that are there counts. -/
theorem mapQueues_congr {f g : Nat → List InternetDatagram → List InternetDatagram} {r : Router}
    (h : ∀ i, f i (r.queue i) = g i (r.queue i)) : r.mapQueues f = r.mapQueues g := by
  have hinterfaces : (r.mapQueues f).interfaces = (r.mapQueues g).interfaces := by
    apply List.ext_getElem?
    intro i
    have hi := h i
    rw [queue] at hi
    simp only [mapQueues, List.getElem?_mapIdx]
    cases hat : r.interfaces[i]? with
    | none => rfl
    | some a =>
        rw [hat] at hi
        simpa using hi
  simpa [mapQueues] using hinterfaces

theorem mapQueues_of_eq {f : Nat → List InternetDatagram → List InternetDatagram} {r : Router}
    (h : ∀ i, f i (r.queue i) = r.queue i) : r.mapQueues f = r := by
  rw [mapQueues_congr (g := fun _ q => q) h, mapQueues]
  have hid : (r.interfaces.mapIdx fun _ a => { a with datagramsOut := a.datagramsOut }) =
      r.interfaces := by
    apply List.ext_getElem?
    intro i
    simp [List.getElem?_mapIdx]
  rw [hid]

/-- A call does the same whatever has been received. -/
theorem sendOn_mapQueues (f : Nat → List InternetDatagram → List InternetDatagram) (r : Router)
    (call : SendDatagram Address) :
    (r.mapQueues f).sendOn call = (r.sendOn call).map (mapQueues f) := by
  rw [sendOn, sendOn, mapQueues, List.getElem?_mapIdx]
  cases hat : r.interfaces[call.interfaceNum]? with
  | none => rfl
  | some a =>
      simp only [Option.map_some, AsyncNetworkInterface.sendDatagram]
      cases a.interface.sendDatagram call.dgram call.nextHop with
      | error e => rfl
      | ok n =>
          simp only [bind, Except.bind, pure, Except.pure, Except.map, mapQueues,
            List.mapIdx_set]

theorem foldlM_sendOn_mapQueues (f : Nat → List InternetDatagram → List InternetDatagram)
    (sends : List (SendDatagram Address)) (r : Router) :
    sends.foldlM sendOn (r.mapQueues f) = (sends.foldlM sendOn r).map (mapQueues f) := by
  induction sends generalizing r with
  | nil => rfl
  | cons call rest ih =>
      rw [List.foldlM_cons, List.foldlM_cons, sendOn_mapQueues]
      cases r.sendOn call with
      | error e => rfl
      | ok r' => exact ih r'

theorem SameQueues.trans {r r' r'' : Router} (h : SameQueues r r') (h' : SameQueues r' r'') :
    SameQueues r r'' where
  routMap := h'.routMap.trans h.routMap
  length := h'.length.trans h.length
  queue := fun j => (h'.queue j).trans (h.queue j)

theorem sameQueues_of_sendOn {r r' : Router} {call : SendDatagram Address}
    (h : r.sendOn call = .ok r') : SameQueues r r' := by
  by_cases hexists : call.interfaceNum < r.interfaces.length
  · rcases sendOn_iff hexists with ⟨-, -, s, hok, hsame⟩ | ⟨-, e, herr⟩
    · rw [hok] at h
      cases h
      exact hsame
    · rw [herr] at h
      contradiction
  · rw [sendOn, List.getElem?_eq_none (by omega)] at h
    contradiction

theorem sameQueues_of_foldlM {sends : List (SendDatagram Address)} {r r' : Router}
    (h : sends.foldlM sendOn r = .ok r') : SameQueues r r' := by
  induction sends generalizing r with
  | nil =>
      cases h
      exact ⟨rfl, rfl, fun _ => rfl⟩
  | cons call rest ih =>
      rw [List.foldlM_cons] at h
      cases hcall : r.sendOn call with
      | error e =>
          rw [hcall] at h
          contradiction
      | ok s =>
          rw [hcall] at h
          exact (sameQueues_of_sendOn hcall).trans (ih h)

/-! ## The loops -/

theorem modify_pop (r : Router) (i : Nat) :
    { r with interfaces := r.interfaces.modify i .pop } =
      r.mapQueues fun j q => if j = i then q.tail else q := by
  have hinterfaces : r.interfaces.modify i .pop =
      (r.mapQueues fun j q => if j = i then q.tail else q).interfaces := by
    apply List.ext_getElem?
    intro j
    simp only [mapQueues, List.getElem?_modify, List.getElem?_mapIdx]
    cases r.interfaces[j]? with
    | none => rfl
    | some a =>
        by_cases hj : j = i
        · simp [hj, AsyncNetworkInterface.pop]
        · simp [hj, Ne.symm hj]
  rw [hinterfaces]
  rfl

/-- The inner loop makes the calls for its queue and empties it.  By induction on the
rounds: the calls for the datagrams that are left do not see that one has been taken. -/
theorem drain_eq (address : String → Address) {i : Nat} (fuel : Nat) {r : Router}
    (hfuel : (r.queue i).length = fuel) :
    drain address i fuel r =
      (((r.queue i).flatMap (routeOneDatagram address r.routMap)).foldlM sendOn r).map
        (mapQueues fun j q => if j = i then [] else q) := by
  induction fuel generalizing r with
  | zero =>
      have hnil := List.eq_nil_of_length_eq_zero hfuel
      rw [hnil]
      show Except.ok r = .ok _
      rw [mapQueues_of_eq]
      intro j
      by_cases hj : j = i
      · rw [if_pos hj, hj, hnil]
      · rw [if_neg hj]
  | succ fuel ih =>
      cases hqueue : r.queue i with
      | nil =>
          rw [hqueue] at hfuel
          exact absurd hfuel (by simp)
      | cons dgram rest =>
          rw [drain, hqueue, List.flatMap_cons, List.foldlM_append]
          dsimp only
          rw [forward]
          cases hforward : (routeOneDatagram address r.routMap dgram).foldlM sendOn r with
          | error e => rfl
          | ok r' =>
              have hsame := sameQueues_of_foldlM hforward
              show drain address i fuel _ = _
              rw [modify_pop, ih]
              · rw [queue_mapQueues _ _ _ (by simp), if_pos rfl, hsame.queue i, hqueue,
                  foldlM_sendOn_mapQueues]
                show (Except.map _ (List.foldlM sendOn r'
                  (rest.flatMap (routeOneDatagram address r'.routMap)))).map _ = _
                rw [hsame.routMap]
                cases hrest : (rest.flatMap (routeOneDatagram address r.routMap)).foldlM
                    sendOn r' with
                | error e => simp [Except.map, bind, Except.bind, hrest]
                | ok r'' =>
                    simp only [Except.map, bind, Except.bind, hrest, mapQueues_mapQueues]
                    congr 1
                    apply mapQueues_congr
                    intro j
                    by_cases hj : j = i
                    · simp [hj]
                    · simp [hj]
              · rw [queue_mapQueues _ _ _ (by simp), if_pos rfl, hsame.queue i, hqueue]
                rw [hqueue] at hfuel
                simpa using hfuel

/-- The outer loop over some of the interfaces, each at most once. -/
theorem drains_eq (address : String → Address) {indices : List Nat} (hnodup : indices.Nodup)
    (r : Router) :
    indices.foldlM (fun r i => drain address i (r.queue i).length r) r =
      ((r.callsOn address indices).foldlM sendOn r).map
        (mapQueues fun j q => if j ∈ indices then [] else q) := by
  induction indices generalizing r with
  | nil =>
      show Except.ok r = .ok _
      rw [mapQueues_of_eq]
      simp
  | cons i rest ih =>
      obtain ⟨hfresh, hrest⟩ := List.nodup_cons.mp hnodup
      rw [callsOn, List.flatMap_cons, List.foldlM_append, List.foldlM_cons, drain_eq address _ rfl]
      cases hfirst : ((r.queue i).flatMap (routeOneDatagram address r.routMap)).foldlM sendOn r with
      | error e => rfl
      | ok r' =>
          have hsame := sameQueues_of_foldlM hfirst
          -- the queues of the other interfaces are as they were
          have hcalls : callsOn address (r'.mapQueues fun j q => if j = i then [] else q) rest =
              r.callsOn address rest := by
            unfold callsOn
            apply List.flatMap_congr
            intro j hj
            have hne : j ≠ i := fun heq => hfresh (heq ▸ hj)
            rw [queue_mapQueues _ _ _ (by simp), if_neg hne, hsame.queue j]
            show (r.queue j).flatMap (routeOneDatagram address r'.routMap) = _
            rw [hsame.routMap]
          show List.foldlM _ (r'.mapQueues fun j q => if j = i then [] else q) rest = _
          rw [ih hrest, hcalls, foldlM_sendOn_mapQueues]
          show _ = Except.map _ ((r.callsOn address rest).foldlM sendOn r')
          cases (r.callsOn address rest).foldlM sendOn r' with
          | error e => rfl
          | ok r'' =>
              simp only [Except.map, mapQueues_mapQueues]
              congr 1
              apply mapQueues_congr
              intro j
              by_cases hj : j = i
              · simp [hj]
              · simp [hj]

/-- **`route` makes the calls for what has been received, in order, and empties the queues.** -/
theorem route_eq (address : String → Address) (r : Router) :
    route address r = ((r.calls address).foldlM sendOn r).map emptied := by
  rw [route, drains_eq address List.nodup_range, calls]
  cases hcalls : (r.callsOn address (List.range r.interfaces.length)).foldlM sendOn r with
  | error e => rfl
  | ok r' =>
      have hsame := sameQueues_of_foldlM hcalls
      simp only [Except.map, emptied]
      congr 1
      apply mapQueues_congr
      intro i
      by_cases hi : i < r.interfaces.length
      · simp [hi]
      · rw [hsame.queue i, queue_of_le (by omega)]
        simp

/-! ## One datagram -/

/-- The leading `prefixLength` bits of the prefix are those of the address. -/
def PrefixBitsMatch {Addr : Type*} (x : RoutNode Addr) (ip : UInt32) : Prop :=
  ∀ k < x.prefixLength.toNat, x.routePrefix.toNat.testBit (31 - k) = ip.toNat.testBit (31 - k)

/-- `match` compares the bits of the prefix, for every length a prefix can have. -/
theorem matches_iff {Addr : Type*} {x : RoutNode Addr} (hlen : x.prefixLength.toNat ≤ 32)
    (ip : UInt32) : x.matches ip = true ↔ PrefixBitsMatch x ip := by
  rw [RoutNode.matches, matchRoute]
  by_cases hzero : x.prefixLength = 0
  · rw [if_pos hzero]
    simp [PrefixBitsMatch, hzero]
  · have hpos : 0 < x.prefixLength.toNat := by
      rcases Nat.eq_zero_or_pos x.prefixLength.toNat with h | h
      · exact absurd (UInt8.toNat_inj.mp h) hzero
      · exact h
    have hshift : (32 - x.prefixLength.toUInt32).toNat % 32 = 32 - x.prefixLength.toNat := by
      rw [UInt32.toNat_sub_of_le]
      · simp
        omega
      · rw [UInt32.le_iff_toNat_le]
        simpa using hlen
    rw [if_neg hzero, beq_iff_eq, ← UInt32.toNat_inj, UInt32.toNat_shiftRight,
      UInt32.toNat_shiftRight, hshift]
    constructor
    · intro heq k hk
      have hbit := congrArg (fun n => n.testBit (x.prefixLength.toNat - 1 - k)) heq
      simp only [Nat.testBit_shiftRight] at hbit
      rw [show 32 - x.prefixLength.toNat + (x.prefixLength.toNat - 1 - k) = 31 - k by omega] at hbit
      exact hbit
    · intro hbits
      apply Nat.eq_of_testBit_eq
      intro j
      rw [Nat.testBit_shiftRight, Nat.testBit_shiftRight]
      by_cases hj : j < x.prefixLength.toNat
      · have hbit := hbits (x.prefixLength.toNat - 1 - j) (by omega)
        rw [show 31 - (x.prefixLength.toNat - 1 - j) = 32 - x.prefixLength.toNat + j by omega]
          at hbit
        exact hbit
      -- there is no bit beyond the thirty-second
      · have hbeyond : ∀ n : UInt32, n.toNat.testBit (32 - x.prefixLength.toNat + j) = false := by
          intro n
          apply Nat.testBit_lt_two_pow
          exact n.toNat_lt.trans_le (Nat.pow_le_pow_right (by omega) (by omega))
        rw [hbeyond, hbeyond]

/-- `call` forwards `dgram` along the route `x`: on its interface, to its next hop or, if
there is none, to the destination itself, one hop older and otherwise unchanged. -/
structure Forwards (dgram : InternetDatagram) (x : RoutNode Address)
    (call : SendDatagram Address) : Prop where
  found : x.matches dgram.header.dst = true
  /-- shifting by a negative number of bits is not defined in the source -/
  bits : x.prefixLength.toNat ≤ 32 → PrefixBitsMatch x dgram.header.dst
  interfaceNum : call.interfaceNum = x.interfaceNum
  nextHop : call.nextHop = x.nextHop.getD (.ipv4 dgram.header.dst 0)
  ttl : call.dgram.header.ttl.toNat + 1 = dgram.header.ttl.toNat
  alive : 1 ≤ call.dgram.header.ttl.toNat
  header : call.dgram.header = { dgram.header with ttl := call.dgram.header.ttl }
  payload : call.dgram.payload = dgram.payload

theorem mem_of_mem_addRoutes {Addr : Type*} {added : List (RoutNode Addr)} {x : RoutNode Addr}
    (h : x ∈ addRoutes added) : x ∈ added := by
  obtain ⟨kept, heq, -, hmem⟩ := shape_addRoutes added
  rw [heq, List.mem_append, List.mem_reverse, List.mem_filter] at h
  rcases h with ⟨hx, -⟩ | hx
  · exact hx
  · obtain ⟨earlier, later, rfl, -⟩ := (hmem x).mp hx
    simp

/-- The calls for one datagram: none, or one along a route that matches. -/
theorem routeOneDatagram_cases {address : String → Address} {routMap : RoutMap Address}
    {dgram : InternetDatagram}
    (haddress : address (toString dgram.header.dst) = .ipv4 dgram.header.dst 0) :
    routeOneDatagram address routMap dgram = [] ∨
      ∃ call, ∃ x ∈ routMap, 1 < dgram.header.ttl.toNat ∧
        routeOneDatagram address routMap dgram = [call] ∧ Forwards dgram x call := by
  by_cases httl : dgram.header.ttl ≤ 1
  · rw [routeOneDatagram, if_pos httl]
    exact Or.inl rfl
  cases hfind : routMap.find? fun x => x.matches dgram.header.dst with
  | none =>
      rw [routeOneDatagram, if_neg httl]
      simp only [hfind]
      exact Or.inl trivial
  | some x =>
      have hmatch : x.matches dgram.header.dst = true := by
        simpa using List.find?_some hfind
      have hlive : 1 < dgram.header.ttl.toNat := by
        rw [UInt8.not_le, UInt8.lt_iff_toNat_lt] at httl
        exact httl
      have hold : (aged dgram).header.ttl.toNat + 1 = dgram.header.ttl.toNat := by
        show (dgram.header.ttl - 1).toNat + 1 = _
        have hone : (1 : UInt8) ≤ dgram.header.ttl := UInt8.le_iff_toNat_le.mpr hlive.le
        rw [UInt8.toNat_sub_of_le _ _ hone]
        show dgram.header.ttl.toNat - 1 + 1 = _
        omega
      refine Or.inr ⟨_, x, List.mem_of_find?_eq_some hfind, hlive,
        routeOneDatagram_of_match httl hfind, hmatch, fun hlen => (matches_iff hlen _).mp hmatch,
        rfl, ?_, hold, ?_, rfl, rfl⟩
      · show hopOf address x dgram.header.dst = _
        rw [hopOf, haddress]
      · show 1 ≤ (aged dgram).header.ttl.toNat
        omega

theorem mem_calls {address : String → Address} {r : Router} {call : SendDatagram Address} :
    call ∈ r.calls address ↔
      ∃ i, ∃ dgram ∈ r.queue i, call ∈ routeOneDatagram address r.routMap dgram := by
  simp only [calls, callsOn, List.mem_flatMap, List.mem_range]
  constructor
  · rintro ⟨i, -, h⟩
    exact ⟨i, h⟩
  · rintro ⟨i, dgram, hdgram, hcall⟩
    refine ⟨i, ?_, dgram, hdgram, hcall⟩
    by_contra hi
    rw [queue_of_le (by omega)] at hdgram
    exact absurd hdgram (by simp)

/-- A datagram that can be encoded is harmless if its calls are to IPv4 addresses. -/
theorem harmless_iff_calls {address : String → Address} {routMap : RoutMap Address}
    {dgram : InternetDatagram} (hformed : dgram.header.Encodable) :
    Harmless address routMap dgram.header ↔
      ∀ call ∈ routeOneDatagram address routMap dgram,
        ∃ ip, call.nextHop.ipv4Numeric = .ok ip := by
  rw [Harmless]
  by_cases httl : dgram.header.ttl ≤ 1
  · rw [routeOneDatagram, if_pos httl]
    simp [httl]
  cases hfind : routMap.find? fun x => x.matches dgram.header.dst with
  | none =>
      rw [routeOneDatagram, if_neg httl]
      simp [hfind]
  | some x =>
      rw [routeOneDatagram_of_match httl hfind]
      simp [httl, hformed]

/-- **Forwarding is sound.**  Each datagram that has been received causes at most one call,
none if its time is over, and that call forwards it along an added route that matches.  If
all calls are to IPv4 addresses, `route` makes them, in order, and leaves the queues empty;
else it throws. -/
theorem route_sound {address : String → Address} {r : Router} {added : List (RoutNode Address)}
    (htable : r.routMap = addRoutes added)
    (hroutes : ∀ x ∈ added, x.interfaceNum < r.interfaces.length)
    (hformed : ∀ i, ∀ dgram ∈ r.queue i, dgram.Encodable)
    (haddress : ∀ i, ∀ dgram ∈ r.queue i,
      address (toString dgram.header.dst) = .ipv4 dgram.header.dst 0) :
    (∀ i, ∀ dgram ∈ r.queue i,
      (routeOneDatagram address r.routMap dgram).length ≤ 1 ∧
      (dgram.header.ttl.toNat ≤ 1 → routeOneDatagram address r.routMap dgram = []) ∧
      ∀ call ∈ routeOneDatagram address r.routMap dgram, ∃ x ∈ added, Forwards dgram x call) ∧
    (((∀ call ∈ r.calls address, ∃ ip, call.nextHop.ipv4Numeric = .ok ip) ∧
        ∃ sent, (r.calls address).foldlM sendOn r = .ok sent ∧
          route address r = .ok (emptied sent) ∧ ∀ i, (emptied sent).queue i = []) ∨
      ((∃ call ∈ r.calls address, ∀ ip, call.nextHop.ipv4Numeric ≠ .ok ip) ∧
        ∃ e, route address r = .error e)) := by
  have hexist : r.RoutesExist := fun x hx => hroutes x (mem_of_mem_addRoutes (htable ▸ hx))
  have hsized : r.Sized := fun i dgram hdgram => (hformed i dgram hdgram).1
  constructor
  · intro i dgram hdgram
    rcases @routeOneDatagram_cases address r.routMap dgram (haddress i dgram hdgram) with
      hnil | ⟨call, x, hx, hlive, hcall, hforwards⟩
    · rw [hnil]
      simp
    · rw [hcall]
      refine ⟨by simp, fun hold => absurd hlive (by omega), ?_⟩
      intro c hc
      rw [List.mem_singleton] at hc
      rw [hc]
      exact ⟨x, mem_of_mem_addRoutes (htable ▸ hx), hforwards⟩
  · have hharmless : (∀ i, ∀ dgram ∈ r.queue i, Harmless address r.routMap dgram.header) ↔
        ∀ call ∈ r.calls address, ∃ ip, call.nextHop.ipv4Numeric = .ok ip := by
      constructor
      · intro hall call hcall
        obtain ⟨i, dgram, hdgram, hin⟩ := mem_calls.mp hcall
        exact (harmless_iff_calls (hformed i dgram hdgram).2).mp (hall i dgram hdgram) call hin
      · intro hall i dgram hdgram
        exact (harmless_iff_calls (hformed i dgram hdgram).2).mpr fun call hcall =>
          hall call (mem_calls.mpr ⟨i, dgram, hdgram, hcall⟩)
    have hroute := route_iff address hexist hsized
    rw [hharmless] at hroute
    rcases hroute with ⟨hall, r', hok, -, -, hempty⟩ | ⟨hnot, herr⟩
    · refine Or.inl ⟨hall, ?_⟩
      cases hsent : (r.calls address).foldlM sendOn r with
      | error e =>
          rw [route_eq, hsent] at hok
          contradiction
      | ok sent =>
          have heq : route address r = .ok (emptied sent) := by
            rw [route_eq, hsent]
            rfl
          rw [heq] at hok
          cases hok
          exact ⟨sent, rfl, heq, hempty⟩
    · push Not at hnot
      exact Or.inr ⟨hnot, herr⟩

/-- Two interfaces, a direct route for 10.0.0.0/8 on the second, and two datagrams for
10.0.0.1 received on the first, the second of them at the end of its time. -/
def twoPorts : Router where
  interfaces :=
    [{ interface := { ethernetAddress := Vector.replicate 6 2, ipAddress := 1 }
       datagramsOut :=
        [{ header := { len := 20, ttl := 2, dst := 167772161 } },
          { header := { len := 20, ttl := 1, dst := 167772161 } }] },
      { interface := { ethernetAddress := Vector.replicate 6 4, ipAddress := 167772162 } }]
  routMap := addRoutes [⟨167772160, 8, none, 1⟩]

/-- The first of the datagrams is forwarded, the other is not. -/
theorem route_sound_twoPorts :
    (twoPorts.calls fun s => .ipv4 (decimalAddress s) 0) =
        [⟨1, { header := { len := 20, ttl := 1, dst := 167772161 } }, .ipv4 167772161 0⟩] ∧
      ∃ after, route (fun s => .ipv4 (decimalAddress s) 0) twoPorts = .ok after ∧
        ∀ i, after.queue i = [] := by
  have hcalls : (twoPorts.calls fun s => .ipv4 (decimalAddress s) 0) =
      [⟨1, { header := { len := 20, ttl := 1, dst := 167772161 } }, .ipv4 167772161 0⟩] := by
    decide +kernel
  have hqueue : ∀ (P : InternetDatagram → Prop),
      P { header := { len := 20, ttl := 2, dst := 167772161 } } →
      P { header := { len := 20, ttl := 1, dst := 167772161 } } →
      ∀ i, ∀ dgram ∈ twoPorts.queue i, P dgram := by
    intro P hfirst hsecond i dgram hdgram
    match i with
    | 0 =>
        rcases List.mem_pair.mp hdgram with rfl | rfl
        · exact hfirst
        · exact hsecond
    | 1 => exact absurd hdgram List.not_mem_nil
    | i + 2 => exact absurd hdgram (by rw [queue_of_le (by simp [twoPorts])]; simp)
  refine ⟨hcalls, ?_⟩
  rcases (@route_sound (fun s => .ipv4 (decimalAddress s) 0) twoPorts
    [⟨167772160, 8, none, 1⟩] rfl (by simp [twoPorts])
    (hqueue _ (by decide) (by decide)) (hqueue _ (by decide +kernel) (by decide +kernel))).2 with
    ⟨-, sent, -, hok, hempty⟩ | ⟨⟨call, hcall, hhop⟩, -⟩
  · exact ⟨emptied sent, hok, hempty⟩
  · rw [hcalls, List.mem_singleton] at hcall
    rw [hcall] at hhop
    exact absurd rfl (hhop 167772161)

end Router
end Sponge

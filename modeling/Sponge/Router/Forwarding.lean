import Sponge.Router

/-!
# When forwarding throws

`send_datagram` throws on a datagram that cannot be encoded and on a next hop that is no
IPv4 address.  `route_iff` says from the datagrams in the queues whether `route` will.
-/

namespace Sponge

namespace Router

/-- Where a matching route sends a datagram. -/
def hopOf (address : String → Address) (x : RoutNode Address) (dst : UInt32) : Address :=
  x.nextHop.getD (address (toString dst))

/-- The datagram as it is forwarded. -/
def aged (dgram : InternetDatagram) : InternetDatagram :=
  { dgram with header := { dgram.header with ttl := dgram.header.ttl - 1 } }

/-- A datagram with this header dies here, or no route matches, or the header can be
encoded and the next hop of the first matching route is an IPv4 address. -/
def Harmless (address : String → Address) (routMap : RoutMap Address) (h : IPv4Header) : Prop :=
  h.ttl ≤ 1 ∨
    ∀ x ∈ routMap.find? fun x => x.matches h.dst,
      h.Encodable ∧ ∃ ip, (hopOf address x h.dst).ipv4Numeric = .ok ip

instance (address : Address) : Decidable (∃ ip, address.ipv4Numeric = .ok ip) :=
  match address with
  | .ipv4 numeric _ => isTrue ⟨numeric, rfl⟩
  | .other _ => isFalse fun h => by simp [Address.ipv4Numeric] at h

instance (address : String → Address) (routMap : RoutMap Address) (h : IPv4Header) :
    Decidable (Harmless address routMap h) :=
  inferInstanceAs (Decidable (_ ∨ ∀ x ∈ _, _))

theorem routeOneDatagram_of_match {address : String → Address} {routMap : RoutMap Address}
    {dgram : InternetDatagram} {x : RoutNode Address} (httl : ¬dgram.header.ttl ≤ 1)
    (hfind : routMap.find? (fun x => x.matches dgram.header.dst) = some x) :
    routeOneDatagram address routMap dgram =
      [⟨x.interfaceNum, aged dgram, hopOf address x dgram.header.dst⟩] := by
  rw [routeOneDatagram, if_neg httl]
  simp only [hfind, hopOf]
  cases x.nextHop with
  | none => rfl
  | some hop => rfl

/-- Every route names an interface. -/
def RoutesExist (r : Router) : Prop :=
  ∀ x ∈ r.routMap, x.interfaceNum < r.interfaces.length

/-- `r'` has the table and the interfaces of `r`, and its queues. -/
structure SameQueues (r r' : Router) : Prop where
  routMap : r'.routMap = r.routMap
  length : r'.interfaces.length = r.interfaces.length
  queue : ∀ j, r'.queue j = r.queue j

theorem RoutesExist.of_same {r r' : Router} (h : r.RoutesExist)
    (hmap : r'.routMap = r.routMap) (hlen : r'.interfaces.length = r.interfaces.length) :
    r'.RoutesExist := by
  intro x hx
  rw [hlen]
  exact h x (hmap ▸ hx)

/-- Replacing one interface. -/
theorem queue_set {r : Router} {i : Nat} (hi : i < r.interfaces.length)
    (a : AsyncNetworkInterface) (j : Nat) :
    queue { r with interfaces := r.interfaces.set i a } j =
      if j = i then a.datagramsOut else r.queue j := by
  rw [queue, List.getElem?_set]
  by_cases hj : j = i
  · rw [if_pos hj, if_pos hj.symm, if_pos (by omega)]
    rfl
  · rw [if_neg hj, if_neg (Ne.symm hj)]
    rfl

/-- Sending on an interface does not touch the received datagrams. -/
theorem sendOn_iff {r : Router} {call : SendDatagram Address}
    (hexists : call.interfaceNum < r.interfaces.length) :
    (call.dgram.Encodable ∧ (∃ ip, call.nextHop.ipv4Numeric = .ok ip) ∧
        ∃ r', r.sendOn call = .ok r' ∧ SameQueues r r') ∨
      (¬(call.dgram.Encodable ∧ ∃ ip, call.nextHop.ipv4Numeric = .ok ip) ∧
        ∃ e, r.sendOn call = .error e) := by
  have hsome := List.getElem?_eq_getElem hexists
  generalize r.interfaces[call.interfaceNum] = a at hsome
  rw [sendOn, hsome]
  rcases a.interface.sendDatagram_cases call.dgram call.nextHop with
    ⟨⟨e, herr⟩, hthrows⟩ | ⟨payload, ip, hser, hnum, hcase⟩
  · refine Or.inr ⟨?_, e, ?_⟩
    · rintro ⟨hencodable, ip, hip⟩
      obtain ⟨payload, hpayload⟩ := (IPv4Datagram.exists_serialize_iff _).mpr hencodable
      exact hthrows payload ip hpayload hip
    · simp only [AsyncNetworkInterface.sendDatagram, herr]
      rfl
  · refine Or.inl ⟨(IPv4Datagram.exists_serialize_iff _).mp ⟨payload, hser⟩, ⟨ip, hnum⟩, ?_⟩
    obtain ⟨n, hok⟩ : ∃ n, a.interface.sendDatagram call.dgram call.nextHop = .ok n := by
      rcases hcase with ⟨dst, -, heq⟩ | ⟨-, arp, times, -, heq⟩
      · exact ⟨_, heq⟩
      · exact ⟨_, heq⟩
    refine ⟨{ r with interfaces := r.interfaces.set call.interfaceNum { a with interface := n } },
      ?_, rfl, List.length_set, ?_⟩
    · simp only [AsyncNetworkInterface.sendDatagram, hok]
      rfl
    · intro j
      rw [queue_set hexists]
      by_cases hj : j = call.interfaceNum
      · rw [if_pos hj, hj, queue, hsome]
        rfl
      · rw [if_neg hj]

/-- Forwarding succeeds exactly for the harmless datagrams. -/
theorem forward_iff (address : String → Address) {r : Router} {dgram : InternetDatagram}
    (hroutes : r.RoutesExist)
    (hsize : dgram.payload.size = dgram.header.payloadLength.toNat) :
    (Harmless address r.routMap dgram.header ∧
        ∃ r', forward address r dgram = .ok r' ∧ SameQueues r r') ∨
      (¬Harmless address r.routMap dgram.header ∧ ∃ e, forward address r dgram = .error e) := by
  rw [forward]
  by_cases httl : dgram.header.ttl ≤ 1
  · rw [routeOneDatagram, if_pos httl]
    exact Or.inl ⟨Or.inl httl, r, rfl, rfl, rfl, fun _ => rfl⟩
  cases hfind : r.routMap.find? fun x => x.matches dgram.header.dst with
  | none =>
      rw [routeOneDatagram, if_neg httl]
      simp only [hfind]
      refine Or.inl ⟨Or.inr ?_, r, rfl, rfl, rfl, fun _ => rfl⟩
      rw [hfind]
      simp
  | some x =>
      have hexists := hroutes x (List.mem_of_find?_eq_some hfind)
      have hharmless : Harmless address r.routMap dgram.header ↔
          dgram.header.Encodable ∧
            ∃ ip, (hopOf address x dgram.header.dst).ipv4Numeric = .ok ip := by
        rw [Harmless, hfind]
        simp [httl]
      -- the time to live is not one of the fields that are checked
      have hsame : (aged dgram).Encodable ↔ dgram.header.Encodable :=
        ⟨fun h => h.2, fun h => ⟨hsize, h⟩⟩
      have hcall : (⟨x.interfaceNum, aged dgram, hopOf address x dgram.header.dst⟩ :
          SendDatagram Address).interfaceNum < r.interfaces.length := hexists
      rw [routeOneDatagram_of_match httl hfind, hharmless, List.foldlM_cons]
      rcases sendOn_iff hcall with ⟨hencodable, hip, r', hok, hqueues⟩ | ⟨hnot, e, herr⟩
      · rw [hok]
        exact Or.inl ⟨⟨hsame.mp hencodable, hip⟩, r', rfl, hqueues⟩
      · rw [herr]
        exact Or.inr ⟨fun h => hnot ⟨hsame.mpr h.1, h.2⟩, e, rfl⟩

/-! ## The loops of `route` -/

/-- Taking the first datagram from one queue. -/
theorem queue_pop (r : Router) (i j : Nat) :
    queue { r with interfaces := r.interfaces.modify i .pop } j =
      if j = i then (r.queue i).tail else r.queue j := by
  rw [queue, List.getElem?_modify]
  by_cases hj : j = i
  · subst hj
    rw [if_pos rfl, queue]
    cases r.interfaces[j]? with
    | none => simp
    | some a => simp [AsyncNetworkInterface.pop]
  · rw [if_neg hj, queue]
    simp [Ne.symm hj]

/-- One round of the inner loop, once the datagram has been forwarded. -/
theorem SameQueues.pop {r r' : Router} (h : SameQueues r r') (i : Nat) :
    ∃ next : Router, { r' with interfaces := r'.interfaces.modify i .pop } = next ∧
      next.routMap = r.routMap ∧ next.interfaces.length = r.interfaces.length ∧
      ∀ j, next.queue j = if j = i then (r.queue i).tail else r.queue j := by
  refine ⟨_, rfl, h.routMap, (List.length_modify _ _ _).trans h.length, ?_⟩
  intro j
  rw [queue_pop, h.queue i, h.queue j]

/-- A queue is emptied if all it holds is harmless; else the loop throws.  By induction
on the rounds, each in the router the round before has left. -/
theorem drain_iff (address : String → Address) {i : Nat} (fuel : Nat) {r : Router}
    (hfuel : (r.queue i).length = fuel) (hroutes : r.RoutesExist)
    (hsize : ∀ dgram ∈ r.queue i, dgram.payload.size = dgram.header.payloadLength.toNat) :
    ((∀ dgram ∈ r.queue i, Harmless address r.routMap dgram.header) ∧
        ∃ r', drain address i fuel r = .ok r' ∧ r'.routMap = r.routMap ∧
          r'.interfaces.length = r.interfaces.length ∧
          ∀ j, r'.queue j = if j = i then [] else r.queue j) ∨
      (¬(∀ dgram ∈ r.queue i, Harmless address r.routMap dgram.header) ∧
        ∃ e, drain address i fuel r = .error e) := by
  induction fuel generalizing r with
  | zero =>
      have hnil := List.eq_nil_of_length_eq_zero hfuel
      refine Or.inl ⟨by simp [hnil], r, rfl, rfl, rfl, ?_⟩
      intro j
      by_cases hj : j = i
      · rw [if_pos hj, hj, hnil]
      · rw [if_neg hj]
  | succ fuel ih =>
      cases hqueue : r.queue i with
      | nil =>
          rw [hqueue] at hfuel
          exact absurd hfuel (by simp)
      | cons dgram rest =>
          rw [hqueue] at hfuel hsize
          rw [drain, hqueue]
          dsimp only
          rcases forward_iff address hroutes (hsize dgram (by simp)) with
            ⟨hharmless, r', hok, hsame⟩ | ⟨hnot, e, herr⟩
          · rw [hok]
            obtain ⟨next, hnext, hmap, hlen, hpop⟩ := hsame.pop i
            have hrest : next.queue i = rest := by
              rw [hpop i, if_pos rfl, hqueue]
              rfl
            have hthis := ih (r := next) (by rw [hrest]; simpa using hfuel)
              (hroutes.of_same hmap hlen)
              (by rw [hrest]; exact fun d hd => hsize d (by simp [hd]))
            rw [hrest, hmap] at hthis
            rcases hthis with ⟨hall, r'', hok', hmap', hlen', hqueues⟩ | ⟨hnot, e, herr⟩
            · refine Or.inl ⟨?_, r'', ?_, hmap', hlen'.trans hlen, ?_⟩
              · rw [List.forall_mem_cons]
                exact ⟨hharmless, hall⟩
              · show drain address i fuel _ = _
                rw [hnext]
                exact hok'
              · intro j
                rw [hqueues j]
                by_cases hj : j = i
                · rw [if_pos hj, if_pos hj]
                · rw [if_neg hj, if_neg hj, hpop j, if_neg hj]
            · refine Or.inr ⟨?_, e, ?_⟩
              · rw [List.forall_mem_cons]
                exact fun h => hnot h.2
              · show drain address i fuel _ = _
                rw [hnext]
                exact herr
          · rw [herr]
            refine Or.inr ⟨?_, e, rfl⟩
            rw [List.forall_mem_cons]
            exact fun h => hnot h.1

/-- Everything received has the payload its header announces. -/
def Sized (r : Router) : Prop :=
  ∀ i, ∀ dgram ∈ r.queue i, dgram.payload.size = dgram.header.payloadLength.toNat

/-- The outer loop over some of the interfaces. -/
theorem drains_iff (address : String → Address) (indices : List Nat) {r : Router}
    (hroutes : r.RoutesExist) (hsized : r.Sized) :
    ((∀ i ∈ indices, ∀ dgram ∈ r.queue i, Harmless address r.routMap dgram.header) ∧
        ∃ r', indices.foldlM (fun r i => drain address i (r.queue i).length r) r = .ok r' ∧
          r'.routMap = r.routMap ∧ r'.interfaces.length = r.interfaces.length ∧
          ∀ j, r'.queue j = if j ∈ indices then [] else r.queue j) ∨
      (¬(∀ i ∈ indices, ∀ dgram ∈ r.queue i, Harmless address r.routMap dgram.header) ∧
        ∃ e, indices.foldlM (fun r i => drain address i (r.queue i).length r) r = .error e) := by
  induction indices generalizing r with
  | nil => exact Or.inl ⟨by simp, r, rfl, rfl, rfl, by simp⟩
  | cons i rest ih =>
      rw [List.foldlM_cons, List.forall_mem_cons]
      rcases drain_iff address _ rfl hroutes (hsized i) with
        ⟨hall, r', hok, hmap, hlen, hqueues⟩ | ⟨hnot, e, herr⟩
      · rw [hok]
        have hsized' : r'.Sized := by
          intro j dgram hdgram
          rw [hqueues j] at hdgram
          split_ifs at hdgram
          · exact absurd hdgram (by simp)
          · exact hsized j dgram hdgram
        -- a queue that has been emptied, or the queue of another interface
        have hleft : (∀ j ∈ rest, ∀ dgram ∈ r'.queue j, Harmless address r'.routMap dgram.header) ↔
            ∀ j ∈ rest, ∀ dgram ∈ r.queue j, Harmless address r.routMap dgram.header := by
          refine forall_congr' fun j => forall_congr' fun hj => ?_
          rw [hqueues j, hmap]
          by_cases hij : j = i
          · rw [if_pos hij, hij]
            exact ⟨fun _ => hall, fun _ => by simp⟩
          · rw [if_neg hij]
        have hthis := ih (r := r') (hroutes.of_same hmap hlen) hsized'
        rw [hleft] at hthis
        rcases hthis with ⟨hrest, r'', hok', hmap', hlen', hqueues'⟩ | ⟨hnot, e, herr⟩
        · refine Or.inl ⟨⟨hall, hrest⟩, r'', hok', hmap'.trans hmap, hlen'.trans hlen, ?_⟩
          intro j
          rw [hqueues' j, hqueues j]
          by_cases hij : j = i
          · simp [hij]
          · by_cases hj : j ∈ rest
            · simp [hj]
            · simp [hij, hj]
        · exact Or.inr ⟨fun h => hnot h.2, e, herr⟩
      · rw [herr]
        exact Or.inr ⟨fun h => hnot h.1, e, rfl⟩

theorem queue_of_le {r : Router} {i : Nat} (h : r.interfaces.length ≤ i) : r.queue i = [] := by
  rw [queue, List.getElem?_eq_none h]
  rfl

/-- **When `route` throws**: exactly if it has to forward a datagram that is not harmless. -/
theorem route_iff (address : String → Address) {r : Router} (hroutes : r.RoutesExist)
    (hsized : r.Sized) :
    ((∀ i, ∀ dgram ∈ r.queue i, Harmless address r.routMap dgram.header) ∧
        ∃ r', route address r = .ok r' ∧ r'.routMap = r.routMap ∧
          r'.interfaces.length = r.interfaces.length ∧ ∀ i, r'.queue i = []) ∨
      (¬(∀ i, ∀ dgram ∈ r.queue i, Harmless address r.routMap dgram.header) ∧
        ∃ e, route address r = .error e) := by
  have hevery : (∀ i ∈ List.range r.interfaces.length,
      ∀ dgram ∈ r.queue i, Harmless address r.routMap dgram.header) ↔
      ∀ i, ∀ dgram ∈ r.queue i, Harmless address r.routMap dgram.header := by
    constructor
    · intro h i
      by_cases hi : i < r.interfaces.length
      · exact h i (List.mem_range.mpr hi)
      · rw [queue_of_le (by omega)]
        simp
    · exact fun h i _ => h i
  have hloop := drains_iff address (List.range r.interfaces.length) hroutes hsized
  rw [hevery] at hloop
  rcases hloop with ⟨hall, r', hok, hmap, hlen, hqueues⟩ | ⟨hnot, e, herr⟩
  · refine Or.inl ⟨hall, r', hok, hmap, hlen, ?_⟩
    intro i
    rw [hqueues i]
    split_ifs with hi
    · rfl
    · exact queue_of_le (by simpa using hi)
  · exact Or.inr ⟨hnot, e, herr⟩

end Router
end Sponge

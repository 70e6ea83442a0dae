import Sponge.Router

/-!
# Which route the router takes

The comparison of the table puts every direct route in front of all others and
treats two next-hop routes of one prefix length as the same key.  So the table
is not sorted by prefix length, and it does not hold every route that was
added: `Shape` says what it holds, `find?_addRoutes` which route the lookup
finds, and `routes_longest_match_iff` when that is the longest match.
-/

namespace Sponge
namespace Router

variable {Addr : Type*} {added : List (RoutNode Addr)} {dst : UInt32} {r : RoutNode Addr}

/-! ### Longest-prefix-match forwarding -/

/-- The two routes have the same prefix bits and the same prefix length. -/
def SamePrefix (a b : RoutNode Addr) : Prop :=
  a.prefixLength = b.prefixLength ∧ a.matches b.routePrefix = true

/-- `b` is an added route that matches `dst`, of greatest prefix length. -/
def LongestMatch (added : List (RoutNode Addr)) (dst : UInt32) (b : RoutNode Addr) : Prop :=
  b ∈ added ∧ b.matches dst = true ∧
    ∀ r ∈ added, r.matches dst = true → r.prefixLength.toNat ≤ b.prefixLength.toNat

/-- The call that forwards `dgram` along the route `b`: to its next hop, or to
the destination itself when the route is direct. -/
def forwarded (numeric : UInt32 → Addr) (dgram : InternetDatagram) (b : RoutNode Addr) :
    SendDatagram Addr where
  interfaceNum := b.interfaceNum
  dgram := { dgram with header := { dgram.header with ttl := dgram.header.ttl - 1 } }
  nextHop := b.nextHop.getD (numeric dgram.header.dst)

/-- Longest-prefix-match forwarding: one call along the longest match, and no
call when nothing matches. -/
def RoutesLongestMatch (numeric : UInt32 → Addr) (added : List (RoutNode Addr))
    (dgram : InternetDatagram) (sent : List (SendDatagram Addr)) : Prop :=
  (∀ b, LongestMatch added dgram.header.dst b → sent = [forwarded numeric dgram b]) ∧
    ((∀ r ∈ added, r.matches dgram.header.dst = false) → sent = [])

/-- A longest match exists as soon as some route matches. -/
theorem exists_longestMatch (hr : r ∈ added) (hmatch : r.matches dst = true) :
    ∃ b, LongestMatch added dst b := by
  have hfinite : {x | x ∈ added ∧ x.matches dst = true}.Finite :=
    (List.finite_toSet added).subset fun x hx => hx.1
  obtain ⟨b, hb, hmax⟩ := Set.exists_max_image _
    (fun x : RoutNode Addr => x.prefixLength.toNat) hfinite ⟨r, hr, hmatch⟩
  exact ⟨b, hb.1, hb.2, fun x hx hxm => hmax x ⟨hx, hxm⟩⟩

theorem SamePrefix.symm {a b : RoutNode Addr} (h : SamePrefix a b) : SamePrefix b a := by
  obtain ⟨hlen, hbits⟩ := h
  refine ⟨hlen.symm, ?_⟩
  rw [RoutNode.matches, matchRoute] at hbits ⊢
  rw [← hlen]
  split at hbits
  · simp_all
  · simp_all

/-- Two routes of one length that match the same address have the same prefix. -/
theorem samePrefix_of_matches {a b : RoutNode Addr} (hlen : a.prefixLength = b.prefixLength)
    (ha : a.matches dst = true) (hb : b.matches dst = true) : SamePrefix a b := by
  refine ⟨hlen, ?_⟩
  rw [RoutNode.matches, matchRoute] at ha hb ⊢
  rw [← hlen] at hb
  split at ha
  · simp_all
  · simp_all

instance : Std.Symm fun a b : RoutNode Addr => ¬SamePrefix a b where
  symm _ _ h := fun h' => h h'.symm

/-- With distinct prefixes there is only one longest match. -/
theorem LongestMatch.unique {a b : RoutNode Addr}
    (hdistinct : added.Pairwise fun x y => ¬SamePrefix x y)
    (ha : LongestMatch added dst a) (hb : LongestMatch added dst b) : a = b := by
  by_contra hne
  have hlen : a.prefixLength = b.prefixLength :=
    UInt8.toNat_inj.mp (le_antisymm (hb.2.2 a ha.1 ha.2.1) (ha.2.2 b hb.1 hb.2.1))
  exact hdistinct.forall ha.1 hb.1 hne (samePrefix_of_matches hlen ha.2.1 hb.2.1)

/-! ### What the table holds -/

/-- `r` is a next-hop route, and no next-hop route of its length was added before it. -/
def FirstOfLength (added : List (RoutNode Addr)) (r : RoutNode Addr) : Prop :=
  ∃ earlier later, added = earlier ++ r :: later ∧ r.nextHop.isSome = true ∧
    ∀ x ∈ earlier, x.nextHop.isSome = true → x.prefixLength ≠ r.prefixLength

theorem firstOfLength_append_singleton {k : RoutNode Addr} :
    FirstOfLength (added ++ [k]) r ↔
      FirstOfLength added r ∨
        (r = k ∧ k.nextHop.isSome = true ∧
          ∀ x ∈ added, x.nextHop.isSome = true → x.prefixLength ≠ k.prefixLength) := by
  constructor
  · rintro ⟨earlier, later, heq, hvia, hfirst⟩
    rcases List.eq_nil_or_concat later with rfl | ⟨init, last, rfl⟩
    · obtain ⟨rfl, hk⟩ := List.append_inj' heq rfl
      cases hk
      exact .inr ⟨rfl, hvia, hfirst⟩
    · rw [List.concat_eq_append, ← List.cons_append, ← List.append_assoc] at heq
      obtain ⟨rfl, -⟩ := List.append_inj' heq rfl
      exact .inl ⟨earlier, init, rfl, hvia, hfirst⟩
  · rintro (⟨earlier, later, rfl, hvia, hfirst⟩ | ⟨rfl, hvia, hfirst⟩)
    · exact ⟨earlier, later ++ [k], by simp, hvia, hfirst⟩
    · exact ⟨added, [], rfl, hvia, hfirst⟩

/-- Every length that occurs among the next-hop routes has a first route. -/
theorem exists_firstOfLength {x : RoutNode Addr} (hx : x ∈ added)
    (hvia : x.nextHop.isSome = true) :
    ∃ e, FirstOfLength added e ∧ e.prefixLength = x.prefixLength := by
  have hfound : (added.find? fun y =>
      y.nextHop.isSome && decide (y.prefixLength = x.prefixLength)).isSome = true := by
    rw [List.find?_isSome]
    exact ⟨x, hx, by simp [hvia]⟩
  obtain ⟨e, he⟩ := Option.isSome_iff_exists.mp hfound
  obtain ⟨hpe, earlier, later, heq, hnot⟩ := List.find?_eq_some_iff_append.mp he
  rw [Bool.and_eq_true, decide_eq_true_eq] at hpe
  refine ⟨e, ⟨earlier, later, heq, hpe.1, ?_⟩, hpe.2⟩
  intro y hy hyvia hylen
  have hyn := hnot y hy
  simp [hyvia, hylen, hpe.2] at hyn

/-- The table after `added`: the direct routes, last added first, and then the
first next-hop route of each length, longest first. -/
def Shape (added : List (RoutNode Addr)) (routMap : RoutMap Addr) : Prop :=
  ∃ kept : List (RoutNode Addr),
    routMap = (added.filter fun x => x.nextHop.isNone).reverse ++ kept ∧
    kept.Pairwise (fun a b => b.prefixLength.toNat < a.prefixLength.toNat) ∧
    ∀ r, r ∈ kept ↔ FirstOfLength added r

theorem lt_of_direct {a b : RoutNode Addr} (ha : a.nextHop.isNone = true) :
    RoutNode.lt a b = true := by
  simp [RoutNode.lt, ha]

theorem not_lt_direct {a b : RoutNode Addr} (ha : a.nextHop.isSome = true)
    (hb : b.nextHop.isNone = true) : RoutNode.lt a b = false := by
  simp [RoutNode.lt, hb, Option.isNone_eq_false_iff.mpr ha]

theorem lt_iff_of_nextHop {a b : RoutNode Addr} (ha : a.nextHop.isSome = true)
    (hb : b.nextHop.isSome = true) :
    RoutNode.lt a b = decide (b.prefixLength.toNat < a.prefixLength.toNat) := by
  simp [RoutNode.lt, Option.isNone_eq_false_iff.mpr ha, Option.isNone_eq_false_iff.mpr hb,
    UInt8.lt_iff_toNat_lt]

/-- A direct route goes to the front of the table. -/
theorem shape_addRoute_direct {k : RoutNode Addr} {routMap : RoutMap Addr}
    (hk : k.nextHop.isNone = true) (h : Shape added routMap) :
    Shape (added ++ [k]) (addRoute routMap k) := by
  obtain ⟨kept, rfl, hsorted, hmem⟩ := h
  have hbelow : ∀ xs : RoutMap Addr, OrderedSet.belowBound RoutNode.lt k xs = [] := by
    intro xs
    cases xs with
    | nil => rfl
    | cons x rest =>
        rw [OrderedSet.belowBound, List.takeWhile_cons_of_neg (by simp [lt_of_direct hk])]
  refine ⟨kept, ?_, hsorted, ?_⟩
  · rw [addRoute, OrderedSet.insertUnique_of_belowBound_nil (hbelow _)]
    simp [hk]
  · intro x
    rw [firstOfLength_append_singleton, hmem]
    simp [Option.isSome_eq_false_iff.mpr hk]

/-- Among next-hop routes sorted by length, a route of the key's length blocks it. -/
theorem insertUnique_of_sameLength {k e : RoutNode Addr} {pre post : List (RoutNode Addr)}
    (hk : k.nextHop.isSome = true) (hvia : ∀ x ∈ pre ++ e :: post, x.nextHop.isSome = true)
    (hsorted : (pre ++ e :: post).Pairwise
      fun a b => b.prefixLength.toNat < a.prefixLength.toNat)
    (helen : e.prefixLength = k.prefixLength) :
    OrderedSet.insertUnique RoutNode.lt k (pre ++ e :: post) = pre ++ e :: post := by
  rw [List.pairwise_append, List.pairwise_cons] at hsorted
  obtain ⟨-, ⟨hpost, -⟩, hpre⟩ := hsorted
  refine OrderedSet.insertUnique_of_equivalent ?_ ?_ ?_ ?_
  · intro x hx
    have hlt := hpre x hx e List.mem_cons_self
    rw [lt_iff_of_nextHop hk (hvia x (by simp [hx])), ← helen]
    simp
    omega
  · rw [lt_iff_of_nextHop hk (hvia e (by simp)), helen]
    simp
  · rw [lt_iff_of_nextHop (hvia e (by simp)) hk, helen]
    simp
  · intro x hx
    rw [lt_iff_of_nextHop hk (hvia x (by simp [hx])), ← helen]
    simpa using hpost x hx

/-- Among next-hop routes sorted by length, a route of a new length is put in its place. -/
theorem insertUnique_of_newLength {k : RoutNode Addr} {kept : List (RoutNode Addr)}
    (hk : k.nextHop.isSome = true) (hvia : ∀ x ∈ kept, x.nextHop.isSome = true)
    (hsorted : kept.Pairwise fun a b => b.prefixLength.toNat < a.prefixLength.toNat)
    (hne : ∀ x ∈ kept, x.prefixLength.toNat ≠ k.prefixLength.toNat) :
    OrderedSet.insertUnique RoutNode.lt k kept
        = OrderedSet.belowBound RoutNode.lt k kept ++ k :: OrderedSet.fromBound RoutNode.lt k kept ∧
      (OrderedSet.insertUnique RoutNode.lt k kept).Pairwise
        fun a b => b.prefixLength.toNat < a.prefixLength.toNat := by
  refine OrderedSet.pairwise_insertUnique (fun a b c hab hbc => hbc.trans hab) ?_ ?_ ?_ hsorted
  · intro x hx hlt
    rw [lt_iff_of_nextHop hk (hvia x hx)]
    simpa using hlt
  · intro x hx hlt
    rw [lt_iff_of_nextHop hk (hvia x hx), lt_iff_of_nextHop (hvia x hx) hk]
    simp
    omega
  · intro x hx
    have := hne x hx
    omega

/-- A next-hop route takes its place by length behind the direct routes, unless
there is one of its length already. -/
theorem shape_addRoute_nextHop {k : RoutNode Addr} {routMap : RoutMap Addr}
    (hk : k.nextHop.isSome = true) (h : Shape added routMap) :
    Shape (added ++ [k]) (addRoute routMap k) := by
  obtain ⟨kept, rfl, hsorted, hmem⟩ := h
  have hvia : ∀ x ∈ kept, x.nextHop.isSome = true := by
    intro x hx
    obtain ⟨_, _, _, hx, _⟩ := (hmem x).mp hx
    exact hx
  have hdirect : ∀ x ∈ (added.filter fun x => x.nextHop.isNone).reverse,
      x.nextHop.isNone = true := by
    intro x hx
    rw [List.mem_reverse, List.mem_filter] at hx
    exact hx.2
  have hfilter : (added ++ [k]).filter (fun x => x.nextHop.isNone)
      = added.filter fun x => x.nextHop.isNone := by
    simp [Option.isNone_eq_false_iff.mpr hk]
  have hinsert : addRoute ((added.filter fun x => x.nextHop.isNone).reverse ++ kept) k
      = (added.filter fun x => x.nextHop.isNone).reverse
        ++ OrderedSet.insertUnique RoutNode.lt k kept :=
    OrderedSet.insertUnique_append (fun x hx => not_lt_direct hk (hdirect x hx))
      fun x hx => lt_of_direct (hdirect x hx)
  rw [hinsert]
  refine ⟨OrderedSet.insertUnique RoutNode.lt k kept, by rw [hfilter], ?_⟩
  by_cases hlen : ∃ e ∈ kept, e.prefixLength = k.prefixLength
  · -- a route of this length is in the table: `k` is dropped
    obtain ⟨e, he, helen⟩ := hlen
    obtain ⟨pre, post, rfl⟩ := List.append_of_mem he
    have hearlier : ∃ x ∈ added, x.nextHop.isSome = true ∧ x.prefixLength = k.prefixLength := by
      obtain ⟨earlier, later, heq, hesome, -⟩ := (hmem e).mp he
      exact ⟨e, by simp [heq], hesome, helen⟩
    rw [insertUnique_of_sameLength hk hvia hsorted helen]
    refine ⟨hsorted, ?_⟩
    intro x
    rw [firstOfLength_append_singleton, hmem]
    constructor
    · exact Or.inl
    · rintro (h | ⟨rfl, -, hfirst⟩)
      · exact h
      · obtain ⟨y, hy, hyvia, hylen⟩ := hearlier
        exact absurd hylen (hfirst y hy hyvia)
  -- `k` is the first of its length, and the bound is where the table keeps it
  · have hne : ∀ x ∈ kept, x.prefixLength.toNat ≠ k.prefixLength.toNat := fun x hx heq =>
      hlen ⟨x, hx, UInt8.toNat_inj.mp heq⟩
    obtain ⟨heq, hsorted'⟩ := insertUnique_of_newLength hk hvia hsorted hne
    refine ⟨hsorted', ?_⟩
    intro x
    have hfirst : ∀ y ∈ added, y.nextHop.isSome = true → y.prefixLength ≠ k.prefixLength := by
      intro y hy hyvia hylen
      obtain ⟨e, he, helen⟩ := exists_firstOfLength hy hyvia
      exact hlen ⟨e, (hmem e).mpr he, helen.trans hylen⟩
    rw [firstOfLength_append_singleton, ← hmem, (OrderedSet.insertUnique_perm heq).mem_iff,
      List.mem_cons]
    constructor
    · rintro (rfl | h)
      · exact .inr ⟨rfl, hk, hfirst⟩
      · exact .inl h
    · rintro (h | ⟨rfl, -, -⟩)
      · exact .inr h
      · exact .inl rfl

theorem shape_addRoutes (added : List (RoutNode Addr)) : Shape added (addRoutes added) := by
  induction added using List.reverseRecOn with
  | nil =>
      refine ⟨[], rfl, List.Pairwise.nil, ?_⟩
      simp [FirstOfLength]
  | append_singleton xs k ih =>
      rw [addRoutes, List.foldl_append, List.foldl_cons, List.foldl_nil]
      cases hk : k.nextHop with
      | none => exact shape_addRoute_direct (by simp [hk]) ih
      | some hop => exact shape_addRoute_nextHop (by simp [hk]) ih

/-! ### Which route the lookup finds -/

/-- `r` is the last added of the direct routes that match `dst`. -/
def LastDirect (added : List (RoutNode Addr)) (dst : UInt32) (r : RoutNode Addr) : Prop :=
  ∃ earlier later, added = earlier ++ r :: later ∧ r.nextHop.isNone = true ∧
    r.matches dst = true ∧ ∀ x ∈ later, x.nextHop.isNone = true → x.matches dst = false

/-- `r` is the longest match among the next-hop routes that are the first added
of their length. -/
def LongestFirst (added : List (RoutNode Addr)) (dst : UInt32) (r : RoutNode Addr) : Prop :=
  FirstOfLength added r ∧ r.matches dst = true ∧
    ∀ x, FirstOfLength added x → x.matches dst = true →
      x.prefixLength.toNat ≤ r.prefixLength.toNat

/-- `r` decides about `dst`: the last added matching direct route, and only when
there is none the longest matching next-hop route that is first of its length. -/
def Decides (added : List (RoutNode Addr)) (dst : UInt32) (r : RoutNode Addr) : Prop :=
  LastDirect added dst r ∨
    ((∀ x ∈ added, x.nextHop.isNone = true → x.matches dst = false) ∧
      LongestFirst added dst r)

theorem Decides.mem_and_matches (h : Decides added dst r) :
    r ∈ added ∧ r.matches dst = true := by
  rcases h with ⟨earlier, later, rfl, -, hmatch, -⟩ | ⟨-, ⟨earlier, later, rfl, -, -⟩, hmatch, -⟩
  · exact ⟨by simp, hmatch⟩
  · exact ⟨by simp, hmatch⟩

theorem find?_directs_eq_some :
    (added.filter fun x => x.nextHop.isNone).reverse.find? (fun x => x.matches dst) = some r ↔
      LastDirect added dst r := by
  rw [← List.filter_reverse, List.find?_filter, List.find?_eq_some_iff_append]
  constructor
  · rintro ⟨hr, later, earlier, heq, hlater⟩
    rw [decide_eq_true_eq] at hr
    have hadded : added = earlier.reverse ++ r :: later.reverse := by
      rw [← List.reverse_reverse added, heq]
      simp
    refine ⟨earlier.reverse, later.reverse, hadded, hr.1, hr.2, ?_⟩
    intro x hx hdirect
    simpa [hdirect] using hlater x (List.mem_reverse.mp hx)
  · rintro ⟨earlier, later, rfl, hdirect, hmatch, hlater⟩
    refine ⟨by simp [hdirect, hmatch], later.reverse, earlier.reverse, by simp, ?_⟩
    intro x hx
    cases hx' : x.nextHop.isNone with
    | false => rfl
    | true => simpa using hlater x (List.mem_reverse.mp hx) hx'

/-- The first match in the iteration order of the table. -/
theorem find?_addRoutes :
    (addRoutes added).find? (fun x => x.matches dst) = some r ↔ Decides added dst r := by
  obtain ⟨kept, heq, hsorted, hmem⟩ := shape_addRoutes added
  have hnone : (added.filter fun x => x.nextHop.isNone).reverse.find?
        (fun x => x.matches dst) = none ↔
      ∀ x ∈ added, x.nextHop.isNone = true → x.matches dst = false := by
    simp only [List.find?_eq_none, List.mem_reverse, List.mem_filter, and_imp,
      Bool.not_eq_true]
  have hkept : kept.find? (fun x => x.matches dst) = some r ↔ LongestFirst added dst r := by
    rw [OrderedSet.find?_eq_some_iff_greatest (f := fun x => x.prefixLength.toNat) hsorted]
    simp only [hmem, LongestFirst]
  -- direct routes are asked first, whatever their lengths
  rw [heq, List.find?_append, Option.or_eq_some_iff, find?_directs_eq_some, hnone, hkept]
  exact Iff.rfl

/-- The calls of `route_one_datagram` on a datagram that survives the hop: one
along the first match of the table, if there is one. -/
theorem routeOneDatagram_eq {address : String → Addr} {numeric : UInt32 → Addr}
    {routMap : RoutMap Addr} {dgram : InternetDatagram}
    (haddress : address (toString dgram.header.dst) = numeric dgram.header.dst)
    (httl : 1 < dgram.header.ttl) :
    routeOneDatagram address routMap dgram
      = ((routMap.find? fun x => x.matches dgram.header.dst).map
          (forwarded numeric dgram)).toList := by
  have hnot : ¬dgram.header.ttl ≤ 1 := by
    rw [UInt8.not_le]
    exact httl
  simp only [routeOneDatagram, if_neg hnot]
  cases routMap.find? fun x => x.matches dgram.header.dst with
  | none => rfl
  | some x =>
      cases hx : x.nextHop with
      | none => simp [forwarded, hx, haddress]
      | some hop => simp [forwarded, hx]

/-! ### When the lookup is longest-prefix match -/

/-- The router forwards by longest prefix match exactly when nothing matches or
the deciding route leads where the longest match leads. -/
theorem routes_longest_match_iff {address : String → Addr} {numeric : UInt32 → Addr}
    {added : List (RoutNode Addr)} {dgram : InternetDatagram}
    (haddress : address (toString dgram.header.dst) = numeric dgram.header.dst)
    (hdistinct : added.Pairwise fun x y => ¬SamePrefix x y) (httl : 1 < dgram.header.ttl) :
    RoutesLongestMatch numeric added dgram (routeOneDatagram address (addRoutes added) dgram) ↔
      (∀ r ∈ added, r.matches dgram.header.dst = false) ∨
        ∃ b r, LongestMatch added dgram.header.dst b ∧ Decides added dgram.header.dst r ∧
          r.interfaceNum = b.interfaceNum ∧
          r.nextHop.getD (numeric dgram.header.dst) =
            b.nextHop.getD (numeric dgram.header.dst) := by
  rw [routeOneDatagram_eq haddress httl]
  constructor
  · rintro ⟨hlongest, -⟩
    by_cases hnone : ∀ r ∈ added, r.matches dgram.header.dst = false
    · exact .inl hnone
    · push Not at hnone
      obtain ⟨x, hx, hxm⟩ := hnone
      obtain ⟨b, hb⟩ := exists_longestMatch hx (by simpa using hxm)
      have hsent := hlongest b hb
      cases hfind : (addRoutes added).find? fun x => x.matches dgram.header.dst with
      | none => simp [hfind] at hsent
      | some r =>
          rw [hfind, Option.map_some, Option.toList_some, List.singleton_inj] at hsent
          refine .inr ⟨b, r, hb, find?_addRoutes.mp hfind, ?_, ?_⟩
          · exact congrArg SendDatagram.interfaceNum hsent
          · exact congrArg SendDatagram.nextHop hsent
  · rintro (hnone | ⟨b, r, hb, hr, hinterface, hhop⟩)
    · refine ⟨fun b hb => ?_, fun _ => ?_⟩
      · have hbm := hb.2.1
        rw [hnone b hb.1] at hbm
        contradiction
      · have hfind : (addRoutes added).find? (fun x => x.matches dgram.header.dst) = none := by
          cases hfind : (addRoutes added).find? fun x => x.matches dgram.header.dst with
          | none => rfl
          | some r =>
              obtain ⟨hmem, hmatch⟩ := (find?_addRoutes.mp hfind).mem_and_matches
              rw [hnone r hmem] at hmatch
              contradiction
        rw [hfind]
        rfl
    · have hfind := find?_addRoutes.mpr hr
      refine ⟨fun b' hb' => ?_, fun hnone => ?_⟩
      · rw [hb'.unique hdistinct hb, hfind]
        simp [forwarded, hinterface, hhop]
      · have hbm := hb.2.1
        rw [hnone b hb.1] at hbm
        contradiction

/-- What `getaddrinfo` makes of a decimal string. -/
def decimalAddress (s : String) : UInt32 :=
  s.toList.foldl (fun n c => 10 * n + (c.toNat - 48).toUInt32) 0

/-- 10.0.0.0/8 and 10.1.0.0/16, both with a next hop, and a datagram for 10.1.0.1. -/
theorem routes_longest_match_nested_prefixes :
    RoutesLongestMatch id
      [⟨167772160, 8, some 1, 0⟩, ⟨167837696, 16, some 2, 1⟩]
      { header := { dst := 167837697 } }
      (routeOneDatagram decimalAddress
        (addRoutes [⟨167772160, 8, some 1, 0⟩, ⟨167837696, 16, some 2, 1⟩])
        { header := { dst := 167837697 } }) := by
  refine (routes_longest_match_iff (by decide +kernel) ?_ (by decide)).mpr (.inr ?_)
  · simp [SamePrefix]
  · refine ⟨⟨167837696, 16, some 2, 1⟩, ⟨167837696, 16, some 2, 1⟩, ?_, .inr ⟨?_, ?_⟩, rfl, rfl⟩
    · exact ⟨by simp, by decide, by simp⟩
    · simp
    · refine ⟨⟨[⟨167772160, 8, some 1, 0⟩], [], rfl, rfl, by simp⟩, by decide, ?_⟩
      rintro x ⟨earlier, later, heq, -, -⟩ -
      have hx : x ∈ earlier ++ x :: later := by simp
      rw [← heq] at hx
      simp at hx
      rcases hx with rfl | rfl
      · decide
      · decide

/-- 10.0.0.0/8 and 11.0.0.0/8, both with a next hop: the second is lost, and a
datagram for 11.0.0.1 is dropped. -/
theorem same_length_route_lost :
    decimalAddress (toString (184549377 : UInt32)) = 184549377 ∧
      ([⟨167772160, 8, some 1, 0⟩, ⟨184549376, 8, some 2, 1⟩] :
        List (RoutNode UInt32)).Pairwise (fun x y => ¬SamePrefix x y) ∧
      ¬RoutesLongestMatch id
        [⟨167772160, 8, some 1, 0⟩, ⟨184549376, 8, some 2, 1⟩]
        { header := { dst := 184549377 } }
        (routeOneDatagram decimalAddress
          (addRoutes [⟨167772160, 8, some 1, 0⟩, ⟨184549376, 8, some 2, 1⟩])
          { header := { dst := 184549377 } }) := by
  refine ⟨by decide +kernel, ?_, ?_⟩
  · simp [SamePrefix, RoutNode.matches, matchRoute]
    decide
  · rintro ⟨hlongest, -⟩
    have hsent := hlongest ⟨184549376, 8, some 2, 1⟩ ⟨by simp, by decide, by simp⟩
    have hnil : routeOneDatagram decimalAddress
        (addRoutes [⟨167772160, 8, some 1, 0⟩, ⟨184549376, 8, some 2, 1⟩])
        { header := { dst := 184549377 } } = [] := by decide
    rw [hnil] at hsent
    contradiction

end Router
end Sponge

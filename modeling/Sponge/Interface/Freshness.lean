import Sponge.Interface.Clock

/-!
# The ARP cache is fresh

The times in `map_time` are 32-bit readings of a clock that wraps around.  As long as no
single tick is longer than half its range, the difference of two readings is the true age of
a mapping, however long the interface has been running: `cache_fresh`.
-/

namespace Sponge
namespace TimedRun

open NetworkInterface

/-- A tick of less than half the range of the clock. -/
def ShortTick : InterfaceOp → Prop
  | .tick ms => ms < 2 ^ 31
  | _ => True

instance : (op : InterfaceOp) → Decidable (ShortTick op)
  | .tick ms => inferInstanceAs (Decidable (ms < 2 ^ 31))
  | .send _ _ => inferInstanceAs (Decidable True)
  | .recv _ => inferInstanceAs (Decidable True)

/-- The latest ARP message accepted from `ip`, with its time. -/
def latestFrom (r : TimedRun) (ip : UInt32) : Option (Nat × ARPMessage) :=
  r.accepted.find? fun x => x.2.senderIpAddress = ip

/-- That message, if it is not older than a mapping may be. -/
def fresh (r : TimedRun) (ip : UInt32) : Option (Nat × ARPMessage) :=
  (r.latestFrom ip).filter fun x => decide (r.now < x.1 + 30000)

/-- The cache holds what the fresh messages say. -/
structure Fresh (r : TimedRun) : Prop extends r.Timed where
  past : ∀ x ∈ r.accepted, x.1 ≤ r.now
  ordered : r.accepted.Pairwise fun later earlier => earlier.1 ≤ later.1
  times : ∀ ip, r.interface.mapTime.lookup ip = (r.fresh ip).map fun x => x.1 % 2 ^ 32
  addresses : ∀ ip,
    r.interface.ipAddressMap.lookup ip = (r.fresh ip).map fun x => x.2.senderEthernetAddress

theorem fresh_start (ethernetAddress : EthernetAddress) (ipAddress : UInt32) :
    (start ethernetAddress ipAddress).Fresh where
  toTimed := timed_start ethernetAddress ipAddress
  past := by simp [start]
  ordered := List.Pairwise.nil
  times := by simp [start, fresh, latestFrom]
  addresses := by simp [start, fresh, latestFrom]

section Step

variable {r r' : TimedRun} {ms : Nat}

theorem fresh_eq_some_iff {ip : UInt32} {x : Nat × ARPMessage} :
    r.fresh ip = some x ↔ r.latestFrom ip = some x ∧ r.now < x.1 + 30000 := by
  simp [fresh]

/-- The sender of a new message is known by it; about the others nothing has changed. -/
theorem fresh_learns {after : NetworkInterface} {msg : ARPMessage} (ip : UInt32) :
    fresh { r with interface := after, accepted := (r.now, msg) :: r.accepted } ip =
      if ip = msg.senderIpAddress then some (r.now, msg) else r.fresh ip := by
  by_cases hip : ip = msg.senderIpAddress
  · rw [if_pos hip]
    simp [fresh, latestFrom, hip]
  · rw [if_neg hip]
    simp [fresh, latestFrom, Ne.symm hip]

theorem Fresh.learns (h : r.Fresh) {after : NetworkInterface} {msg : ARPMessage}
    (hlearned : Learned r.interface msg after)
    (htimed : Timed { r with interface := after, accepted := (r.now, msg) :: r.accepted }) :
    Fresh { r with interface := after, accepted := (r.now, msg) :: r.accepted } where
  toTimed := htimed
  past := by
    rintro x (_ | ⟨_, hx⟩)
    · exact le_rfl
    · exact h.past x hx
  ordered := List.pairwise_cons.mpr ⟨h.past, h.ordered⟩
  times := by
    intro ip
    rw [fresh_learns, hlearned.mapTime]
    by_cases hip : ip = msg.senderIpAddress
    · rw [if_pos hip, hip, AList.lookup_insert, h.clock]
      rfl
    · rw [if_neg hip, AList.lookup_insert_ne hip]
      exact h.times ip
  addresses := by
    intro ip
    rw [fresh_learns, hlearned.ipAddressMap]
    by_cases hip : ip = msg.senderIpAddress
    · rw [if_pos hip, hip, AList.lookup_insert]
      rfl
    · rw [if_neg hip, AList.lookup_insert_ne hip]
      exact h.addresses ip

/-- The reading of the clock says how old a mapping is.  It was younger than thirty seconds
before the tick, so the true age still fits in 32 bits. -/
theorem Fresh.age (h : r.Fresh) (hms : ms < 2 ^ 31) {ip : UInt32} {x : Nat × ARPMessage}
    (hx : r.fresh ip = some x) :
    Word.sub 32 (Word.add 32 r.interface.nowTime ms) (x.1 % 2 ^ 32) = r.now + ms - x.1 := by
  obtain ⟨hlatest, hyoung⟩ := fresh_eq_some_iff.mp hx
  have hpast := h.past x (List.mem_of_find?_eq_some hlatest)
  rw [h.clock, Word.add_mod_left, Word.sub_mod_mod (by omega)]
  exact Nat.mod_eq_of_lt (by omega)

/-- A tick expires exactly the messages that are not fresh any more. -/
theorem Fresh.fresh_ticks (h : r.Fresh) (hms : ms < 2 ^ 31) (ip : UInt32) :
    (Expires r.interface ms ip →
      fresh { r with interface := r.interface.tick ms, now := r.now + ms } ip = none) ∧
    (¬Expires r.interface ms ip →
      fresh { r with interface := r.interface.tick ms, now := r.now + ms } ip = r.fresh ip) := by
  have htimes := h.times ip
  cases hfresh : r.fresh ip with
  | none =>
      -- what is not fresh now will not be fresh later
      have hlater :
          fresh { r with interface := r.interface.tick ms, now := r.now + ms } ip = none := by
        rw [fresh, Option.filter_eq_none_iff] at hfresh ⊢
        intro x hx
        have hold := hfresh x hx
        simp only [decide_eq_true_eq] at hold ⊢
        omega
      exact ⟨fun _ => hlater, fun _ => hlater⟩
  | some x =>
      obtain ⟨hlatest, hyoung⟩ := fresh_eq_some_iff.mp hfresh
      have hage := h.age hms hfresh
      rw [hfresh] at htimes
      constructor
      · rintro ⟨time, htime, hold⟩
        rw [htimes] at htime
        cases htime
        rw [hage] at hold
        rw [fresh, Option.filter_eq_none_iff]
        intro y hy
        have heq : some x = some y := hlatest.symm.trans hy
        cases heq
        simp only [decide_eq_true_eq]
        omega
      · intro hkeeps
        have hstill : r.now + ms < x.1 + 30000 := by
          by_contra hold
          exact hkeeps ⟨x.1 % 2 ^ 32, htimes, by rw [hage]; omega⟩
        exact fresh_eq_some_iff.mpr ⟨hlatest, hstill⟩

theorem Fresh.ticks (h : r.Fresh) (hms : ms < 2 ^ 31)
    (htimed : Timed { r with interface := r.interface.tick ms, now := r.now + ms }) :
    Fresh { r with interface := r.interface.tick ms, now := r.now + ms } where
  toTimed := htimed
  past := fun x hx => (h.past x hx).trans (Nat.le_add_right _ _)
  ordered := h.ordered
  times := by
    intro ip
    obtain ⟨-, -, hgone, hkept⟩ := tick_spec r.interface ms ip
    obtain ⟨hexpires, hkeeps⟩ := h.fresh_ticks hms ip
    by_cases hold : Expires r.interface ms ip
    · rw [hexpires hold]
      exact (hgone hold).1
    · rw [hkeeps hold, ← h.times ip]
      exact (hkept hold).1
  addresses := by
    intro ip
    obtain ⟨-, -, hgone, hkept⟩ := tick_spec r.interface ms ip
    obtain ⟨hexpires, hkeeps⟩ := h.fresh_ticks hms ip
    by_cases hold : Expires r.interface ms ip
    · rw [hexpires hold]
      exact (hgone hold).2
    · rw [hkeeps hold, ← h.addresses ip]
      exact (hkept hold).2

/-- A call that keeps both maps of the cache. -/
theorem Fresh.keep (h : r.Fresh) (htimed : r'.Timed) (hnow : r'.now = r.now)
    (haccepted : r'.accepted = r.accepted) (hsame : SameCache r.interface r'.interface) :
    r'.Fresh := by
  have hfresh : ∀ ip, r'.fresh ip = r.fresh ip := by
    intro ip
    rw [fresh, fresh, latestFrom, latestFrom, hnow, haccepted]
  refine ⟨htimed, ?_, ?_, ?_, ?_⟩
  · rw [hnow, haccepted]
    exact h.past
  · rw [haccepted]
    exact h.ordered
  · intro ip
    rw [hfresh, hsame.mapTime]
    exact h.times ip
  · intro ip
    rw [hfresh, hsame.ipAddressMap]
    exact h.addresses ip

theorem Fresh.of_happens {op : InterfaceOp} (h : r.Fresh) (hshort : ShortTick op)
    (htimed : r'.Timed) (hs : Happens r op r') : r'.Fresh := by
  cases hs with
  | nothing hsame _ => exact h.keep htimed rfl rfl hsame
  | asks _ _ hsame _ => exact h.keep htimed rfl rfl hsame
  | learns hlearned => exact h.learns hlearned htimed
  | ticks ms => exact h.ticks hshort htimed

/-- An address is fresh exactly if any message from it is: the latest one is at least as
young. -/
theorem Fresh.exists_fresh_iff (h : r.Fresh) {ip : UInt32} :
    (∃ x, r.fresh ip = some x) ↔
      ∃ x ∈ r.accepted, x.2.senderIpAddress = ip ∧ r.now < x.1 + 30000 := by
  constructor
  · rintro ⟨x, hx⟩
    obtain ⟨hlatest, hyoung⟩ := fresh_eq_some_iff.mp hx
    exact ⟨x, List.mem_of_find?_eq_some hlatest, by simpa using List.find?_some hlatest, hyoung⟩
  · rintro ⟨x, hx, hsender, hyoung⟩
    cases hlatest : r.latestFrom ip with
    | none =>
        have hnone := List.find?_eq_none.mp hlatest x hx
        simp [hsender] at hnone
    | some y =>
        obtain ⟨-, later, earlier, heq, hlater⟩ := List.find?_eq_some_iff_append.mp hlatest
        refine ⟨y, fresh_eq_some_iff.mpr ⟨hlatest, ?_⟩⟩
        have hordered := h.ordered
        rw [heq] at hx hordered
        rcases List.mem_append.mp hx with hbefore | hafter
        · have hno := hlater x hbefore
          simp [hsender] at hno
        · rcases List.mem_cons.mp hafter with rfl | hearlier
          · exact hyoung
          · have hle := (List.pairwise_cons.mp (List.pairwise_append.mp hordered).2.1).1 x hearlier
            omega

end Step

/-- **The cache is fresh.**  After any run with ticks of less than half the range of the
clock, an address is in both maps exactly if an ARP message from it was accepted less than
thirty seconds ago, and the Ethernet address it is mapped to is that of the latest one. -/
theorem cache_fresh {ethernetAddress : EthernetAddress} {ipAddress : UInt32} {r : TimedRun}
    (h : Run.Reach step (fun _ op => ShortTick op) (start ethernetAddress ipAddress) r) :
    (∀ ip, ip ∈ r.interface.ipAddressMap ↔ ip ∈ r.interface.mapTime) ∧
    (∀ ip, ip ∈ r.interface.ipAddressMap ↔
      ∃ x ∈ r.accepted, x.2.senderIpAddress = ip ∧ r.now < x.1 + 30000) ∧
    ∀ ip dst, r.interface.ipAddressMap.lookup ip = some dst →
      ∃ later time msg earlier, r.accepted = later ++ (time, msg) :: earlier ∧
        msg.senderIpAddress = ip ∧ msg.senderEthernetAddress = dst ∧
        ∀ x ∈ later, x.2.senderIpAddress ≠ ip := by
  have hfresh : r.Fresh := h.invariant (P := fun r => r.Fresh) (fresh_start _ _)
    fun s op hop hs => hs.of_happens hop (hs.toTimed.step op) (happens_step hs.queues op)
  have haddress : ∀ ip, ip ∈ r.interface.ipAddressMap ↔ ∃ x, r.fresh ip = some x := by
    intro ip
    rw [← AList.lookup_isSome, hfresh.addresses, Option.isSome_map, Option.isSome_iff_exists]
  have htime : ∀ ip, ip ∈ r.interface.mapTime ↔ ∃ x, r.fresh ip = some x := by
    intro ip
    rw [← AList.lookup_isSome, hfresh.times, Option.isSome_map, Option.isSome_iff_exists]
  refine ⟨fun ip => (haddress ip).trans (htime ip).symm, ?_, ?_⟩
  · intro ip
    rw [haddress]
    exact hfresh.exists_fresh_iff
  · intro ip dst hlook
    rw [hfresh.addresses, Option.map_eq_some_iff] at hlook
    obtain ⟨⟨time, msg⟩, hx, rfl⟩ := hlook
    obtain ⟨hsender, later, earlier, heq, hlater⟩ :=
      List.find?_eq_some_iff_append.mp (fresh_eq_some_iff.mp hx).1
    refine ⟨later, time, msg, earlier, heq, by simpa using hsender, rfl, ?_⟩
    intro x hx
    simpa using hlater x hx

/-- An interface hears a request of 10.0.0.9 for the address of another host, and the clock
comes to the last millisecond of the mapping. -/
def heardRequest : List InterfaceOp :=
  [.recv (arpFrame { ethernetAddress := Vector.replicate 6 3, ipAddress := 0x0a000009 }
      ethernetBroadcast
      (arpRequest { ethernetAddress := Vector.replicate 6 3, ipAddress := 0x0a000009 }
        0x0a000005).fieldBytes),
    .tick 29999]

/-- The mapping is there in its last millisecond. -/
theorem cache_fresh_heardRequest :
    0x0a000009 ∈ (Run.exec step (start (Vector.replicate 6 2) 0x0a000001)
      heardRequest).interface.ipAddressMap := by
  have hreach : Run.Reach step (fun _ op => ShortTick op) (start (Vector.replicate 6 2) 0x0a000001)
      (Run.exec step (start (Vector.replicate 6 2) 0x0a000001) heardRequest) :=
    Run.Reach.exec .start (by decide +kernel)
  refine ((cache_fresh hreach).2.1 0x0a000009).mpr ⟨(0, ⟨1, 0x800, 6, 4, 1, Vector.replicate 6 3,
    0x0a000009, Vector.replicate 6 0, 0x0a000005⟩), ?_, rfl, ?_⟩
  · decide +kernel
  · decide +kernel

end TimedRun
end Sponge

import Sponge.Interface.Clock

/-!
# ARP requests are rate limited

The record of the last request to an address is erased when what waited for the address is
sent.  That is safe because the address is known from then on, and stays known for longer
than a request blocks the next one.  A reading of the clock may hide whole turns of it, but
it never shows more time than has passed.
-/

namespace Sponge
namespace TimedRun

open NetworkInterface

/-- No request to `ip` can follow too soon on one at `time`: it is long ago, or on record, or
`ip` has been learned since and is still known. -/
def Spaced (r : TimedRun) (ip : UInt32) (time : Nat) : Prop :=
  time + 5000 ≤ r.now ∨
    r.interface.latestArpTime.lookup ip = some (time % 2 ^ 32) ∨
    ∃ dst learned, r.interface.ipAddressMap.lookup ip = some dst ∧
      r.interface.mapTime.lookup ip = some (learned % 2 ^ 32) ∧ time ≤ learned ∧ learned ≤ r.now

/-- Earlier requests are far apart, and the last one to each address has left its mark. -/
structure Limited (r : TimedRun) : Prop extends r.Timed where
  past : ∀ x ∈ r.asked, x.1 ≤ r.now
  apart : r.asked.Pairwise fun later earlier => later.2 = earlier.2 → earlier.1 + 5000 ≤ later.1
  spaced : ∀ x ∈ r.asked, r.Spaced x.2 x.1

theorem limited_start (ethernetAddress : EthernetAddress) (ipAddress : UInt32) :
    (start ethernetAddress ipAddress).Limited where
  toTimed := timed_start ethernetAddress ipAddress
  past := by simp [start]
  apart := List.Pairwise.nil
  spaced := by simp [start]

section Step

variable {r r' : TimedRun}

/-- The clock shows at most the time that has passed. -/
theorem Timed.elapsed_le (h : r.Timed) (ms : Nat) {time : Nat} (hpast : time ≤ r.now) :
    Word.sub 32 (Word.add 32 r.interface.nowTime ms) (time % 2 ^ 32) ≤ r.now + ms - time := by
  rw [h.clock, Word.add_mod_left, Word.sub_mod_mod (by omega)]
  exact Nat.mod_le _ _

/-- When a request is sent, every earlier one to the same address is long ago. -/
theorem Limited.long_ago (h : r.Limited) {ip : UInt32} {time : Nat}
    (hunknown : r.interface.ipAddressMap.lookup ip = none)
    (hlong : r.interface.askedRecently ip = false) (hpast : time ≤ r.now)
    (hspaced : r.Spaced ip time) : time + 5000 ≤ r.now := by
  rcases hspaced with hold | hrecord | ⟨dst, learned, hknown, -⟩
  · exact hold
  · rw [askedRecently, hrecord, decide_eq_false_iff_not, not_lt, h.clock,
      Word.sub_mod_mod hpast] at hlong
    have hle := Nat.mod_le (r.now - time) (2 ^ 32)
    omega
  · rw [hunknown] at hknown
    contradiction

/-- A call that keeps the mapping and the record of an address keeps it spaced. -/
theorem Spaced.keep {ip : UInt32} {time : Nat} (h : r.Spaced ip time) (hnow : r'.now = r.now)
    (hrecord : r'.interface.latestArpTime.lookup ip = r.interface.latestArpTime.lookup ip)
    (haddress : r'.interface.ipAddressMap.lookup ip = r.interface.ipAddressMap.lookup ip)
    (htime : r'.interface.mapTime.lookup ip = r.interface.mapTime.lookup ip) :
    r'.Spaced ip time := by
  rw [Spaced, hnow, hrecord, haddress, htime]
  exact h

theorem Spaced.asks {after : NetworkInterface} {ip target : UInt32} {time : Nat}
    (h : r.Spaced ip time) (hsame : SameCache r.interface after)
    (hrecords : after.latestArpTime =
      r.interface.latestArpTime.insert target r.interface.nowTime)
    (hlong : ip = target → time + 5000 ≤ r.now) :
    Spaced { r with interface := after, asked := (r.now, target) :: r.asked } ip time := by
  by_cases hip : ip = target
  · exact Or.inl (hlong hip)
  · refine h.keep rfl ?_ ?_ ?_
    · show after.latestArpTime.lookup ip = _
      rw [hrecords, AList.lookup_insert_ne hip]
    · show after.ipAddressMap.lookup ip = _
      rw [hsame.ipAddressMap]
    · show after.mapTime.lookup ip = _
      rw [hsame.mapTime]

/-- Learning an address may erase the record, but then the address is known. -/
theorem Spaced.learns {after : NetworkInterface} {msg : ARPMessage} {ip : UInt32} {time : Nat}
    (h : r.Spaced ip time) (hclock : r.interface.nowTime = r.now % 2 ^ 32)
    (hlearned : Learned r.interface msg after) (hpast : time ≤ r.now) :
    Spaced { r with interface := after, accepted := (r.now, msg) :: r.accepted } ip time := by
  by_cases hip : ip = msg.senderIpAddress
  · refine Or.inr (Or.inr ⟨msg.senderEthernetAddress, r.now, ?_, ?_, hpast, le_rfl⟩)
    · show after.ipAddressMap.lookup ip = _
      rw [hlearned.ipAddressMap, hip, AList.lookup_insert]
    · show after.mapTime.lookup ip = _
      rw [hlearned.mapTime, hip, AList.lookup_insert, hclock]
  · refine h.keep rfl (hlearned.latestArpTime ip hip) ?_ ?_
    · show after.ipAddressMap.lookup ip = _
      rw [hlearned.ipAddressMap, AList.lookup_insert_ne hip]
    · show after.mapTime.lookup ip = _
      rw [hlearned.mapTime, AList.lookup_insert_ne hip]

/-- A mapping is only forgotten when thirty seconds have passed since it was learned. -/
theorem Spaced.ticks {ip : UInt32} {time : Nat} (h : r.Spaced ip time) (htimed : r.Timed)
    (ms : Nat) :
    Spaced { r with interface := r.interface.tick ms, now := r.now + ms } ip time := by
  obtain ⟨-, hrecords, -, hkept⟩ := tick_spec r.interface ms ip
  rcases h with hold | hrecord | ⟨dst, learned, hknown, hlearned, hsince, hpast⟩
  · exact Or.inl (by show time + 5000 ≤ r.now + ms; omega)
  · refine Or.inr (Or.inl ?_)
    show (r.interface.tick ms).latestArpTime.lookup ip = _
    rw [hrecords, hrecord]
  · by_cases hexpires : Expires r.interface ms ip
    · obtain ⟨reading, hreading, hage⟩ := hexpires
      rw [hlearned] at hreading
      cases hreading
      have hle := htimed.elapsed_le ms hpast
      exact Or.inl (by show time + 5000 ≤ r.now + ms; omega)
    · obtain ⟨htime, haddress⟩ := hkept hexpires
      refine Or.inr (Or.inr ⟨dst, learned, haddress.trans hknown, htime.trans hlearned, hsince, ?_⟩)
      show learned ≤ r.now + ms
      omega

theorem Limited.of_happens {op : InterfaceOp} (h : r.Limited) (htimed : r'.Timed)
    (hs : Happens r op r') : r'.Limited := by
  cases hs with
  | nothing hsame hrecords =>
      refine ⟨htimed, h.past, h.apart, fun x hx => (h.spaced x hx).keep rfl ?_ ?_ ?_⟩
      · rw [hrecords]
      · rw [hsame.ipAddressMap]
      · rw [hsame.mapTime]
  | @asks op after ip hunknown hlong hsame hrecords =>
      have hago : ∀ x ∈ r.asked, x.2 = ip → x.1 + 5000 ≤ r.now := by
        rintro x hx rfl
        exact h.long_ago hunknown hlong (h.past x hx) (h.spaced x hx)
      refine ⟨htimed, ?_, ?_, ?_⟩
      · rintro x (_ | ⟨_, hx⟩)
        · exact le_rfl
        · exact h.past x hx
      · exact List.pairwise_cons.mpr ⟨fun x hx heq => hago x hx heq.symm, h.apart⟩
      · rintro x (_ | ⟨_, hx⟩)
        -- the new request is on record
        · refine Or.inr (Or.inl ?_)
          show after.latestArpTime.lookup ip = some (r.now % 2 ^ 32)
          rw [hrecords, AList.lookup_insert, h.clock]
        · exact (h.spaced x hx).asks hsame hrecords (hago x hx)
  | learns hlearned =>
      exact ⟨htimed, h.past, h.apart,
        fun x hx => (h.spaced x hx).learns h.clock hlearned (h.past x hx)⟩
  | ticks ms =>
      exact ⟨htimed, fun x hx => (h.past x hx).trans (Nat.le_add_right _ _), h.apart,
        fun x hx => (h.spaced x hx).ticks h.toTimed ms⟩

end Step

/-- **ARP requests are rate limited.**  In every run, two requests for one address are five
seconds apart. -/
theorem requests_apart {ethernetAddress : EthernetAddress} {ipAddress : UInt32} {r : TimedRun}
    (h : Run.Reach step (fun _ _ => True) (start ethernetAddress ipAddress) r) :
    r.asked.Pairwise fun later earlier => later.2 = earlier.2 → earlier.1 + 5000 ≤ later.1 := by
  have hlimited : r.Limited := h.invariant (P := fun r => r.Limited) (limited_start _ _)
    fun s op _ hs => hs.of_happens (hs.toTimed.step op) (happens_step hs.queues op)
  exact hlimited.apart

/-- Three datagrams for 10.0.0.9: at once, a millisecond too early and in time. -/
def threeSends : List InterfaceOp :=
  [.send { header := { len := 20 } } (.ipv4 0x0a000009 0), .tick 4999,
    .send { header := { len := 20 } } (.ipv4 0x0a000009 0), .tick 1,
    .send { header := { len := 20 } } (.ipv4 0x0a000009 0)]

/-- The first and the last of them go with a request. -/
theorem requests_apart_threeSends :
    (Run.exec step (start (Vector.replicate 6 2) 0x0a000001) threeSends).asked =
        [(5000, 0x0a000009), (0, 0x0a000009)] ∧
      (Run.exec step (start (Vector.replicate 6 2) 0x0a000001) threeSends).asked.Pairwise
        fun later earlier => later.2 = earlier.2 → earlier.1 + 5000 ≤ later.1 := by
  refine ⟨by decide +kernel, requests_apart (Run.Reach.exec .start ?_)⟩
  decide +kernel

end TimedRun
end Sponge

import Sponge.Lib.Run
import Sponge.Receiver.Runs

/-!
# The peer's initial sequence number

Every SYN sets the initial sequence number, not only the first one.  So the
acknowledgment number stays relative to the first SYN exactly in the runs whose
later SYNs repeat its sequence number.
-/

namespace Sponge

theorem wrap_congr {n m : Nat} (h : n % 2 ^ 64 = m % 2 ^ 64) (isn : WrappingInt32) :
    wrap n isn = wrap m isn := by
  apply WrappingInt32.ext_toNat
  rw [wrap_toNat, wrap_toNat, maxInt]
  omega

theorem wrap_injective (n : Nat) {a b : WrappingInt32} (h : wrap n a = wrap n b) : a = b := by
  have ha := a.rawValue.toNat_lt
  have hb := b.rawValue.toNat_lt
  have hraw := congrArg (fun x => x.rawValue.toNat) h
  simp only [wrap_toNat, maxInt] at hraw
  apply WrappingInt32.ext_toNat
  omega

namespace ReceiverRun

/-- The absolute number of the acknowledgment: the SYN, what was placed in the
stream, and the FIN. -/
def absoluteAck (h : ReceiverRun) : Nat :=
  1 + h.placed.length + (if h.receiver.streamOut.inputEnded then 1 else 0)

/-- From the first SYN on, the acknowledgment number and the index of incoming data
are relative to it. -/
def Pinned (h : ReceiverRun) : Prop :=
  ∀ s, h.firstSyn = some s →
    h.receiver.ackno = some (wrap (1 + h.receiver.streamOut.bytesWritten +
      (if h.receiver.streamOut.inputEnded then 1 else 0)) s) ∧
    ∀ seg : TCPSegment, seg.header.syn = false → h.receiver.segStart seg =
      unwrap seg.header.seqno (wrap 1 s) h.receiver.streamOut.bytesWritten

/-- A further SYN repeats the sequence number of the first one. -/
def SameSyn (h : ReceiverRun) : ReceiverOp → Prop
  | .receive seg => seg.header.syn = true → ∀ s ∈ h.firstSyn, seg.header.seqno = s
  | .read _ => True

instance (h : ReceiverRun) : ∀ op, Decidable (h.SameSyn op)
  | .receive _ => inferInstanceAs (Decidable (_ → _))
  | .read _ => inferInstanceAs (Decidable True)

theorem Counted.ackno_eq {h : ReceiverRun} (hc : h.Counted) {s : WrappingInt32}
    (hsyn : h.firstSyn = some s) :
    h.receiver.ackno = some (wrap (h.receiver.streamOut.bytesWritten +
      (if h.receiver.streamOut.inputEnded then 1 else 0)) h.receiver.isn) := by
  have hisn : h.receiver.recieveIsn = true := by rw [hc.isn, hsyn, Option.isSome_some]
  have hsum : Word.add 64 1 h.receiver.streamOut.bytesWritten % 2 ^ 64 =
      (h.receiver.streamOut.bytesWritten + 1) % 2 ^ 64 := by
    unfold Word.add
    omega
  unfold TCPReceiver.ackno
  rw [if_pos hisn]
  split_ifs
  · rw [wrap_congr hsum]
  · rfl

/-- The receiver is pinned when its number is the one after the first SYN's. -/
theorem Counted.pinned_iff {h : ReceiverRun} (hc : h.Counted) :
    h.Pinned ↔ ∀ s, h.firstSyn = some s → h.receiver.isn = wrap 1 s := by
  constructor
  · intro hp s hs
    -- the acknowledgment number determines the number it is counted from
    have hack := (hp s hs).1
    rw [hc.ackno_eq hs, Option.some.injEq, Nat.add_assoc 1, ← wrap_wrap _ 1 s] at hack
    exact wrap_injective _ hack
  · intro hisn s hs
    refine ⟨?_, ?_⟩
    · rw [hc.ackno_eq hs, hisn s hs, wrap_wrap, Nat.add_assoc]
    · intro seg hseg
      unfold TCPReceiver.segStart
      rw [if_neg (by simp [hseg]), hisn s hs]

/-- A step from a pinned receiver keeps it pinned exactly when it does not bring
another SYN. -/
theorem Counted.pinned_step_iff {h : ReceiverRun} (hc : h.Counted) (hp : h.Pinned)
    (op : ReceiverOp) : (h.step op).Pinned ↔ h.SameSyn op := by
  rw [(hc.step op).pinned_iff]
  rw [hc.pinned_iff] at hp
  cases op with
  | read len => exact ⟨fun _ => trivial, fun _ => hp⟩
  | receive seg =>
      have hisn : (h.step (.receive seg)).receiver.isn =
          if seg.header.syn then wrap 1 seg.header.seqno else h.receiver.isn :=
        h.receiver.segmentReceived_isn seg
      rw [hisn]
      simp only [ReceiverRun.step, SameSyn]
      cases hfirst : h.firstSyn with
      | none =>
          -- this is the first SYN, if it is one
          cases hsyn : seg.header.syn with
          | false => simp
          | true => simp
      | some s =>
          cases hsyn : seg.header.syn with
          | false => simpa using hp s hfirst
          | true =>
              simp only [Option.some_or, Option.some.injEq, if_true, true_implies,
                Option.mem_def, forall_eq']
              exact ⟨wrap_injective 1, fun heq => by rw [heq]⟩

theorem absoluteAck_le_step {h : ReceiverRun} (hc : h.Counted) (op : ReceiverOp) :
    h.absoluteAck ≤ (h.step op).absoluteAck := by
  cases op with
  | read len =>
      have hended : (h.step (.read len)).receiver.streamOut.inputEnded =
          h.receiver.streamOut.inputEnded := rfl
      rw [absoluteAck, absoluteAck, placed_read hc.valid, hended]
  | receive seg =>
      obtain ⟨more, hmore, hplaced⟩ := h.exists_placed_receive seg
      have hend : h.receiver.streamOut.inputEnded = true →
          (h.step (.receive seg)).receiver.streamOut.inputEnded = true := hmore.inputEnd
      rw [absoluteAck, absoluteAck, hplaced, List.length_append]
      by_cases hended : h.receiver.streamOut.inputEnded = true
      · rw [if_pos hended, if_pos (hend hended)]
        omega
      · rw [if_neg hended]
        omega

theorem Counted.ackno_absolute {h : ReceiverRun} (hc : h.Counted) (hp : h.Pinned)
    {s : WrappingInt32} (hs : h.firstSyn = some s) :
    h.receiver.ackno = some (wrap h.absoluteAck s) := by
  have hwritten := hc.written
  rw [(hp s hs).1, absoluteAck]
  congr 1
  apply wrap_congr
  omega

end ReceiverRun

/-- **The first SYN fixes the peer's initial sequence number**, in every run whose
later SYNs repeat its sequence number, and in no other: the acknowledgment number
stays relative to it, and its absolute value never moves backwards. -/
theorem isn_fixed_by_first_syn {capacity : Nat} {h : ReceiverRun}
    (hr : Run.Reach ReceiverRun.step ReceiverRun.SameSyn (ReceiverRun.start capacity) h) :
    h.Pinned ∧
      (∀ s, h.firstSyn = some s → h.receiver.ackno = some (wrap h.absoluteAck s)) ∧
      ∀ op, h.absoluteAck ≤ (h.step op).absoluteAck ∧ ((h.step op).Pinned ↔ h.SameSyn op) := by
  have hinv : h.Counted ∧ h.Pinned :=
    Run.Reach.invariant (P := fun h => h.Counted ∧ h.Pinned) hr
      ⟨ReceiverRun.counted_start capacity, by simp [ReceiverRun.Pinned, ReceiverRun.start]⟩
      fun h op hop hinv => ⟨hinv.1.step op, (hinv.1.pinned_step_iff hinv.2 op).mpr hop⟩
  obtain ⟨hc, hp⟩ := hinv
  exact ⟨hp, fun s hs => hc.ackno_absolute hp hs, fun op =>
    ⟨ReceiverRun.absoluteAck_le_step hc op, hc.pinned_step_iff hp op⟩⟩

/-- A SYN with two bytes, repeated, and a third byte. -/
def repeatedSyn (seqno : UInt32) : List ReceiverOp :=
  [.receive { header := { syn := true, seqno := ⟨7⟩ }, payload := [104, 105] }, .read 1,
    .receive { header := { syn := true, seqno := ⟨seqno⟩ } },
    .receive { header := { seqno := ⟨10⟩ }, payload := [33] }]

theorem isn_fixed_by_repeated_syn :
    (Run.exec ReceiverRun.step (ReceiverRun.start 8) (repeatedSyn 7)).receiver.ackno =
        some ⟨11⟩ ∧
      (Run.exec ReceiverRun.step (ReceiverRun.start 8) (repeatedSyn 7)).Pinned :=
  ⟨by decide +kernel, (isn_fixed_by_first_syn (Run.Reach.exec .start (by decide +kernel))).1⟩

/-- A second SYN with another sequence number moves the acknowledgment number. -/
theorem second_syn_moves_isn :
    ¬(Run.exec ReceiverRun.step (ReceiverRun.start 8) (repeatedSyn 5)).Pinned := by
  intro hp
  have hack := (hp ⟨7⟩ (by decide +kernel)).1
  revert hack
  decide +kernel

end Sponge

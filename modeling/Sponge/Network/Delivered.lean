import Sponge.Network.Integrity

/-!
# One side runs while the other waits

A run of the endpoint at one side, in which only segments of the other side arrive, is a
run of the whole network.  And once a stream has been taken out to its end, or has been
cut off by an error, that stays so.
-/

namespace Sponge

namespace StreamReassembler

/-- Nothing that is pushed brings an error, or takes it away. -/
theorem pushSubstring_error (r : StreamReassembler) (data : List Byte) (index : Nat) (eof : Bool) :
    (r.pushSubstring data index eof).outputStream.error = r.outputStream.error := by
  have hend : ∀ r : StreamReassembler,
      r.endIfReached.outputStream.error = r.outputStream.error := by
    intro r
    unfold endIfReached
    split
    · rfl
    · rfl
  have hcommit : ∀ (r : StreamReassembler) (nd : Node),
      (r.commit nd).outputStream.error = r.outputStream.error := by
    intro r nd
    unfold commit
    split
    · rw [hend]
      rfl
    · rfl
  unfold pushSubstring
  extract_lets maxIdx noted nd
  have hnoted : noted.outputStream.error = r.outputStream.error := by
    simp only [noted]
    split <;> rfl
  clear_value noted
  split
  · rw [hend]
    exact hnoted
  · rw [hcommit]
    exact hnoted

end StreamReassembler

theorem TCPReceiver.segmentReceived_error (r : TCPReceiver) (seg : TCPSegment) :
    (r.segmentReceived seg).streamOut.error = r.streamOut.error := by
  have hsyn : (r.noteSyn seg).streamOut.error = r.streamOut.error := by
    unfold TCPReceiver.noteSyn
    split <;> rfl
  unfold TCPReceiver.segmentReceived
  extract_lets noted start
  have hnoted : noted.streamOut.error = r.streamOut.error := hsyn
  clear_value start
  clear_value noted
  by_cases hopen : noted.recieveIsn = false
  · rw [if_pos hopen]
    exact hnoted
  rw [if_neg hopen]
  by_cases hout : start > noted.winRight ∨
      Word.add 64 start seg.lengthInSequenceSpace ≤ noted.streamOut.bytesWritten
  · rw [if_pos hout]
    exact hnoted
  · have hpush := StreamReassembler.pushSubstring_error noted.reassembler seg.payload start
      seg.header.fin
    rw [if_neg hout, TCPReceiver.streamOut, StreamReassembler.streamOut]
    exact hpush.trans hnoted

namespace Endpoint

variable {e : Endpoint} {op : ConnectionOp} {firsts : List TCPSegment} {n : Nat} {fin : Bool}

/-- The inbound stream is over: in error, or at its end. -/
def InboundOver (e : Endpoint) : Prop :=
  e.connection.receiver.streamOut.error = true ∨ e.connection.receiver.streamOut.eof = true

/-- An error of the inbound stream is there to stay. -/
theorem Sends.inbound_error_step (h : e.Sends firsts n fin)
    (herror : e.connection.receiver.streamOut.error = true) :
    (e.step op).connection.receiver.streamOut.error = true := by
  cases hdown : e.shutsDown op with
  | true =>
      rw [(shuts_of_shutsDown hdown).receiver]
      rfl
  | false =>
      rw [(runs_of_not_shutsDown h.drained hdown).receiver]
      cases op with
      | receive seg => exact (TCPReceiver.segmentReceived_error _ seg).trans herror
      | connect => exact herror
      | write data => exact herror
      | endInputStream => exact herror
      | tick ms => exact herror
      | read len => exact herror

theorem step_taken (e : Endpoint) (op : ConnectionOp) : e.taken <+: (e.step op).taken := by
  cases op with
  | read len => exact List.prefix_append _ _
  | connect => exact List.prefix_rfl
  | write data => exact List.prefix_rfl
  | endInputStream => exact List.prefix_rfl
  | tick ms => exact List.prefix_rfl
  | receive seg => exact List.prefix_rfl

/-- Nothing more is accepted after the end. -/
theorem accepted_of_ended (hended : e.ended = true) (hop : e.WritesBeforeEnd op) :
    (e.step op).accepted = e.accepted := by
  cases op with
  | write data => exact absurd (hended.symm.trans hop) (by simp)
  | connect => rfl
  | endInputStream => rfl
  | tick ms => rfl
  | read len => rfl
  | receive seg => rfl

/-- The operations of an endpoint to which only some segments arrive. -/
def Arriving (arrives : TCPSegment → Prop) (e : Endpoint) (op : ConnectionOp) : Prop :=
  e.WritesBeforeEnd op ∧ ∀ seg, op = .receive seg → arrives seg

end Endpoint

namespace Network

variable {net : Network} {side : Side}

/-! ## One side runs -/

/-- The operation of the network for one of the endpoint at this side. -/
theorem exists_step (net : Network) {cop : ConnectionOp}
    (hop : (net.endpoint side).Arriving
      (fun seg => seg ∈ (net.endpoint side.other).connection.segmentsOut) cop) :
    ∃ op, net.WritesBeforeEnd op ∧ net.step op = net.act side cop := by
  have hact : ∀ op, net.request op = some (side, cop) → net.step op = net.act side cop := by
    intro op hreq
    unfold step
    rw [hreq]
  cases cop with
  | receive seg =>
      obtain ⟨i, hi⟩ := List.getElem?_of_mem (hop.2 seg rfl)
      exact ⟨.deliver side i, trivial, hact _ (by simp [request, hi])⟩
  | connect => exact ⟨.connect side, trivial, hact _ rfl⟩
  | write data => exact ⟨.write side data, hop.1, hact _ rfl⟩
  | endInputStream => exact ⟨.endInputStream side, trivial, hact _ rfl⟩
  | tick ms => exact ⟨.tick side ms, trivial, hact _ rfl⟩
  | read len => exact ⟨.read side len, trivial, hact _ rfl⟩

/-- A run of the endpoint at one side is a run of the network. -/
theorem reach_of_side {arrives : TCPSegment → Prop} {e : Endpoint}
    (hr : Run.Reach Endpoint.step (Endpoint.Arriving arrives) (net.endpoint side) e)
    (harrives : ∀ seg, arrives seg →
      seg ∈ (net.endpoint side.other).connection.segmentsOut) :
    ∃ net', Run.Reach step WritesBeforeEnd net net' ∧ net'.endpoint side = e ∧
      net'.endpoint side.other = net.endpoint side.other := by
  induction hr with
  | start => exact ⟨net, .start, rfl, rfl⟩
  | @next s cop _ hop ih =>
      obtain ⟨net', hreach, rfl, hother⟩ := ih
      have hadmitted : (net'.endpoint side).Arriving
          (fun seg => seg ∈ (net'.endpoint side.other).connection.segmentsOut) cop :=
        ⟨hop.1, fun seg heq => by
          rw [hother]
          exact harrives seg (hop.2 seg heq)⟩
      obtain ⟨op, hwrites, hstep⟩ := net'.exists_step hadmitted
      refine ⟨net'.step op, .next op hreach hwrites, ?_, ?_⟩
      · rw [hstep, act_endpoint_self]
      · rw [hstep, act_endpoint_other, hother]

/-! ## What has been taken out -/

/-- The stream to this side has been taken out to its end, or has been cut off. -/
def Delivered (net : Network) (side : Side) : Prop :=
  (net.endpoint side).connection.receiver.streamOut.error = true ∨
    (net.endpoint side.other).ended = true ∧
      (net.endpoint side).taken = (net.endpoint side.other).accepted

/-- What has been taken out is a prefix of what the other side has written. -/
theorem Joined.taken_isPrefix (h : net.Joined) (side : Side) :
    (net.endpoint side).taken <+: (net.endpoint side.other).accepted := by
  have hdir := h side.other
  rw [Side.other_other] at hdir
  have hreceived := hdir.received_eq
  exact (List.prefix_append _ _).trans (hreceived ▸ List.take_prefix _ _)

/-- Where the inbound stream is over, it has been taken out to its end. -/
theorem Joined.delivered (h : net.Joined) (hover : (net.endpoint side).InboundOver) :
    net.Delivered side := by
  rcases hover with herror | heof
  · exact Or.inl herror
  have hdir := h side.other
  rw [Side.other_other] at hdir
  obtain ⟨hempty, hend⟩ : (net.endpoint side).connection.receiver.streamOut.buffer = [] ∧
      (net.endpoint side).connection.receiver.streamOut.inputEnded = true := by
    have hboth := heof
    rw [ByteStream.eof, Bool.and_eq_true, beq_iff_eq] at hboth
    have hsize := hdir.inbound.tracks.rep.stream.size_eq
    exact ⟨List.length_eq_zero_iff.mp (hsize.symm.trans hboth.2), hboth.1⟩
  obtain ⟨hended, hall⟩ := hdir.inbound.at_end hend
  refine Or.inr ⟨hended, ?_⟩
  have hreceived := hdir.received_eq
  rw [Endpoint.received, hempty, List.append_nil] at hreceived
  rw [hreceived]
  exact List.take_of_length_le hall.ge

theorem Joined.delivered_step (h : net.Joined) {op : NetworkOp} (hop : net.WritesBeforeEnd op)
    (hnext : (net.step op).Joined) (hdel : net.Delivered side) : (net.step op).Delivered side := by
  rcases net.step_cases op with heq | ⟨there, cop, hreq, heq, -⟩
  · rw [heq]
    exact hdel
  have hwrites := hop.at_side hreq
  rcases hdel with herror | ⟨hended, htaken⟩
  · refine Or.inl ?_
    rw [heq]
    cases there.eq_or_eq_other side with
    | inl hhere =>
        subst hhere
        obtain ⟨firsts, n, fin, hsends⟩ := (h side).sends
        rw [act_endpoint_self]
        exact hsends.inbound_error_step herror
    | inr hother =>
        subst hother
        rw [act_endpoint_other]
        exact herror
  -- the other side writes nothing more, and what was taken out stays
  have hall : ((net.step op).endpoint side.other).ended = true ∧
      ((net.step op).endpoint side.other).accepted = (net.endpoint side.other).accepted := by
    rw [heq]
    cases there.eq_or_eq_other side.other with
    | inl hhere =>
        subst hhere
        rw [act_endpoint_self]
        exact ⟨(Endpoint.step_ended cop).mpr (Or.inl hended),
          Endpoint.accepted_of_ended hended hwrites⟩
    | inr hother =>
        rw [hother, act_endpoint_other, ← hother]
        exact ⟨hended, rfl⟩
  have hkeep : (net.endpoint side).taken <+: ((net.step op).endpoint side).taken := by
    rw [heq]
    cases there.eq_or_eq_other side with
    | inl hhere =>
        subst hhere
        rw [act_endpoint_self]
        exact Endpoint.step_taken _ cop
    | inr hother =>
        rw [hother, act_endpoint_other]
  refine Or.inr ⟨hall.1, ?_⟩
  have hle := hnext.taken_isPrefix side
  rw [hall.2] at hle ⊢
  rw [htaken] at hkeep
  exact hle.eq_of_length_le hkeep.length_le

theorem short_of_reach {net' : Network} (hr : Run.Reach step WritesBeforeEnd net net')
    (hshort : net'.Short) : net.Short := by
  induction hr with
  | start => exact hshort
  | next op _ _ ih => exact ih (short_of_step hshort)

/-- Along every run within the bound. -/
theorem delivered_of_reach {net' : Network} (hr : Run.Reach step WritesBeforeEnd net net')
    (h : net.Joined) (hshort : net'.Short) (hdel : net.Delivered side) :
    net'.Joined ∧ net'.Delivered side :=
  Run.Reach.invariant_of_bound (B := Short) (P := fun net => net.Joined ∧ net.Delivered side) hr
    (fun _ _ hb => short_of_step hb) ⟨h, hdel⟩
    (fun _ _ hop hb hp => ⟨hp.1.step hop (short_of_step hb),
      hp.1.delivered_step hop (hp.1.step hop (short_of_step hb)) hp.2⟩) hshort

end Network
end Sponge

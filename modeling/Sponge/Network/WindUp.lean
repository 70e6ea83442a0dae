import Sponge.Connection.CleanClose
import Sponge.Network.Delivered

/-!
# What is behind a connection that is over

A connection that is no longer active was reset, or both its streams are over and every
byte it has accepted has been acknowledged; and what has been acknowledged, the other side
has received.  (The FIN is another matter: with the window closed it may never be sent.)
-/

namespace Sponge

namespace Endpoint

variable {e : Endpoint} {op : ConnectionOp} {firsts : List TCPSegment} {n : Nat} {fin : Bool}

/-- The inbound stream is in error, or both streams are over and nothing is left to be
acknowledged. -/
def WoundUp (e : Endpoint) : Prop :=
  e.connection.receiver.streamOut.error = true ∨
    (e.ended = true ∧ e.accepted.length + 1 ≤ e.connection.sender.curAckIndex ∧
      e.connection.receiver.streamOut.inputEnded = true)

theorem WoundUp.step (h : e.WoundUp) (hsends : e.Sends firsts n fin)
    (hop : e.WritesBeforeEnd op) : (e.step op).WoundUp := by
  rcases h with herror | ⟨hended, hacked, hin⟩
  · exact Or.inl (hsends.inbound_error_step herror)
  have hended' : (e.step op).ended = true := (step_ended op).mpr (Or.inl hended)
  have haccepted := accepted_of_ended hended hop
  cases hdown : e.shutsDown op with
  | true =>
      left
      rw [(shuts_of_shutsDown hdown).receiver]
      rfl
  | false =>
      have hruns := runs_of_not_shutsDown hsends.drained hdown
      obtain ⟨pushed, firsts', n', fin', hemit⟩ := hsends.driven hop
      have hmono := hemit.cur_le
      rw [prepared_curAckIndex] at hmono
      have hin' : (e.inbound op).streamOut.inputEnded = true := by
        cases op with
        | receive seg => exact TCPReceiver.segmentReceived_keeps_end hin seg
        | read len => exact hin
        | connect => exact hin
        | write data => exact hin
        | endInputStream => exact hin
        | tick ms => exact hin
      refine Or.inr ⟨hended', ?_, ?_⟩
      · rw [haccepted, hruns.sender]
        exact hacked.trans hmono
      · rw [hruns.receiver]
        exact hin'

/-- Where `check_close` finds both streams over, nothing is left to be acknowledged. -/
theorem Sends.woundUp_of_bothEof (h : e.Sends firsts n fin)
    (hopened : e.ended = true → e.connection.sender.nextSeqno ≠ 0)
    (hboth : e.connection.streamBothEof = true) : e.WoundUp := by
  obtain ⟨hin, heof, hnone⟩ := (TCPConnection.streamBothEof_iff _).mp hboth
  obtain ⟨hinput, hall⟩ := h.sent.eof_iff.mp heof
  have hended : e.ended = true := h.ended_eq.symm.trans hinput
  have hnext := h.sent.next_eq (hopened hended)
  have hcur := h.sent.cur_le
  rw [h.sent.inFlight] at hnone
  refine Or.inr ⟨hended, ?_, hin⟩
  omega

/-- The invariant of a run. -/
structure Concludes (e : Endpoint) : Prop where
  sends : ∃ firsts n fin, e.Sends firsts n fin
  opened : e.ended = true → e.connection.sender.nextSeqno ≠ 0
  closed : e.connection.close = true → e.WoundUp

theorem concludes_start (cfg : TCPConfig) : (start cfg).Concludes where
  sends := ⟨[], 0, false, sends_start cfg⟩
  opened := by simp [start]
  closed := by simp [start, TCPConnection.new]

theorem Concludes.step (h : e.Concludes) (hop : e.WritesBeforeEnd op) :
    (e.step op).Concludes := by
  obtain ⟨firsts, n, fin, hsends⟩ := h.sends
  obtain ⟨firsts', n', fin', hsends'⟩ := hsends.step hop
  cases hdown : e.shutsDown op with
  | true =>
      have hshuts := shuts_of_shutsDown hdown
      have hended : (e.step op).ended = e.ended := by
        rcases shutsDown_cases hdown with ⟨ms, rfl, -⟩ | ⟨seg, rfl, -⟩
        · rfl
        · rfl
      refine ⟨⟨firsts', n', fin', hsends'⟩, ?_, fun _ => Or.inl ?_⟩
      · rw [hended, hshuts.sender]
        exact h.opened
      · rw [hshuts.receiver]
        rfl
  | false =>
      have hruns := runs_of_not_shutsDown hsends.drained hdown
      obtain ⟨pushed, firsts'', n'', fin'', hemit⟩ := hsends.driven hop
      have hmono := hemit.next_le
      rw [prepared_nextSeqno] at hmono
      have hopened : (e.step op).ended = true → (e.step op).connection.sender.nextSeqno ≠ 0 := by
        intro hended
        rw [hruns.sender]
        show (e.driven op).nextSeqno ≠ 0
        cases (step_ended op).mp hended with
        | inl hbefore =>
            have hne := h.opened hbefore
            omega
        -- ending the input sends at least the SYN
        | inr hnow =>
            subst hnow
            exact (hsends.prepared hop).sent.fillWindow_next_ne_zero (hsends.prepared hop).edge
      refine ⟨⟨firsts', n', fin', hsends'⟩, hopened, fun hclose => ?_⟩
      rcases hruns.close hclose with hold | hnow
      · exact (h.closed hold).step hsends hop
      · exact hsends'.woundUp_of_bothEof hopened hnow

end Endpoint

namespace Network

variable {cfg : Side → TCPConfig} {net : Network}

/-- A run of the network is a run of the endpoint at each side. -/
theorem Reached.endpoint (hr : Reached cfg net) (side : Side) :
    Run.Reach Endpoint.step Endpoint.WritesBeforeEnd (Endpoint.start (cfg side))
      (net.endpoint side) := by
  refine Run.Reach.invariant (P := fun net => Run.Reach Endpoint.step Endpoint.WritesBeforeEnd
    (Endpoint.start (cfg side)) (net.endpoint side)) hr .start ?_
  intro net op hop h
  rcases net.step_cases op with heq | ⟨here, cop, hreq, heq, -⟩
  · rw [heq]
    exact h
  · rw [heq]
    cases here.eq_or_eq_other side with
    | inl hhere =>
        subst hhere
        rw [act_endpoint_self]
        exact .next cop h (hop.at_side hreq)
    | inr hthere =>
        subst hthere
        rw [act_endpoint_other]
        exact h

theorem Reached.concludes (hr : Reached cfg net) (side : Side) :
    (net.endpoint side).Concludes :=
  Run.Reach.invariant (hr.endpoint side) (Endpoint.concludes_start (cfg side))
    fun _ _ hop h => h.step hop

/-- What has been acknowledged to the last byte, the other side has received to the last. -/
theorem Joined.received_of_acked (h : net.Joined) {side : Side}
    (hacked : (net.endpoint side).accepted.length + 1 ≤
      (net.endpoint side).connection.sender.curAckIndex) :
    (net.endpoint side.other).received = (net.endpoint side).accepted := by
  have hdir := h side
  have hlimit := hacked.trans hdir.acked
  rw [hdir.received_eq]
  refine List.take_of_length_le ?_
  by_cases hend : (net.endpoint side.other).connection.receiver.streamOut.inputEnded = true
  · exact (hdir.inbound.at_end hend).2.ge
  · have hwritten := hdir.inbound.bytesWritten_eq
    unfold TCPReceiver.ackLimit at hlimit
    rw [if_neg hend] at hlimit
    split at hlimit
    · omega
    · omega

end Network
end Sponge

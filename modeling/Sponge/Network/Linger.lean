import Sponge.Connection.CleanClose
import Sponge.Network.Integrity

/-!
# At most one endpoint skips the linger

An endpoint need not linger if the peer's stream ends while its own has not.  A FIN is
sent only when the stream behind it is at its end, and a stream at its end stays there.
So an endpoint that has seen the end of the peer's stream knows that the peer, from then
on, can no longer decide the same about it: of two endpoints at most one skips the
linger.
-/

namespace Sponge

namespace Endpoint

variable {e : Endpoint} {op : ConnectionOp} {firsts : List TCPSegment} {n : Nat} {fin : Bool}

/-- The linger is given up only when the inbound stream has ended and the outbound one,
before the step, has not. -/
theorem linger_step (h : (e.step op).connection.lingerAfterStreamsFinish = false) :
    e.connection.lingerAfterStreamsFinish = false ∨
      ((e.step op).connection.receiver.streamOut.inputEnded = true ∧
        e.connection.sender.stream.eof = false) := by
  have hclean : ∀ c : TCPConnection, (e.step op).connection = c.clean →
      c.lingerAfterStreamsFinish = e.connection.lingerAfterStreamsFinish →
      e.connection.lingerAfterStreamsFinish = false := by
    intro c hstep hsame
    rw [← hsame, ← TCPConnection.clean_linger, ← hstep]
    exact h
  cases op with
  | connect => exact Or.inl (hclean _ rfl rfl)
  | write data => exact Or.inl (hclean _ rfl rfl)
  | endInputStream => exact Or.inl (hclean _ rfl rfl)
  | read len => exact Or.inl h
  | tick ms =>
      cases hdown : e.shutsDown (.tick ms) with
      | true =>
          have hmany : e.connection.sender.consecutiveRetransmissions ≥
              TCPConfig.maxRetxAttempts := by
            simpa [shutsDown] using hdown
          have hstep : (e.step (.tick ms)).connection = TCPConnection.badShutdown
              { e.connection with nowTime := Word.add 32 e.connection.nowTime ms } true :=
            if_pos hmany
          rw [hstep] at h
          exact Or.inl h
      | false =>
          have hfew : ¬ e.connection.sender.consecutiveRetransmissions ≥
              TCPConfig.maxRetxAttempts := by
            simpa [shutsDown] using hdown
          exact Or.inl (hclean _ (if_neg hfew) rfl)
  | receive seg =>
      cases hrst : seg.header.rst with
      | true =>
          have hstep : (e.step (.receive seg)).connection = TCPConnection.badShutdown
              { e.connection with lastReciveTime := e.connection.nowTime } false := if_pos hrst
          rw [hstep] at h
          exact Or.inl h
      | false =>
          obtain ⟨r, hr⟩ := e.connection.exists_received hrst
          have hstep : (e.step (.receive seg)).connection = r.clean := hr.flushed
          rw [hstep, TCPConnection.clean_linger, hr.linger] at h
          rw [hstep, TCPConnection.clean_receiver, hr.receiver]
          -- both conjuncts of the test, or the flag was down before
          simpa [or_iff_not_imp_left] using h

/-- A stream at its end stays there. -/
theorem Sends.eof_step (h : e.Sends firsts n fin) (hop : e.WritesBeforeEnd op)
    (heof : e.connection.sender.stream.eof = true) :
    (e.step op).connection.sender.stream.eof = true := by
  cases hdown : e.shutsDown op with
  | true =>
      rw [(shuts_of_shutsDown hdown).sender]
      exact heof
  | false =>
      have hended : e.ended = true := by
        rw [← h.ended_eq]
        exact (h.sent.eof_iff.mp heof).1
      have hprepared : (e.prepared op).stream.eof = true := by
        cases op with
        | write data =>
            have hopen : e.ended = false := hop
            rw [hended] at hopen
            contradiction
        | endInputStream =>
            rw [ByteStream.eof, Bool.and_eq_true] at heof ⊢
            exact ⟨rfl, heof.2⟩
        | connect => exact heof
        | tick ms => exact heof
        | read len => exact heof
        | receive seg => exact heof
      obtain ⟨pushed, firsts', n', fin', hemit⟩ := h.driven hop
      obtain ⟨hinput, hall⟩ := (h.prepared hop).sent.eof_iff.mp hprepared
      rw [(runs_of_not_shutsDown h.drained hdown).sender]
      show (e.driven op).stream.eof = true
      have hle := hemit.carried_le
      have hbound := hemit.sent.shape.le_length
      rw [hemit.sent.eof_iff]
      exact ⟨hemit.inputEnd.trans hinput, by omega⟩

/-- Every FIN that has left the connection left it at the end of the stream. -/
theorem Sends.logged_step (h : e.Sends firsts n fin) (hop : e.WritesBeforeEnd op)
    (hlogged : ∀ seg ∈ e.connection.segmentsOut, seg.header.fin = true →
      e.connection.sender.stream.eof = true) :
    ∀ seg ∈ (e.step op).connection.segmentsOut, seg.header.fin = true →
      (e.step op).connection.sender.stream.eof = true := by
  intro seg hseg hfin
  cases hdown : e.shutsDown op with
  | true =>
      rw [(shuts_of_shutsDown hdown).segmentsOut] at hseg
      cases List.mem_append.mp hseg with
      | inl hold => exact h.eof_step hop (hlogged seg hold hfin)
      | inr hrst =>
          rw [(mem_rstOut hrst).2.2.1] at hfin
          contradiction
  | false =>
      have hruns := runs_of_not_shutsDown h.drained hdown
      rw [hruns.segmentsOut] at hseg
      cases List.mem_append.mp hseg with
      | inl hold => exact h.eof_step hop (hlogged seg hold hfin)
      | inr hnew =>
          obtain ⟨orig, horig, rfl⟩ := List.mem_map.mp hnew
          obtain ⟨pushed, firsts', n', fin', hemit⟩ := h.driven hop
          have hsends := (h.prepared hop).emit hemit (e.inbound op)
          rw [hemit.segmentsOut, (h.prepared hop).drained, List.nil_append] at horig
          rw [TCPConnection.stamp_fin] at hfin
          -- a segment with FIN is no empty one, so it is among those sent for the first time
          have hsent : fin' = true := by
            rcases hemit.kinds orig horig with hcopy | ⟨m, -, -, heq⟩
            · exact hemit.sent.shape.fin_iff.mpr ⟨orig, hcopy, hfin⟩
            · rw [heq] at hfin
              contradiction
          obtain ⟨hended, hall⟩ := hsends.fin_last hsent
          rw [hruns.sender]
          show (e.driven op).stream.eof = true
          rw [hemit.sent.eof_iff]
          exact ⟨hsends.ended_eq.trans hended, hall⟩

end Endpoint

/-- `b` learns of the end of `a`'s stream only when that stream is at its end, and `b`
gives up its linger only when it has learned of it. -/
structure InTurn (a b : Endpoint) : Prop where
  logged : ∀ seg ∈ a.connection.segmentsOut, seg.header.fin = true →
    a.connection.sender.stream.eof = true
  recorded : b.connection.receiver.reassembler.inputEndIdx ≠ 4294967295 →
    a.connection.sender.stream.eof = true
  ended : b.connection.receiver.streamOut.inputEnded = true →
    b.connection.receiver.reassembler.inputEndIdx ≠ 4294967295
  linger : b.connection.lingerAfterStreamsFinish = false →
    b.connection.receiver.streamOut.inputEnded = true

namespace InTurn

variable {a b : Endpoint} {gone : List SegNode} {op : ConnectionOp}

theorem start (cfg cfg' : TCPConfig) : InTurn (Endpoint.start cfg) (Endpoint.start cfg') where
  logged := by simp [Endpoint.start, TCPConnection.new]
  recorded := by simp [Endpoint.start, TCPConnection.new, TCPReceiver.new, StreamReassembler.new]
  ended := by
    simp [Endpoint.start, TCPConnection.new, TCPReceiver.new, StreamReassembler.new,
      TCPReceiver.streamOut, StreamReassembler.streamOut, ByteStream.inputEnded]
  linger := by simp [Endpoint.start, TCPConnection.new]

/-- Without its linger, `b` has been told of the end of `a`'s stream. -/
theorem eof_of_linger (h : InTurn a b) (hlinger : b.connection.lingerAfterStreamsFinish = false) :
    a.connection.sender.stream.eof = true :=
  h.recorded (h.ended (h.linger hlinger))

theorem step_sender (h : InTurn a b) (hdir : Direction a b gone) (hop : a.WritesBeforeEnd op) :
    InTurn (a.step op) b := by
  obtain ⟨firsts, n, fin, hsends⟩ := hdir.sends
  exact {
    logged := hsends.logged_step hop h.logged
    recorded := fun hidx => hsends.eof_step hop (h.recorded hidx)
    ended := h.ended
    linger := h.linger }

/-- What the receiver knows of the end after a step. -/
theorem recorded_step (h : InTurn a b) (hdir : Direction a b gone)
    (hdrained : b.connection.sender.segmentsOut = [])
    (hrecv : ∀ seg, op = .receive seg → seg ∈ a.connection.segmentsOut)
    (hlen : a.accepted.length < streamBound) :
    ((b.step op).connection.receiver.reassembler.inputEndIdx ≠ 4294967295 →
        a.connection.sender.stream.eof = true) ∧
      ((b.step op).connection.receiver.streamOut.inputEnded = true →
        (b.step op).connection.receiver.reassembler.inputEndIdx ≠ 4294967295) := by
  cases hdown : b.shutsDown op with
  | true =>
      rw [(Endpoint.shuts_of_shutsDown hdown).receiver]
      exact ⟨h.recorded, h.ended⟩
  | false =>
      rw [(Endpoint.runs_of_not_shutsDown hdrained hdown).receiver]
      cases op with
      | connect => exact ⟨h.recorded, h.ended⟩
      | write data => exact ⟨h.recorded, h.ended⟩
      | endInputStream => exact ⟨h.recorded, h.ended⟩
      | tick ms => exact ⟨h.recorded, h.ended⟩
      | read len => exact ⟨h.recorded, h.ended⟩
      | receive seg =>
          obtain ⟨firsts, n, fin, hsends⟩ := hdir.sends
          have hseg := hrecv seg rfl
          have hwire : OnWire a.connection.sender.isn a.accepted a.ended seg := by
            rcases hsends.wire seg hseg with hrst | hgood
            · have hno : seg.header.rst = false := hdown
              rw [hno] at hrst
              contradiction
            · exact hgood
          obtain ⟨hidx, hended⟩ := hdir.inbound.endIdx_received hwire hlen
          have hbound : streamBound = 2147483646 := rfl
          show ((b.connection.receiver.segmentReceived seg).reassembler.inputEndIdx ≠ _ → _) ∧
            ((b.connection.receiver.segmentReceived seg).streamOut.inputEnded = true →
              (b.connection.receiver.segmentReceived seg).reassembler.inputEndIdx ≠ _)
          refine ⟨?_, ?_⟩
          · intro hne
            rcases hidx with hsame | ⟨hfin, -⟩
            · rw [hsame] at hne
              exact h.recorded hne
            · exact h.logged seg hseg hfin
          · intro hnow
            rcases hended hnow with hbefore | hne
            · rcases hidx with hsame | ⟨-, hwhole⟩
              · rw [hsame]
                exact h.ended hbefore
              · rw [hwhole]
                omega
            · exact hne

theorem step_receiver (h : InTurn a b) (hdir : Direction a b gone)
    (hdrained : b.connection.sender.segmentsOut = [])
    (hrecv : ∀ seg, op = .receive seg → seg ∈ a.connection.segmentsOut)
    (hlen : a.accepted.length < streamBound) : InTurn a (b.step op) := by
  obtain ⟨hrecorded, hended⟩ := h.recorded_step hdir hdrained hrecv hlen
  obtain ⟨-, hgrows⟩ := hdir.inbound_receive hdrained hrecv hlen
  exact {
    logged := h.logged
    recorded := hrecorded
    ended := hended
    linger := by
      intro hlinger
      rcases Endpoint.linger_step hlinger with hbefore | ⟨hnow, -⟩
      · exact hgrows.ended (h.linger hbefore)
      · exact hnow }

end InTurn

namespace Network

/-- Both directions are in turn, and one of the endpoints will linger. -/
structure Lingering (net : Network) : Prop where
  joined : net.Joined
  inTurn : ∀ side, InTurn (net.endpoint side) (net.endpoint side.other)
  some_lingers : ¬∀ side, (net.endpoint side).connection.lingerAfterStreamsFinish = false

theorem lingering_start {cfg : Side → TCPConfig}
    (hcfg : ∀ side, 1 ≤ (cfg side).recvCapacity ∧ (cfg side).recvCapacity < 2 ^ 62) :
    (start cfg).Lingering where
  joined := joined_start hcfg
  inTurn := fun side => InTurn.start (cfg side) (cfg side.other)
  some_lingers := fun hall =>
    absurd (hall .left) (by simp [start, Endpoint.start, TCPConnection.new])

theorem Lingering.act {net : Network} (h : net.Lingering) (hshort : net.Short) {side : Side}
    {op : ConnectionOp} (hop : (net.endpoint side).WritesBeforeEnd op)
    (hrecv : ∀ seg, op = .receive seg →
      seg ∈ (net.endpoint side.other).connection.segmentsOut) : (net.act side op).Lingering where
  joined := h.joined.act hshort hop hrecv
  inTurn := by
    intro there
    cases side.eq_or_eq_other there with
    | inl hhere =>
        subst hhere
        rw [act_endpoint_self, act_endpoint_other]
        exact (h.inTurn there).step_sender (h.joined there) hop
    | inr hother =>
        subst hother
        obtain ⟨firsts, n, fin, hback⟩ := (h.joined side).sends
        have hturn := h.inTurn side.other
        have hdir := h.joined side.other
        rw [Side.other_other] at hturn hdir
        rw [Side.other_other, act_endpoint_self, act_endpoint_other]
        exact hturn.step_receiver hdir hback.drained hrecv (hshort side.other)
  some_lingers := by
    intro hall
    have hhere := hall side
    have hthere := hall side.other
    rw [act_endpoint_self] at hhere
    rw [act_endpoint_other] at hthere
    rcases Endpoint.linger_step hhere with hbefore | ⟨-, hopen⟩
    · refine h.some_lingers fun there => ?_
      cases side.eq_or_eq_other there with
      | inl heq => rw [heq, hbefore]
      | inr heq => rw [heq, hthere]
    · -- the other side skips the linger, so it knows that our stream was at its end
      rw [(h.inTurn side).eof_of_linger hthere] at hopen
      contradiction

theorem Lingering.step {net : Network} (h : net.Lingering) {op : NetworkOp}
    (hop : net.WritesBeforeEnd op) (hshort : net.Short) : (net.step op).Lingering := by
  rcases net.step_cases op with heq | ⟨side, cop, hreq, heq, hrecv⟩
  · rw [heq]
    exact h
  · rw [heq]
    exact h.act hshort (hop.at_side hreq) hrecv

end Network

/-- **At most one endpoint skips the linger.**  Whatever the network does, one of the two
endpoints stays prepared to linger. -/
theorem at_most_one_skips_linger {cfg : Side → TCPConfig}
    (hcfg : ∀ side, 1 ≤ (cfg side).recvCapacity ∧ (cfg side).recvCapacity < 2 ^ 62)
    {net : Network} (hr : Network.Reached cfg net)
    (hlen : ∀ side, (net.endpoint side).accepted.length < 2 ^ 31 - 2) :
    ¬((net.endpoint .left).connection.lingerAfterStreamsFinish = false ∧
      (net.endpoint .right).connection.lingerAfterStreamsFinish = false) := by
  have hinv : net.Lingering :=
    Run.Reach.invariant_of_bound (B := Network.Short) (P := Network.Lingering) hr
      (fun _ _ hb => Network.short_of_step hb) (Network.lingering_start hcfg)
      (fun _ _ hop hb h => h.step hop (Network.short_of_step hb)) hlen
  rintro ⟨hleft, hright⟩
  refine hinv.some_lingers fun side => ?_
  cases side with
  | left => exact hleft
  | right => exact hright

/-- The right side ends its stream first, and the left side sees it; then the left side
ends its own. -/
def rightEndsFirst : List NetworkOp :=
  [.connect .left, .deliver .right 0, .deliver .left 0, .deliver .right 1, .endInputStream .right,
    .deliver .left 1, .endInputStream .left, .deliver .right 3]

theorem at_most_one_skips_linger_right_ends_first :
    ((Run.exec Network.step (Network.start wrappingCfg) rightEndsFirst).endpoint .left
        ).connection.lingerAfterStreamsFinish = false ∧
      ((Run.exec Network.step (Network.start wrappingCfg) rightEndsFirst).endpoint .right
        ).connection.receiver.streamOut.inputEnded = true ∧
      ¬(((Run.exec Network.step (Network.start wrappingCfg) rightEndsFirst).endpoint .left
          ).connection.lingerAfterStreamsFinish = false ∧
        ((Run.exec Network.step (Network.start wrappingCfg) rightEndsFirst).endpoint .right
          ).connection.lingerAfterStreamsFinish = false) :=
  ⟨by decide +kernel, by decide +kernel,
    at_most_one_skips_linger (by intro side; cases side <;> decide)
      (Run.Reach.exec .start (by decide +kernel))
      (by intro side; cases side <;> decide +kernel)⟩

end Sponge

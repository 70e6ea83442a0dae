import Sponge.Connection.Transmission
import Sponge.EventLoop.Discipline
import Sponge.Network.Delivered
import Sponge.Socket.Pipe

/-!
# What the four rules do

A socket is served by an `Endpoint`: whatever a callback does to the connection is an
operation of the endpoint, the bytes the endpoint has accepted are those read from the
owner, the bytes it has taken out are those written for the owner, and the segments it has
emitted are those given to the adapter and those still in the queue.  The callbacks keep
this, and keep it too when they throw; and they throw only when a system call has failed, or
are killed by a write that nobody can read.
-/

namespace Sponge

open Program

/-- What is thrown when a system call has failed, or `poll` has reported an error. -/
def SystemFailure (e : Exception) : Prop :=
  (∃ attempt errno, e = .unix attempt errno) ∨
    e = .runtime ⟨"EventLoop: error on polled file descriptor"⟩

/-- What a socket relies on in its adapter: `inv sent a` says that the adapter has been given
`sent`.  Only segments that arrive are read, up to ports and checksum. -/
structure DatagramAdapter.Lawful {α : Type} (adapt : DatagramAdapter α)
    (inv : List TCPSegment → α → Prop) (arrives : TCPSegment → Prop) : Prop where
  read : ∀ sent a, inv sent a → Yields adapt.read a
    (fun r a' => inv sent a' ∧ (adapt.fd a').readCount = (adapt.fd a).readCount + 1 ∧
      ∀ seg, r = some seg → ∃ orig, arrives orig ∧ seg.core = orig.core)
    (fun e a' => SystemFailure e ∧ inv sent a')
  write : ∀ sent a seg, inv sent a → seg.Sized → Yields (adapt.write seg) a
    (fun _ => inv (sent ++ [seg])) (fun e a' => SystemFailure e ∧ inv (sent ++ [seg]) a')
  tick : ∀ sent a ms, inv sent a → Yields (adapt.tick ms) a (fun _ => inv sent)
    (fun e a' => SystemFailure e ∧ inv sent a')

/-- The descriptor of the adapter is never at its end, and never closed. -/
def DatagramAdapter.StaysOpen {α : Type} (adapt : DatagramAdapter α)
    (inv : List TCPSegment → α → Prop) : Prop :=
  ∀ sent a, inv sent a → (adapt.fd a).eof = false ∧ (adapt.fd a).closed = false

namespace Endpoint

/-- What runs keep of the sending half. -/
def Sound (e : Endpoint) : Prop :=
  e.EmitsSized ∧ ∃ firsts n fin, e.Sends firsts n fin

theorem Sound.of_reach {arrives : TCPSegment → Prop} {e₀ e : Endpoint} (h : e₀.Sound)
    (hr : Run.Reach step (Arriving arrives) e₀ e) : e.Sound := by
  refine Run.Reach.invariant (P := Sound) hr h ?_
  rintro s op ⟨hop, -⟩ ⟨hsized, firsts, n, fin, hsends⟩
  exact ⟨hsized.step hsends hop, hsends.step hop⟩

/-- What has been emitted stays on record. -/
theorem Sound.emitted_step {e : Endpoint} (h : e.Sound) {op : ConnectionOp} {seg : TCPSegment}
    (hseg : seg ∈ e.connection.segmentsOut) : seg ∈ (e.step op).connection.segmentsOut := by
  obtain ⟨-, firsts, n, fin, hsends⟩ := h
  cases hdown : e.shutsDown op with
  | true =>
      rw [(shuts_of_shutsDown hdown).segmentsOut]
      exact List.mem_append_left _ hseg
  | false =>
      rw [(runs_of_not_shutsDown hsends.drained hdown).segmentsOut]
      exact List.mem_append_left _ hseg

theorem Sound.emitted_of_reach {arrives : TCPSegment → Prop} {e₀ e : Endpoint} (h : e₀.Sound)
    (hr : Run.Reach step (Arriving arrives) e₀ e) {seg : TCPSegment}
    (hseg : seg ∈ e₀.connection.segmentsOut) : seg ∈ e.connection.segmentsOut := by
  induction hr with
  | start => exact hseg
  | next op hr' _ ih => exact (h.of_reach hr').emitted_step ih

end Endpoint

/-- What runs of a network keep of both ends. -/
theorem Network.Reached.sound {cfg : Side → TCPConfig} {net : Network}
    (hr : Network.Reached cfg net) : ∀ side, (net.endpoint side).Sound := by
  refine Run.Reach.invariant (P := fun net => ∀ side, (net.endpoint side).Sound) hr ?_ ?_
  · intro side
    exact ⟨fun seg hseg => absurd hseg (by simp [Network.start, Endpoint.start,
      TCPConnection.new]), [], 0, false, Endpoint.sends_start (cfg side)⟩
  · intro net op hop h there
    rcases net.step_cases op with heq | ⟨side, cop, hreq, heq, -⟩
    · rw [heq]
      exact h there
    · rw [heq]
      cases side.eq_or_eq_other there with
      | inl hhere =>
          subst hhere
          obtain ⟨hsized, firsts, n, fin, hsends⟩ := h there
          have hwrites := hop.at_side hreq
          rw [Network.act_endpoint_self]
          exact ⟨hsized.step hsends hwrites, hsends.step hwrites⟩
      | inr hother =>
          subst hother
          rw [Network.act_endpoint_other]
          exact h side.other

namespace TCPSpongeSocket

open EventLoop

/-- The names of the four rules, in their order. -/
inductive RuleName where
  | segmentsIn
  | bytesIn
  | bytesOut
  | segmentsOut
deriving DecidableEq, Repr

def ruleNamed {α : Type} (adapt : DatagramAdapter α) : RuleName → Rule (TCPSpongeSocket α)
  | .segmentsIn => rule1 adapt
  | .bytesIn => rule2
  | .bytesOut => rule3
  | .segmentsOut => rule4 adapt

def ruleNames : List RuleName := [.segmentsIn, .bytesIn, .bytesOut, .segmentsOut]

theorem rules_eq {α : Type} (adapt : DatagramAdapter α) :
    rules adapt = ruleNames.map (ruleNamed adapt) := rfl

/-- The endpoint `e` is what has become of the connection and of the pipe; `sent` has been
taken from the queue. -/
structure Tracks {α : Type} (s : TCPSpongeSocket α) (e : Endpoint) (sent : List TCPSegment) :
    Prop where
  connection : e.connection = s.tcp.withSent sent
  accepted : e.accepted = s.threadData.file.consumed
  taken : e.taken = s.threadData.file.outbound
  ended : e.ended = s.outboundShutdown

/-- The owner will write nothing more, and all it has written has been read. -/
def Drained {α : Type} (s : TCPSpongeSocket α) : Prop :=
  s.threadData.file.inboundEnd = true ∧ s.threadData.file.inbound = []

/-- What was the case before: the endpoint, whether rule 3 had shut down the owner's stream and
whether `_tcp_main` had, and all the owner had written. -/
structure Before where
  endpoint : Endpoint
  shut : Bool
  left : Bool
  written : List Byte

section Served

variable {α : Type} {adapt : DatagramAdapter α} {inv : List TCPSegment → α → Prop}
  {arrives : TCPSegment → Prop} {b : Before}

/-- The socket is served by a run of the endpoint; `out` has been given to the adapter.  Rule 3
shuts down the owner's stream only when it had done so before, or the inbound stream was over
at some moment of the run. -/
structure Served (inv : List TCPSegment → α → Prop) (arrives : TCPSegment → Prop) (b : Before)
    (s : TCPSpongeSocket α) (e : Endpoint) (sent out : List TCPSegment) : Prop where
  reach : Run.Reach Endpoint.step (Endpoint.Arriving arrives) b.endpoint e
  tracks : s.Tracks e sent
  adapter : inv out s.datagramAdapter
  opened : s.threadData.closed = false
  drained : s.threadData.eof = true ∨ s.outboundShutdown = true → s.Drained
  written : s.threadData.file.consumed ++ s.threadData.file.inbound = b.written
  shut : s.threadData.file.outboundEnd = (s.inboundShutdown || b.left)
  closing : s.inboundShutdown = true → b.shut = true ∨
    ∃ e₁, Run.Reach Endpoint.step (Endpoint.Arriving arrives) b.endpoint e₁ ∧
      Run.Reach Endpoint.step (Endpoint.Arriving arrives) e₁ e ∧ e₁.InboundOver

/-- The state between callbacks. -/
def Serving (inv : List TCPSegment → α → Prop) (arrives : TCPSegment → Prop) (b : Before)
    (s : TCPSpongeSocket α) : Prop :=
  ∃ e sent, Served inv arrives b s e sent sent

/-- The ways to stop: a system call has failed, or a write to an owner who reads no more has
killed the process. -/
def Fatal (ex : Exception) (s : TCPSpongeSocket α) : Prop :=
  SystemFailure ex ∨ ex = .killed sigpipe ∧ s.threadData.file.Unread

/-- The state in which a callback has stopped: the adapter has been given nothing that was not
emitted. -/
def Stopped (inv : List TCPSegment → α → Prop) (arrives : TCPSegment → Prop) (b : Before)
    (ex : Exception) (s : TCPSpongeSocket α) : Prop :=
  Fatal ex s ∧ ∃ e sent out, Served inv arrives b s e sent out ∧
    ∀ seg ∈ out, seg ∈ e.connection.segmentsOut

theorem Served.stopped {s : TCPSpongeSocket α} {e : Endpoint} {sent : List TCPSegment}
    (h : Served inv arrives b s e sent sent) {ex : Exception} (hex : Fatal ex s) :
    Stopped inv arrives b ex s := by
  refine ⟨hex, e, sent, sent, h, fun seg hseg => ?_⟩
  rw [h.tracks.connection]
  exact List.mem_append_left _ hseg

/-- A socket that differs in nothing that is tracked. -/
theorem Served.congr {s s' : TCPSpongeSocket α} {e : Endpoint} {sent out out' : List TCPSegment}
    (h : Served inv arrives b s e sent out) (hadapter : inv out' s'.datagramAdapter)
    (hthread : s'.threadData = s.threadData) (htcp : s'.tcp = s.tcp)
    (hin : s'.inboundShutdown = s.inboundShutdown)
    (hout : s'.outboundShutdown = s.outboundShutdown) :
    Served inv arrives b s' e sent out' where
  reach := h.reach
  tracks := ⟨by rw [htcp]; exact h.tracks.connection, by rw [hthread]; exact h.tracks.accepted,
    by rw [hthread]; exact h.tracks.taken, by rw [hout]; exact h.tracks.ended⟩
  adapter := hadapter
  opened := by rw [hthread]; exact h.opened
  drained := by rw [Drained, hthread, hout]; exact h.drained
  written := by rw [hthread]; exact h.written
  shut := by rw [hin, hthread]; exact h.shut
  closing := by rw [hin]; exact h.closing

/-- An operation of the endpoint. -/
theorem Served.advance {s s' : TCPSpongeSocket α} {e : Endpoint} {sent out : List TCPSegment}
    (h : Served inv arrives b s e sent out) {op : ConnectionOp}
    (hop : e.Arriving arrives op) (htracks : s'.Tracks (e.step op) sent)
    (hadapter : s'.datagramAdapter = s.datagramAdapter)
    (hin : s'.inboundShutdown = s.inboundShutdown)
    (hend : s'.threadData.file.outboundEnd = s.threadData.file.outboundEnd)
    (hclosed : s'.threadData.closed = s.threadData.closed)
    (hwritten : s'.threadData.file.consumed ++ s'.threadData.file.inbound =
      s.threadData.file.consumed ++ s.threadData.file.inbound)
    (hdrained : s'.threadData.eof = true ∨ s'.outboundShutdown = true → s'.Drained) :
    Served inv arrives b s' (e.step op) sent out where
  reach := .next op h.reach hop
  tracks := htracks
  adapter := by rw [hadapter]; exact h.adapter
  opened := hclosed.trans h.opened
  drained := hdrained
  written := hwritten.trans h.written
  shut := by rw [hin, hend]; exact h.shut
  closing := by
    rw [hin]
    intro hclosed
    rcases h.closing hclosed with hbefore | ⟨e₁, hfirst, hlast, hover⟩
    · exact Or.inl hbefore
    · exact Or.inr ⟨e₁, hfirst, .next op hlast hop, hover⟩

/-- What the connection does in the socket, the endpoint does with what was taken from its
queue put back. -/
theorem Tracks.step {s : TCPSpongeSocket α} {e : Endpoint} {sent : List TCPSegment}
    (h : s.Tracks e sent) (op : ConnectionOp) :
    (e.step op).connection = (({ e with connection := s.tcp } : Endpoint).step op
      ).connection.withSent sent := by
  have hsplit : e = ({ e with connection := s.tcp } : Endpoint).withSent sent := by
    have hconnection := h.connection
    cases e
    simp only at hconnection
    rw [hconnection]
    rfl
  have hstep := Endpoint.step_withSent { e with connection := s.tcp } sent op
  rw [← hsplit] at hstep
  rw [hstep]
  rfl

/-! ## Rule 1 -/

theorem Served.readSegment {s : TCPSpongeSocket α} {e : Endpoint} {sent : List TCPSegment}
    (law : adapt.Lawful inv arrives) (h : Served inv arrives b s e sent sent) :
    Yields (readSegment adapt) s
      (fun _ s' => (∃ e', Served inv arrives b s' e' sent sent) ∧
        (adapt.fd s'.datagramAdapter).readCount =
          (adapt.fd s.datagramAdapter).readCount + 1 ∧
        s'.outboundShutdown = s.outboundShutdown ∧ s'.threadData = s.threadData)
      (Stopped inv arrives b) := by
  simp only [TCPSpongeSocket.readSegment, onAdapter, yields_bind, yields_zoom]
  refine (law.read sent s.datagramAdapter h.adapter).mono ?_ ?_
  case refine_2 =>
    rintro ex a' ⟨hex, ha'⟩
    have hstill : Served inv arrives b { s with datagramAdapter := a' } e sent sent :=
      h.congr ha' rfl rfl rfl rfl
    exact hstill.stopped (Or.inl hex)
  rintro r a' ⟨ha', hcount, hseg⟩
  have hidle : Served inv arrives b { s with datagramAdapter := a' } e sent sent :=
    h.congr ha' rfl rfl rfl rfl
  -- the flag for the debugging output is not tracked
  have hflag : ∀ (t : TCPSpongeSocket α) (e' : Endpoint),
      Served inv arrives b t e' sent sent → t.datagramAdapter = a' →
      t.outboundShutdown = s.outboundShutdown → t.threadData = s.threadData →
      Yields (modify (fun s : TCPSpongeSocket α =>
          if s.threadData.eof && s.tcp.bytesInFlight == 0 && !s.fullyAcked then
            { s with fullyAcked := true }
          else s) : EStateM Exception (TCPSpongeSocket α) PUnit) t
        (fun _ s' => (∃ e', Served inv arrives b s' e' sent sent) ∧
          (adapt.fd s'.datagramAdapter).readCount =
            (adapt.fd s.datagramAdapter).readCount + 1 ∧
          s'.outboundShutdown = s.outboundShutdown ∧ s'.threadData = s.threadData)
        (Stopped inv arrives b) := by
    intro t e' ht hadapter hshutdown hthread
    rw [yields_modify]
    split
    · refine ⟨⟨e', ht.congr ht.adapter rfl rfl rfl rfl⟩, ?_, hshutdown, hthread⟩
      show (adapt.fd t.datagramAdapter).readCount = _
      rw [hadapter, hcount]
    · refine ⟨⟨e', ht⟩, ?_, hshutdown, hthread⟩
      rw [hadapter, hcount]
  cases r with
  | none => exact hflag _ e hidle rfl rfl rfl
  | some seg =>
      obtain ⟨orig, harrives, hcore⟩ := hseg seg rfl
      simp only [onTcp]
      refine hflag _ (e.step (.receive orig)) ?_ rfl rfl rfl
      refine hidle.advance ⟨trivial, ?_⟩ ?_ rfl rfl rfl rfl rfl hidle.drained
      · rintro seg' heq
        rw [← ConnectionOp.receive.inj heq]
        exact harrives
      · rw [← Endpoint.step_core hcore]
        refine ⟨?_, h.tracks.accepted, h.tracks.taken, h.tracks.ended⟩
        exact h.tracks.step (.receive seg)

/-! ## Rule 2 -/

theorem Served.endOutbound {s : TCPSpongeSocket α} {e : Endpoint} {sent : List TCPSegment}
    (h : Served inv arrives b s e sent sent) (hdrained : s.Drained) :
    Served inv arrives b
      { s with tcp := s.tcp.endInputStream, outboundShutdown := true }
      (e.step .endInputStream) sent sent := by
  refine h.advance ⟨trivial, fun seg heq => by cases heq⟩ ?_ rfl rfl rfl rfl rfl fun _ => hdrained
  exact ⟨h.tracks.step .endInputStream, h.tracks.accepted, h.tracks.taken, rfl⟩

/-- What has been read fits: it was not asked for more than there was room for. -/
theorem accepted_of_length_le {tcp : TCPConnection} {data : List Byte}
    (h : data.length ≤ tcp.remainingOutboundCapacity) :
    tcp.sender.stream.accepted data = data ∧ (tcp.write data).2 = data.length := by
  have hfits := ByteStream.accepted_of_fits h
  refine ⟨hfits, ?_⟩
  show (tcp.sender.stream.write data).2 = data.length
  rw [ByteStream.write_count, hfits]

theorem Served.readPipe {s : TCPSpongeSocket α} {e : Endpoint} {sent : List TCPSegment}
    (h : Served inv arrives b s e sent sent) (hopen : s.outboundShutdown = false) :
    Yields readPipe s
      (fun _ s' => (∃ e', Served inv arrives b s' e' sent sent) ∧
        s'.threadData.readCount = s.threadData.readCount + 1)
      (fun ex s' => ex = .unix "read" eagain ∧ s' = s) := by
  simp only [TCPSpongeSocket.readPipe, onThreadData, yields_bind, yields_get, yields_zoom]
  refine (pipeRead_spec s.threadData s.tcp.remainingOutboundCapacity).mono ?_ ?_
  case refine_2 =>
    rintro ex fd' ⟨hex, rfl⟩
    exact ⟨hex, rfl⟩
  rintro data fd' hread
  obtain ⟨haccepted, hcount⟩ := accepted_of_length_le hread.length
  -- the flag is set by a read that finds nothing more
  have hdrained : fd'.eof = true → fd'.file.inboundEnd = true ∧ fd'.file.inbound = [] := by
    rw [hread.eof, Bool.or_eq_true, decide_eq_true_iff, hread.inboundEnd]
    intro heof
    have hbefore : s.Drained := by
      rcases heof with hold | ⟨hlimit, hnil⟩
      · exact h.drained (Or.inl hold)
      · exact hread.atEnd hlimit hnil
    have hsplit := hread.inbound
    rw [hbefore.2] at hsplit
    exact ⟨hbefore.1, (List.append_eq_nil_iff.mp hsplit.symm).2⟩
  have hno : ¬ (s.tcp.write data).2 ≠ data.length := not_not.mpr hcount
  simp only [onTcp, yields_modify, if_neg hno]
  have hwritten : Served inv arrives b
      { s with threadData := fd', tcp := (s.tcp.write data).1 } (e.step (.write data)) sent
      sent := by
    refine h.advance ⟨h.tracks.ended.trans hopen, fun seg heq => by cases heq⟩ ?_ rfl rfl
      hread.outboundEnd hread.closed (by rw [hread.consumed, hread.inbound, List.append_assoc]) ?_
    case refine_2 =>
      rintro (heof | hshut)
      · exact hdrained heof
      · exact absurd (hopen.symm.trans hshut) (by simp)
    refine ⟨h.tracks.step (.write data), ?_, ?_, h.tracks.ended⟩
    · show e.accepted ++ e.connection.sender.stream.accepted data = fd'.file.consumed
      rw [h.tracks.connection, hread.consumed, h.tracks.accepted]
      exact congrArg _ haccepted
    · rw [hread.outbound]
      exact h.tracks.taken
  simp only [yields_bind, yields_get, yields_ite, yields_pure]
  split
  · next heof =>
    simp only [TCPSpongeSocket.endOutbound, onTcp, yields_bind, yields_modify]
    exact ⟨⟨_, hwritten.endOutbound (hdrained heof)⟩, hread.readCount⟩
  · exact ⟨⟨_, hwritten⟩, hread.readCount⟩

/-! ## Rule 3 -/

theorem Served.writePipe {s : TCPSpongeSocket α} {e : Endpoint} {sent : List TCPSegment}
    (h : Served inv arrives b s e sent sent) :
    Yields writePipe s
      (fun _ s' => (∃ e', Served inv arrives b s' e' sent sent) ∧
        (s'.threadData.writeCount = s.threadData.writeCount + 1 ∨
          s'.threadData.writeCount = s.threadData.writeCount + 1 + 1))
      (Stopped inv arrives b) := by
  simp only [TCPSpongeSocket.writePipe, onThreadData, yields_bind, yields_get, yields_zoom]
  refine (pipeWrite_spec s.threadData _).mono ?_ ?_
  case refine_2 =>
    rintro ex fd' hun
    have hstill : Served inv arrives b { s with threadData := fd' } e sent sent := {
      reach := h.reach
      tracks := ⟨h.tracks.connection, h.tracks.accepted.trans hun.same.consumed.symm,
        h.tracks.taken.trans hun.outbound.symm, h.tracks.ended⟩
      adapter := h.adapter
      opened := hun.closed.trans h.opened
      drained := fun hend => by
        rw [hun.eof] at hend
        exact ⟨hun.same.inboundEnd.trans (h.drained hend).1,
          hun.same.inbound.trans (h.drained hend).2⟩
      written := by rw [hun.same.consumed, hun.same.inbound]; exact h.written
      shut := hun.same.outboundEnd.trans h.shut
      closing := h.closing }
    rcases hun.cause with ⟨errno, rfl⟩ | hkilled
    · exact hstill.stopped (Or.inl (Or.inl ⟨"writev", errno, rfl⟩))
    · exact hstill.stopped (Or.inr hkilled)
  rintro n fd' hwrite
  -- what was written is what is popped
  have hsize : n ≤ s.inboundStream.bufferSize := by
    refine le_trans hwrite.le ?_
    rw [ByteStream.peekOutput, List.length_take]
    exact le_trans (min_le_left _ _) (min_le_left _ _)
  have hbytes : (s.inboundStream.peekOutput (min 65536 s.inboundStream.bufferSize)).take n =
      (s.inboundStream.read n).2 := by
    have hn := hwrite.le
    rw [ByteStream.peekOutput, List.length_take] at hn
    have hread : (s.inboundStream.read n).2 =
        s.inboundStream.buffer.take (min s.inboundStream.size n) := rfl
    have hsmall : min s.inboundStream.size n = n := min_eq_right hsize
    rw [hread, hsmall, ByteStream.peekOutput, List.take_take, min_eq_left]
    exact le_trans hn (min_le_left _ _)
  have hread : Served inv arrives b
      { s with threadData := fd', tcp := s.tcp.readInbound n } (e.step (.read n)) sent sent := by
    refine h.advance ⟨trivial, fun seg heq => by cases heq⟩ ?_ rfl rfl hwrite.same.outboundEnd
      hwrite.closed (by rw [hwrite.same.consumed, hwrite.same.inbound]) ?_
    case refine_2 =>
      intro hend
      rw [hwrite.eof] at hend
      exact ⟨hwrite.same.inboundEnd.trans (h.drained hend).1,
        hwrite.same.inbound.trans (h.drained hend).2⟩
    refine ⟨h.tracks.step (.read n), ?_, ?_, h.tracks.ended⟩
    · exact h.tracks.accepted.trans hwrite.same.consumed.symm
    · show e.taken ++ (e.connection.receiver.reassembler.outputStream.read n).2 = fd'.file.outbound
      rw [h.tracks.connection, hwrite.outbound, hbytes, h.tracks.taken]
      rfl
  simp only [onTcp, yields_modify, yields_ite, yields_bind, yields_zoom, yields_pure]
  split
  · next hover =>
    rw [yields_shutdownWr]
    refine ⟨⟨_, ⟨hread.reach, ⟨hread.tracks.connection, hread.tracks.accepted,
      hread.tracks.taken, hread.tracks.ended⟩, hread.adapter, hread.opened, hread.drained,
      hread.written, rfl, fun _ => Or.inr ⟨_, hread.reach, .start, ?_⟩⟩⟩, Or.inr ?_⟩
    · rw [Endpoint.InboundOver, hread.tracks.connection]
      rw [Bool.or_eq_true] at hover
      exact hover.symm
    · show fd'.writeCount + 1 = _
      rw [hwrite.writeCount]
  · exact ⟨⟨_, hread⟩, Or.inl hwrite.writeCount⟩

/-! ## Rule 4 -/

theorem Served.writeSegments (law : adapt.Lawful inv arrives) (hb : b.endpoint.Sound)
    {pending : List TCPSegment} {s : TCPSpongeSocket α} {e : Endpoint} {sent : List TCPSegment}
    (h : Served inv arrives b s e sent sent) (hpending : s.tcp.segmentsOut = pending) :
    Yields (writeSegments adapt pending) s
      (fun _ s' => (∃ sent', Served inv arrives b s' e sent' sent') ∧
        s'.tcp.segmentsOut = [])
      (Stopped inv arrives b) := by
  induction pending generalizing s sent with
  | nil => exact ⟨⟨sent, h⟩, hpending⟩
  | cons seg rest ih =>
      have hall : ∀ seg', seg' ∈ sent ++ seg :: rest → seg' ∈ e.connection.segmentsOut := by
        intro seg' hmem
        rw [h.tracks.connection, TCPConnection.withSent_segmentsOut, hpending]
        exact hmem
      have hsized : seg.Sized := (hb.of_reach h.reach).1 seg (hall seg (by simp))
      simp only [TCPSpongeSocket.writeSegments, onAdapter, onTcp, yields_bind, yields_zoom,
        yields_modify]
      refine (law.write sent s.datagramAdapter seg h.adapter hsized).mono ?_ ?_
      · intro _ a' ha'
        have hpop : e.connection =
            TCPConnection.withSent { s.tcp with segmentsOut := rest } (sent ++ [seg]) :=
          h.tracks.connection.trans (TCPConnection.withSent_pop s.tcp sent hpending).symm
        have hnext : Served inv arrives b
            { s with datagramAdapter := a', tcp := { s.tcp with segmentsOut := rest } } e
            (sent ++ [seg]) (sent ++ [seg]) :=
          ⟨h.reach, ⟨hpop, h.tracks.accepted, h.tracks.taken, h.tracks.ended⟩, ha', h.opened,
            h.drained, h.written, h.shut, h.closing⟩
        exact ih hnext rfl
      · rintro ex a' ⟨hex, ha'⟩
        refine ⟨Or.inl hex, e, sent, sent ++ [seg], h.congr ha' rfl rfl rfl rfl,
          fun seg' hmem => ?_⟩
        refine hall seg' ?_
        rcases List.mem_append.mp hmem with hold | hnew
        · exact List.mem_append_left _ hold
        · rw [List.mem_singleton.mp hnew]
          simp

/-! ## The discipline -/

/-- What is noted of what `poll` is asked for a rule. -/
def Heeded : RuleName → PollFd → TCPSpongeSocket α → Prop
  | .segmentsIn, pollfd, s => pollfd.events = none → s.tcp.active = false
  | .bytesIn, pollfd, s => pollfd.fd = s.threadData.fd ∧
      (pollfd.events = none ∨ pollfd.events = some .In ∧ s.outboundShutdown = false)
  | .bytesOut, pollfd, s => pollfd.events = none → rule3.interest s = false
  | .segmentsOut, pollfd, s => pollfd.events = none → s.tcp.segmentsOut = []

/-- What a callback or a cancellation relies on.  If `firm`, only the rule for the owner's bytes
may be cancelled. -/
def Relies (firm : Prop) : RuleName → Report → TCPSpongeSocket α → Prop
  | .bytesIn, .ready, s => s.outboundShutdown = false
  | .bytesIn, .hungUp, s => s.Drained
  | _, .ready, _ => True
  | _, .hungUp, _ => ¬firm

theorem ne_add_one (n : UInt32) : n ≠ n + 1 := by
  intro h
  have hnat := congrArg UInt32.toNat h
  have hlt := n.toNat_lt
  rw [UInt32.toNat_add, UInt32.toNat_one] at hnat
  omega

theorem ne_add_two (n : UInt32) : n ≠ n + 1 + 1 := by
  intro h
  have hnat := congrArg UInt32.toNat h
  have hlt := n.toNat_lt
  rw [UInt32.toNat_add, UInt32.toNat_add, UInt32.toNat_one] at hnat
  omega

/-- The connection stays closed. -/
theorem endInputStream_inactive {tcp : TCPConnection} (h : tcp.active = false) :
    tcp.endInputStream.active = false := by
  have hclose : tcp.close = true := by simpa [TCPConnection.active] using h
  show (!TCPConnection.close (TCPConnection.clean _)) = false
  rw [TCPConnection.clean_close]
  simp [hclose]

theorem discipline {firm : Prop} (law : adapt.Lawful inv arrives)
    (hfirm : firm → adapt.StaysOpen inv) (hb : b.endpoint.Sound) :
    Discipline (ruleNamed adapt) (Serving inv arrives b) Heeded (Relies firm)
      (Stopped inv arrives b) ruleNames where
  interest := by
    intro i _ s _
    have hidle : ∀ rule : Rule (TCPSpongeSocket α),
        (asked rule s).events = none → rule.interest s = false := by
      intro rule hnone
      cases hint : rule.interest s with
      | true => simp [asked, hint] at hnone
      | false => rfl
    cases i with
    | segmentsIn => exact hidle _
    | bytesIn =>
        refine ⟨rfl, ?_⟩
        cases hint : (ruleNamed adapt .bytesIn).interest s with
        | true =>
            have hall : (s.tcp.active && !s.outboundShutdown &&
                decide (0 < s.tcp.remainingOutboundCapacity)) = true := hint
            simp only [Bool.and_eq_true, Bool.not_eq_true'] at hall
            exact Or.inr ⟨by simp [asked, hint]; rfl, hall.1.2⟩
        | false => exact Or.inl (by simp [asked, hint])
    | bytesOut => exact hidle _
    | segmentsOut =>
        intro hnone
        have hempty : (!s.tcp.segmentsOut.isEmpty) = false := hidle _ hnone
        exact List.isEmpty_iff.mp (by simpa using hempty)
  ended := by
    rintro i - s ⟨e, sent, h⟩ hend
    -- the adapter's descriptor ends only where rules may be cancelled
    have hadapter : (adapt.fd s.datagramAdapter).eof = true ∨
        (adapt.fd s.datagramAdapter).closed = true → ¬firm := by
      intro hgone hf
      obtain ⟨heof, hclosed⟩ := hfirm hf sent _ h.adapter
      simp [heof, hclosed] at hgone
    cases i with
    | bytesIn =>
        rcases hend with ⟨-, heof⟩ | hclosed
        · exact h.drained (Or.inl heof)
        · exact absurd (h.opened.symm.trans hclosed) (by simp)
    | segmentsIn => exact hadapter (hend.imp_left And.right)
    | bytesOut =>
        rcases hend with ⟨hdirection, -⟩ | hclosed
        · cases hdirection
        · exact absurd (h.opened.symm.trans hclosed) (by simp)
    | segmentsOut => exact hadapter (hend.imp_left And.right)
  cancel := by
    rintro i - s ⟨e, sent, h⟩ hrelies
    cases i with
    | segmentsIn => exact ⟨e, sent, h⟩
    | bytesIn => exact ⟨_, sent, h.endOutbound hrelies⟩
    | bytesOut => exact ⟨e, sent, h⟩
    | segmentsOut => exact ⟨e, sent, h⟩
  callback := by
    rintro i - s ⟨e, sent, h⟩ hrelies
    cases i with
    | segmentsIn =>
        refine (h.readSegment law).mono ?_ fun _ _ he => he
        rintro - s' ⟨⟨e', h'⟩, hcount, -⟩
        refine ⟨⟨e', sent, h'⟩, fun hsame => absurd ?_ (ne_add_one
          (adapt.fd s.datagramAdapter).readCount)⟩
        exact hsame.trans hcount
    | bytesIn =>
        refine (h.readPipe hrelies).mono ?_ ?_
        · rintro - s' ⟨⟨e', h'⟩, hcount⟩
          refine ⟨⟨e', sent, h'⟩, fun hsame => absurd ?_ (ne_add_one s.threadData.readCount)⟩
          exact hsame.trans hcount
        · rintro ex s' ⟨rfl, rfl⟩
          exact h.stopped (Or.inl (Or.inl ⟨_, _, rfl⟩))
    | bytesOut =>
        refine h.writePipe.mono ?_ fun _ _ he => he
        rintro - s' ⟨⟨e', h'⟩, hcount⟩
        refine ⟨⟨e', sent, h'⟩, fun hsame => ?_⟩
        rcases hcount with hone | htwo
        · exact absurd (hsame.trans hone) (ne_add_one _)
        · exact absurd (hsame.trans htwo) (ne_add_two _)
    | segmentsOut =>
        refine (h.writeSegments law hb rfl).mono ?_ fun _ _ he => he
        rintro - s' ⟨⟨sent', h'⟩, hempty⟩
        refine ⟨⟨e, sent', h'⟩, fun _ => ?_⟩
        show (!s'.tcp.segmentsOut.isEmpty) = false
        rw [hempty]
        rfl
  apart := by
    have hquiet : ∀ {i j : RuleName}, (ruleNamed adapt j).cancel = pure () →
        (∀ report (s s' : TCPSpongeSocket α), Relies firm j report s → Relies firm j report s') →
        Leaves (ruleNamed adapt) (Serving inv arrives b) Heeded (Relies firm) i j := by
      intro i j hcancel hrelies
      refine ⟨?_, ?_, ?_⟩
      · intro s pollfd _ _ hnoted
        rw [hcancel]
        exact hnoted
      · intro s report _ _ hguard
        unfold Yields
        cases (ruleNamed adapt i).cancel.run s with
        | ok a s' => exact hrelies report s s' hguard
        | error ex s' => trivial
      · intro s report _ _ hguard
        unfold Yields
        cases (ruleNamed adapt i).callback.run s with
        | ok a s' => exact hrelies report s s' hguard
        | error ex s' => trivial
    -- what arrives leaves the owner's half alone
    have hfirst : Leaves (ruleNamed adapt) (Serving inv arrives b) Heeded (Relies firm)
        .segmentsIn .bytesIn := by
      refine ⟨?_, ?_, ?_⟩
      · intro s pollfd _ _ hnoted hnone
        exact endInputStream_inactive (hnoted hnone)
      · exact fun s report _ _ hrelies => hrelies
      · rintro s report ⟨e, sent, h⟩ - hrelies
        refine (h.readSegment law).mono ?_ fun _ _ _ => trivial
        rintro - s' ⟨-, -, hsame, hthread⟩
        cases report with
        | ready => exact hsame.trans hrelies
        | hungUp =>
            show s'.Drained
            rw [Drained, hthread]
            exact hrelies
    simp only [ruleNames, List.pairwise_cons, List.mem_cons, List.not_mem_nil, or_false,
      forall_eq_or_imp, forall_eq, List.Pairwise.nil, and_true, IsEmpty.forall_iff, implies_true]
    have hidle : ∀ {i : RuleName}, Leaves (ruleNamed adapt) (Serving inv arrives b) Heeded
        (Relies firm) i .bytesOut := hquiet rfl fun report _ _ hguard => by
      cases report <;> exact hguard
    have hlast : ∀ {i : RuleName}, Leaves (ruleNamed adapt) (Serving inv arrives b) Heeded
        (Relies firm) i .segmentsOut := hquiet rfl fun report _ _ hguard => by
      cases report <;> exact hguard
    exact ⟨⟨hfirst, hidle, hlast⟩, ⟨hidle, hlast⟩, hlast⟩

end Served

end TCPSpongeSocket
end Sponge

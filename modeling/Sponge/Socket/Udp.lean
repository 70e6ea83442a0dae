import Sponge.Adapter.Link
import Sponge.Adapter.Device
import Sponge.Socket.Pair

/-!
# UDP sockets as a medium

A datagram reaches the other side if it is addressed there, at any time and any number of
times; others come from strangers.  The ports are those of the addresses, and the checksum
goes without a pseudo-header.
-/

namespace Sponge

open Program

/-- The address of this side. -/
def Link.address (link : Link) (side : Side) : Address :=
  .ipv4 (link.numeric side) (link.port side)

/-- A segment, up to ports and checksum, in the payload of a datagram. -/
def TCPSegment.InPayload (orig : TCPSegment) (payload : Buffer) : Prop :=
  ∃ seg, TCPSegment.parse {} payload 0 = (.noError, seg) ∧ seg.core = orig.core

/-- What a datagram to this side may be. -/
structure Link.MayReach (link : Link) (side : Side) (arrives : TCPSegment → Prop)
    (datagram : Address × Buffer) : Prop where
  short : datagram.2.length ≤ 65535
  known : datagram.1 = link.address side.other → ∃ orig, arrives orig ∧ orig.InPayload datagram.2
  stranger : datagram.1 ≠ link.address side.other → link.listens side = true →
    ∀ seg, TCPSegment.parse {} datagram.2 0 = (.noError, seg) → seg.header.syn = true →
      seg.header.rst = true

theorem Link.MayReach.mono {link : Link} {side : Side} {arrives arrives' : TCPSegment → Prop}
    {datagram : Address × Buffer} (hmore : ∀ seg, arrives seg → arrives' seg)
    (h : link.MayReach side arrives datagram) : link.MayReach side arrives' datagram where
  short := h.short
  known := fun haddress => by
    obtain ⟨orig, horig, hin⟩ := h.known haddress
    exact ⟨orig, hmore orig horig, hin⟩
  stranger := h.stranger

namespace UDPSocket

theorem recv_spec (fd : FileDescriptor DatagramQueue)
    (hshort : ∀ datagram ∈ fd.file.inbox, datagram.2.length ≤ 65535) :
    Yields recv fd
      (fun datagram fd' => fd.file.inbox = datagram :: fd'.file.inbox ∧
        fd'.file.outbox = fd.file.outbox ∧ fd'.readCount = fd.readCount + 1 ∧
        fd'.eof = fd.eof ∧ fd'.closed = fd.closed)
      (fun e fd' => e = .unix "recvfrom" eagain ∧ fd' = fd) := by
  rw [recv, yields_bind]
  cases hinbox : fd.file.inbox with
  | nil =>
      have hcall : recvfrom fd.file = (.fails eagain, fd.file) := by rw [recvfrom, hinbox]
      rw [FileDescriptor.yields_sys_of_fails hcall]
      exact ⟨rfl, rfl⟩
  | cons datagram rest =>
      have hlength := hshort datagram (by rw [hinbox]; exact List.mem_cons_self)
      have hcall : recvfrom fd.file = (.returns datagram, { fd.file with inbox := rest }) := by
        rw [recvfrom, hinbox]
      have hmtu : mtu = 65536 := rfl
      have hnot : ¬datagram.2.length > mtu := by omega
      rw [FileDescriptor.yields_sys_of_returns hcall]
      simp only [FileDescriptor.registerRead, if_neg hnot, yields_bind, yields_pure, yields_modify]
      exact ⟨trivial, trivial, trivial, trivial, trivial⟩

theorem sendto_spec (fd : FileDescriptor DatagramQueue) (destination : Address)
    (payload : BufferViewList) :
    Yields (sendto destination payload) fd
      (fun _ fd' => fd'.file.outbox = fd.file.outbox ++ [(destination, payload.bytes)] ∧
        fd'.file.inbox = fd.file.inbox ∧ fd'.eof = fd.eof ∧ fd'.closed = fd.closed)
      (fun e fd' => (∃ errno, e = .unix "sendmsg" errno) ∧ fd'.file.outbox = fd.file.outbox ∧
        fd'.file.inbox = fd.file.inbox ∧ fd'.eof = fd.eof ∧ fd'.closed = fd.closed) := by
  rw [sendto, yields_bind]
  cases hrefusal : fd.file.refusals.head?.join with
  | some errno =>
      have hcall : sendmsg destination payload fd.file =
          (.fails errno, { fd.file with refusals := fd.file.refusals.tail }) := by
        rw [sendmsg, hrefusal]
      rw [FileDescriptor.yields_sys_of_fails hcall]
      exact ⟨⟨errno, rfl⟩, rfl, rfl, rfl, rfl⟩
  | none =>
      have hcall : sendmsg destination payload fd.file = (.returns payload.size,
          { fd.file with
            outbox := fd.file.outbox ++ [(destination, payload.bytes)]
            refusals := fd.file.refusals.tail }) := by
        rw [sendmsg, hrefusal]
      rw [FileDescriptor.yields_sys_of_returns hcall]
      simp only [FileDescriptor.registerWrite, if_neg (not_not.mpr (rfl : payload.size = _)),
        yields_modify]
      exact ⟨trivial, trivial, trivial, trivial⟩

end UDPSocket

namespace TCPOverUDPSocketAdapter

/-- What the adapter at this side keeps once it has been given `sent`.  Of its own address only
the port is of use to it. -/
structure Keeps (link : Link) (side : Side) (arrives : TCPSegment → Prop)
    (sent : List TCPSegment) (a : TCPOverUDPSocketAdapter) : Prop where
  source : ∃ numeric, a.config.source = .ipv4 numeric (link.port side)
  destination : (a.listening = false ∧ a.config.destination = link.address side.other) ∨
    (a.listening = true ∧ link.listens side = true ∧ a.config.destination = .ipv4 0 0)
  inbox : ∀ datagram ∈ a.sock.file.inbox, link.MayReach side arrives datagram
  outbox : ∀ datagram ∈ a.sock.file.outbox, datagram.2.length ≤ 65535 ∧
    (datagram.1 = link.address side.other → ∃ seg ∈ sent, seg.InPayload datagram.2)
  opened : a.sock.eof = false ∧ a.sock.closed = false

variable {lib : AddressLibrary} {link : Link} {side : Side} {arrives : TCPSegment → Prop}

theorem read_spec {sent : List TCPSegment} {a : TCPOverUDPSocketAdapter}
    (h : Keeps link side arrives sent a) :
    Yields read a
      (fun r a' => Keeps link side arrives sent a' ∧ a'.sock.readCount = a.sock.readCount + 1 ∧
        ∀ seg, r = some seg → ∃ orig, arrives orig ∧ seg.core = orig.core)
      (fun e a' => SystemFailure e ∧ Keeps link side arrives sent a') := by
  rw [read, onSock, yields_bind, yields_zoom]
  refine (UDPSocket.recv_spec a.sock fun datagram hd => (h.inbox datagram hd).short).mono ?_ ?_
  case refine_2 =>
    rintro e sock ⟨rfl, rfl⟩
    exact ⟨Or.inl ⟨_, _, rfl⟩, h⟩
  rintro datagram sock ⟨hinbox, houtbox, hcount, heof, hclosed⟩
  have hreach := h.inbox datagram (by rw [hinbox]; exact List.mem_cons_self)
  have hkept : Keeps link side arrives sent { a with sock := sock } := by
    refine ⟨h.source, h.destination, fun other hother => h.inbox other ?_, ?_,
      heof.trans h.opened.1, hclosed.trans h.opened.2⟩
    · rw [hinbox]
      exact List.mem_cons_of_mem _ hother
    · rw [houtbox]
      exact h.outbox
  have hnone : Keeps link side arrives sent { a with sock := sock } ∧
      sock.readCount = a.sock.readCount + 1 ∧
      ∀ seg, (none : Option TCPSegment) = some seg →
        ∃ orig, arrives orig ∧ seg.core = orig.core := ⟨hkept, hcount, by simp⟩
  cases hparse : TCPSegment.parse {} datagram.2 0 with
  | mk result seg =>
      simp only [yields_bind, yields_get, yields_ite, yields_pure, yields_modify]
      split
      · exact hnone
      next hfor =>
      split
      · exact hnone
      next hok =>
      rw [not_not.mp hok] at hparse
      -- a datagram of the other side
      have hknown : datagram.1 = link.address side.other →
          ∃ orig, arrives orig ∧ seg.core = orig.core := by
        intro haddress
        obtain ⟨orig, horig, seg', hparse', hcore⟩ := hreach.known haddress
        rw [← (Prod.mk.inj (hparse.symm.trans hparse')).2] at hcore
        exact ⟨orig, horig, hcore⟩
      rcases h.destination with ⟨hl, hdestination⟩ | ⟨hl, hlistens, -⟩
      · have haddress : datagram.1 = link.address side.other := by
          by_contra hother
          refine hfor ⟨by simp [hl], ?_⟩
          rw [hdestination]
          exact hother
        rw [if_neg (by simp [hl])]
        refine ⟨hkept, hcount, fun seg' hseg => ?_⟩
        rw [← Option.some.inj hseg]
        exact hknown haddress
      · rw [if_pos hl]
        split
        · next hsyn =>
          have haddress : datagram.1 = link.address side.other := by
            by_contra hother
            have hrst := hreach.stranger hother hlistens seg hparse hsyn.1
            exact absurd hrst hsyn.2
          refine ⟨⟨h.source, Or.inl ⟨rfl, haddress⟩, hkept.inbox, hkept.outbox, hkept.opened⟩,
            hcount, fun seg' hseg => ?_⟩
          rw [← Option.some.inj hseg]
          exact hknown haddress
        · exact hnone

theorem write_spec {sent : List TCPSegment}
    {a : TCPOverUDPSocketAdapter} {seg : TCPSegment} (h : Keeps link side arrives sent a)
    (hseg : seg.Sized) :
    Yields (write lib seg) a (fun _ => Keeps link side arrives (sent ++ [seg]))
      (fun e a' => SystemFailure e ∧ Keeps link side arrives (sent ++ [seg]) a') := by
  obtain ⟨numeric, hsource⟩ := h.source
  obtain ⟨numeric', dport, hdestination⟩ : ∃ numeric' dport,
      a.config.destination = .ipv4 numeric' dport := by
    rcases h.destination with ⟨-, hconnected⟩ | ⟨-, -, hdefault⟩
    · exact ⟨_, _, hconnected⟩
    · exact ⟨_, _, hdefault⟩
  have hdoff : seg.header.doff.toNat = 5 := by rw [hseg.doff]; rfl
  have hlength := hseg.length
  have hmax : TCPConfig.maxPayloadSize = 1000 := rfl
  have hout : (TCPOverIPv4Adapter.ported seg (link.port side) dport).Representable 0 := by
    refine ⟨⟨hdoff.ge, ?_⟩, ?_⟩
    · show seg.header.doff.toNat < 16
      omega
    · show 0 + 65280 * (4 * seg.header.doff.toNat + seg.payload.length) < 2 ^ 32
      omega
  obtain ⟨bytes, hbytes, hsize, hparse⟩ := TCPSegment.parse_serialize hout
  have hin : seg.InPayload bytes.concatenate := ⟨_, hparse {}, rfl⟩
  have hshort : bytes.concatenate.length ≤ 65535 := by
    have hsize' : bytes.size = 4 * seg.header.doff.toNat + seg.payload.length := hsize
    rw [BufferList.length_concatenate, hsize']
    omega
  have hmore : ∀ datagram ∈ a.sock.file.outbox, datagram.2.length ≤ 65535 ∧
      (datagram.1 = link.address side.other →
        ∃ seg' ∈ sent ++ [seg], seg'.InPayload datagram.2) := by
    intro datagram hd
    obtain ⟨hle, hsent⟩ := h.outbox datagram hd
    refine ⟨hle, fun haddress => ?_⟩
    obtain ⟨seg', hmem, hin'⟩ := hsent haddress
    exact ⟨seg', List.mem_append_left _ hmem, hin'⟩
  have hwrite : write lib seg = (do
      let a ← get
      let sport ← call (a.config.source.port lib)
      let dport ← call (a.config.destination.port lib)
      let seg := TCPOverIPv4Adapter.ported seg sport dport
      let bytes ← call (seg.serialize 0)
      onSock (UDPSocket.sendto a.config.destination (.ofBufferList bytes))) := rfl
  rw [hwrite]
  simp only [call, onSock, yields_bind, yields_get, yields_zoom, hsource, hdestination,
    Address.port_ipv4, Except.mapError, yields_call_ok, hbytes]
  refine (UDPSocket.sendto_spec a.sock _ (.ofBufferList bytes)).mono ?_ ?_
  · rintro - sock ⟨houtbox, hinbox, heof, hclosed⟩
    refine ⟨⟨numeric, hsource⟩, h.destination, ?_, ?_, heof.trans h.opened.1,
      hclosed.trans h.opened.2⟩
    · rw [hinbox]
      exact h.inbox
    · rw [houtbox]
      intro datagram hd
      cases List.mem_append.mp hd with
      | inl hold => exact hmore datagram hold
      | inr hlast =>
          rw [List.mem_singleton.mp hlast]
          exact ⟨hshort, fun _ => ⟨seg, List.mem_append_right _ List.mem_cons_self, hin⟩⟩
  · rintro e sock ⟨⟨errno, rfl⟩, houtbox, hinbox, heof, hclosed⟩
    refine ⟨Or.inl ⟨_, _, rfl⟩, ⟨numeric, hsource⟩, h.destination, ?_, ?_, heof.trans h.opened.1,
      hclosed.trans h.opened.2⟩
    · rw [hinbox]
      exact h.inbox
    · rw [houtbox]
      exact hmore

theorem staysOpen : (udpAdapter lib).StaysOpen (Keeps link side arrives) :=
  fun _ _ h => h.opened

theorem lawful : (udpAdapter lib).Lawful (Keeps link side arrives) arrives where
  read := fun _ _ h => read_spec h
  write := fun _ _ _ h hseg => write_spec h hseg
  tick := fun _ _ _ h => h

/-- What happens at a socket between the calls. -/
inductive Event where
  /-- the `i`-th datagram of the other side arrives, if it is addressed here -/
  | deliver (i : Nat)
  | arrive (datagram : Address × Buffer)
  /-- what the kernel is going to answer to the next writes -/
  | refuse (refusals : List (Option Nat))
deriving DecidableEq, Repr

def occur (link : Link) (side : Side) (event : Event) (other a : TCPOverUDPSocketAdapter) :
    TCPOverUDPSocketAdapter :=
  let queue := a.sock.file
  let queue' : DatagramQueue :=
    match event with
    | .deliver i =>
        let mine := other.sock.file.outbox[i]?.toList.filter fun datagram =>
          datagram.1 = link.address side
        { queue with
          inbox := queue.inbox ++ mine.map fun datagram => (link.address side.other, datagram.2) }
    | .arrive datagram => { queue with inbox := queue.inbox ++ [datagram] }
    | .refuse refusals => { queue with refusals := refusals }
  { a with sock := { a.sock with file := queue' } }

/-- The datagrams that are not delivered come from strangers. -/
def Admitted (link : Link) (side : Side) : Event → Prop
  | .arrive datagram => link.MayReach side (fun _ => False) datagram
  | .deliver _ => True
  | .refuse _ => True

theorem Keeps.occur {arrives' : TCPSegment → Prop} {sent sent' : List TCPSegment} {event : Event}
    {a other : TCPOverUDPSocketAdapter} (hevent : Admitted link side event)
    (hsent : ∀ seg ∈ sent', arrives seg) (hother : Keeps link side.other arrives' sent' other)
    (h : Keeps link side arrives sent a) :
    Keeps link side arrives sent (TCPOverUDPSocketAdapter.occur link side event other a) := by
  cases event with
  | refuse refusals => exact ⟨h.source, h.destination, h.inbox, h.outbox, h.opened⟩
  | arrive datagram =>
      refine ⟨h.source, h.destination, fun d hd => ?_, h.outbox, h.opened⟩
      cases List.mem_append.mp hd with
      | inl hold => exact h.inbox d hold
      | inr hnew =>
          rw [List.mem_singleton.mp hnew]
          exact hevent.mono fun _ => False.elim
  | deliver i =>
      refine ⟨h.source, h.destination, fun d hd => ?_, h.outbox, h.opened⟩
      cases List.mem_append.mp hd with
      | inl hold => exact h.inbox d hold
      | inr hnew =>
          obtain ⟨datagram, hmine, rfl⟩ := List.mem_map.mp hnew
          obtain ⟨hget, haddress⟩ := List.mem_filter.mp hmine
          have hout := hother.outbox datagram
            (List.mem_of_getElem? (Option.mem_toList.mp hget))
          rw [Side.other_other] at hout
          refine ⟨hout.1, fun _ => ?_, fun hno => absurd rfl hno⟩
          obtain ⟨seg, hmem, hin⟩ := hout.2 (of_decide_eq_true haddress)
          exact ⟨seg, hsent seg hmem, hin⟩

end TCPOverUDPSocketAdapter
end Sponge

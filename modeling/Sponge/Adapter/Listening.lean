import Sponge.Lib.Run
import Sponge.TCPOverIPv4Adapter

/-!
# Listening and filtering

A sequence of datagrams given to `unwrap_tcp_in_ip`.  An adapter that listens stays as it
is until a connection request comes; with that it becomes the adapter of the connection,
and from then on it only filters.
-/

namespace Sponge
namespace TCPOverIPv4Adapter

/-- The adapter after a call, whether it returned or threw. -/
def afterUnwrap (lib : AddressLibrary) (a : TCPOverIPv4Adapter) (d : InternetDatagram) :
    TCPOverIPv4Adapter :=
  match (unwrapTcpInIp lib d).run a with
  | .ok _ a' => a'
  | .error _ a' => a'

/-- What a call returned, if it did not throw. -/
def returned (lib : AddressLibrary) (a : TCPOverIPv4Adapter) (d : InternetDatagram) :
    Option (Option TCPSegment) :=
  match (unwrapTcpInIp lib d).run a with
  | .ok result _ => some result
  | .error _ _ => none

section Listening

variable {lib : AddressLibrary} {a : TCPOverIPv4Adapter} {d : InternetDatagram}

theorem Rejects.afterUnwrap_eq (h : Rejects lib a d) : afterUnwrap lib a d = a := by
  rcases h with h | ⟨e, h⟩ <;> rw [afterUnwrap, h]

theorem Rejects.returned_ne (h : Rejects lib a d) (seg : TCPSegment) :
    returned lib a d ≠ some (some seg) := by
  rcases h with h | ⟨e, h⟩ <;> rw [returned, h] <;> simp

/-- While listening exactly the connection requests are returned. -/
theorem returned_listening_iff (hlib : lib.Inverse) (hl : a.listening = true) (seg : TCPSegment) :
    returned lib a d = some (some seg) ↔ Opens lib a d seg := by
  rcases run_listening d hlib hl with ⟨seg', hopens, hrun⟩ | ⟨hnone, hrejects⟩
  · rw [returned, hrun]
    constructor
    · intro h
      rw [← Option.some.inj (Option.some.inj h)]
      exact hopens
    · intro h
      rw [hopens.carries.unique h.carries]
  · exact ⟨fun h => absurd h (hrejects.returned_ne seg), fun h => absurd h (hnone seg)⟩

theorem afterUnwrap_of_opens (hlib : lib.Inverse) (hl : a.listening = true) {seg : TCPSegment}
    (ho : Opens lib a d seg) : afterUnwrap lib a d = openedBy d seg := by
  rcases run_listening d hlib hl with ⟨seg', hopens, hrun⟩ | ⟨hnone, -⟩
  · rw [afterUnwrap, hrun, hopens.carries.unique ho.carries]
  · exact absurd ho (hnone seg)

/-- Without listening exactly the segments of the connection are returned. -/
theorem returned_connected_iff (hl : a.listening = false) (seg : TCPSegment) :
    returned lib a d = some (some seg) ↔ a.Matches d seg := by
  rcases run_connected lib d hl with ⟨seg', hmatches, hrun⟩ | ⟨hnone, hrejects⟩
  · rw [returned, hrun]
    constructor
    · intro h
      rw [← Option.some.inj (Option.some.inj h)]
      exact hmatches
    · intro h
      rw [hmatches.carries.unique h.carries]
  · exact ⟨fun h => absurd h (hrejects.returned_ne seg), fun h => absurd h (hnone seg)⟩

theorem afterUnwrap_connected (hl : a.listening = false) : afterUnwrap lib a d = a := by
  rcases run_connected lib d hl with ⟨seg, -, hrun⟩ | ⟨-, hrejects⟩
  · rw [afterUnwrap, hrun]
  · exact hrejects.afterUnwrap_eq

/-- A connected adapter is left as it is by every sequence of datagrams. -/
theorem exec_connected (hl : a.listening = false) (later : List InternetDatagram) :
    Run.exec (afterUnwrap lib) a later = a := by
  induction later with
  | nil => rfl
  | cons d later ih =>
      rw [Run.exec, List.foldl_cons, afterUnwrap_connected hl]
      exact ih

/-- A call that returns no segment, or throws, changes nothing. -/
theorem afterUnwrap_of_none (hlib : lib.Inverse)
    (h : ∀ seg, returned lib a d ≠ some (some seg)) : afterUnwrap lib a d = a := by
  cases hl : a.listening with
  | true =>
      rcases run_listening d hlib hl with ⟨seg, -, hrun⟩ | ⟨-, hrejects⟩
      · exact absurd (by rw [returned, hrun]) (h seg)
      · exact hrejects.afterUnwrap_eq
  | false => exact afterUnwrap_connected hl

/-- **Listening and filtering.**  At every point of every sequence of datagrams: a call
that returns nothing, or throws, leaves the adapter as it is; a listening adapter returns
exactly the connection requests, and becomes the adapter of the connection; an adapter
that does not listen never changes again, and returns exactly the segments of its
connection. -/
theorem listens_once_then_filters (hlib : lib.Inverse) (start : TCPOverIPv4Adapter)
    (before : List InternetDatagram) (d : InternetDatagram) :
    let a := Run.exec (afterUnwrap lib) start before
    (returned lib a d = some none ∨ returned lib a d = none → afterUnwrap lib a d = a) ∧
      (a.listening = true → ∀ seg, (returned lib a d = some (some seg) ↔ Opens lib a d seg) ∧
        (returned lib a d = some (some seg) → afterUnwrap lib a d = openedBy d seg)) ∧
      (a.listening = false → (∀ later, Run.exec (afterUnwrap lib) a later = a) ∧
        ∀ seg, returned lib a d = some (some seg) ↔ a.Matches d seg) := by
  intro a
  refine ⟨?_, ?_, ?_⟩
  · intro hnothing
    refine afterUnwrap_of_none hlib fun seg hseg => ?_
    rcases hnothing with hnone | hthrown
    · exact absurd (hnone.symm.trans hseg) (by simp)
    · exact absurd (hthrown.symm.trans hseg) (by simp)
  · intro hl seg
    have hiff := returned_listening_iff hlib hl (d := d) seg
    exact ⟨hiff, fun hseg => afterUnwrap_of_opens hlib hl (hiff.mp hseg)⟩
  · intro hl
    exact ⟨exec_connected hl, returned_connected_iff hl⟩

end Listening

/-! ## A connection to port 80 -/

/-- SYN from port 1234, with two bytes of payload. -/
def request : TCPSegment where
  header := { sport := 1234, dport := 80, seqno := ⟨7⟩, syn := true, cksum := 11852 }
  payload := [104, 105]

/-- The bytes of its header. -/
def requestBytes : Buffer :=
  [4, 210, 0, 80, 0, 0, 0, 7, 0, 0, 0, 0, 80, 2, 0, 0, 46, 76, 0, 0]

/-- The datagram around it, from 10.0.0.1 to 10.0.0.2, with its payload in these buffers. -/
def requestDatagram (buffers : List Buffer) : InternetDatagram where
  header := { src := 0x0a000001, dst := 0x0a000002, len := 42 }
  payload := ⟨buffers⟩

/-- A server on port 80 of all its addresses. -/
def server : TCPOverIPv4Adapter where
  config := { source := .ipv4 0 80 }
  listening := true

/-- The server's end of the connection. -/
def connection : TCPOverIPv4Adapter where
  config := { source := .ipv4 0x0a000002 80, destination := .ipv4 0x0a000001 1234 }

/-- The server is sent a datagram without a segment, and then the request. -/
theorem listens_once_then_filters_on_request :
    returned .dottedQuad (Run.exec (afterUnwrap .dottedQuad) server [requestDatagram [[]]])
        (requestDatagram [requestBytes ++ request.payload]) = some (some request) ∧
      afterUnwrap .dottedQuad (Run.exec (afterUnwrap .dottedQuad) server [requestDatagram [[]]])
        (requestDatagram [requestBytes ++ request.payload]) = connection := by
  have hreturned : returned .dottedQuad
      (Run.exec (afterUnwrap .dottedQuad) server [requestDatagram [[]]])
      (requestDatagram [requestBytes ++ request.payload]) = some (some request) := by
    decide +kernel
  have hlistening :
      (Run.exec (afterUnwrap .dottedQuad) server [requestDatagram [[]]]).listening = true := by
    decide +kernel
  have hall := listens_once_then_filters AddressLibrary.dottedQuad_inverse server
    [requestDatagram [[]]] (requestDatagram [requestBytes ++ request.payload])
  exact ⟨hreturned, (hall.2.1 hlistening request).2 hreturned⟩

/-- In two buffers, as `wrap_tcp_in_ip` leaves it, the segment is not returned by the
connection it belongs to: the call throws. -/
theorem segment_in_two_buffers_not_returned :
    connection.listening = false ∧
      Carries (requestDatagram [requestBytes, request.payload]) request ∧
      connection.config.source =
        .ipv4 (requestDatagram [requestBytes, request.payload]).header.dst request.header.dport ∧
      connection.config.destination =
        .ipv4 (requestDatagram [requestBytes, request.payload]).header.src request.header.sport ∧
      returned .dottedQuad connection (requestDatagram [requestBytes, request.payload]) = none := by
  decide +kernel

end TCPOverIPv4Adapter
end Sponge

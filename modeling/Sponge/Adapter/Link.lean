import Sponge.Adapter.RoundTrip
import Sponge.Connection.Transmission
import Sponge.Lib.Program
import Sponge.Network.System

/-!
# The datagrams between two adapters

Two adapters have each other's address and port, or listen for each other.  A datagram
that one of them wraps carries its segment to the other; a stranger's datagram is not
taken.  What an adapter reads is therefore a segment of the other side, whatever else
arrives.
-/

namespace Sponge

open Program

/-- The two ends of a link, and which of them listen. -/
structure Link where
  numeric : Side → UInt32
  port : Side → UInt16
  listens : Side → Bool

namespace Link

open TCPOverIPv4Adapter (Carries unwrapTcpInIp wrapTcpInIp ported wrappedHeader)

/-- The configuration of a connected adapter. -/
def config (link : Link) (side : Side) : FdAdapterConfig where
  source := .ipv4 (link.numeric side) (link.port side)
  destination := .ipv4 (link.numeric side.other) (link.port side.other)

/-- The adapter at this side: it is connected to the other side, or still listens on its
port. -/
def Holds (link : Link) (side : Side) (a : TCPOverIPv4Adapter) : Prop :=
  (a.listening = false ∧ a.config = link.config side) ∨
    (a.listening = true ∧ link.listens side = true ∧
      ∃ numeric, a.config = { source := .ipv4 numeric (link.port side) })

/-- The datagram carries the segment from the other side, up to ports and checksum. -/
structure Carried (link : Link) (side : Side) (orig : TCPSegment) (d : InternetDatagram) :
    Prop where
  src : d.header.src = link.numeric side.other
  dst : d.header.dst = link.numeric side
  segment : ∃ seg, Carries d seg ∧ seg.core = orig.core ∧
    seg.header.sport = link.port side.other ∧ seg.header.dport = link.port side

/-- A datagram to this port that is not from the other side; where this side listens, it is no
connection request. -/
def Stranger (link : Link) (side : Side) (d : InternetDatagram) : Prop :=
  ∀ seg, Carries d seg → seg.header.dport = link.port side →
    ¬(d.header.src = link.numeric side.other ∧ seg.header.sport = link.port side.other) ∧
      (link.listens side = true → seg.header.syn = true → seg.header.rst = true)

/-- What may arrive at this side. -/
def MayArrive (link : Link) (side : Side) (arrives : TCPSegment → Prop) (d : InternetDatagram) :
    Prop :=
  (∃ orig, arrives orig ∧ link.Carried side orig d) ∨ link.Stranger side d

variable {link : Link} {side : Side} {a : TCPOverIPv4Adapter} {d : InternetDatagram}
  {lib : AddressLibrary} {arrives : TCPSegment → Prop}

theorem MayArrive.mono {arrives' : TCPSegment → Prop} (hmore : ∀ seg, arrives seg → arrives' seg)
    (h : link.MayArrive side arrives d) : link.MayArrive side arrives' d := by
  rcases h with ⟨orig, horig, hcarried⟩ | hstranger
  · exact Or.inl ⟨orig, hmore orig horig, hcarried⟩
  · exact Or.inr hstranger

/-! ## Reading -/

/-- Nothing is thrown for a datagram in one buffer. -/
theorem not_throws (hlib : lib.Inverse) (hholds : link.Holds side a)
    (hcontiguous : d.payload.Contiguous) (e : RuntimeError) (a' : TCPOverIPv4Adapter) :
    (unwrapTcpInIp lib d).run a ≠ .error e a' := by
  have hbuffer := BufferList.toBuffer_of_contiguous hcontiguous
  have hsource : ∃ numeric port, a.config.source = .ipv4 numeric port := by
    rcases hholds with ⟨-, hconfig⟩ | ⟨-, -, numeric, hconfig⟩
    · exact ⟨_, _, by rw [hconfig]; rfl⟩
    · exact ⟨_, _, by rw [hconfig]⟩
  have hdestination : ∃ numeric port, a.config.destination = .ipv4 numeric port := by
    rcases hholds with ⟨-, hconfig⟩ | ⟨-, -, numeric, hconfig⟩
    · exact ⟨_, _, by rw [hconfig]; rfl⟩
    · exact ⟨_, _, by rw [hconfig]⟩
  obtain ⟨numeric, port, hsource⟩ := hsource
  obtain ⟨numeric', port', hdestination⟩ := hdestination
  have haddress : ∀ numeric port,
      lib.address (lib.inetNtoa numeric) port = .ok (.ipv4 numeric port) := hlib
  have hreturns : Yields (unwrapTcpInIp lib d) a (fun _ _ => True) (fun _ _ => False) := by
    simp [unwrapTcpInIp, TCPOverIPv4Adapter.call, hsource, hdestination, Address.ipv4Numeric,
      hbuffer, haddress]
  intro hrun
  exact (yields_of_error hrun).mp hreturns

theorem unwrap_spec (hlib : lib.Inverse) (hholds : link.Holds side a)
    (hcontiguous : d.payload.Contiguous) (hd : link.MayArrive side arrives d) :
    Yields (unwrapTcpInIp lib d) a
      (fun r a' => link.Holds side a' ∧
        ∀ seg, r = some seg → ∃ orig, arrives orig ∧ seg.core = orig.core)
      (fun _ _ => False) := by
  have hrejects : TCPOverIPv4Adapter.Rejects lib a d → Yields (unwrapTcpInIp lib d) a
      (fun r a' => link.Holds side a' ∧
        ∀ seg, r = some seg → ∃ orig, arrives orig ∧ seg.core = orig.core)
      (fun _ _ => False) := by
    rintro (hnone | ⟨e, herror⟩)
    · rw [yields_of_ok hnone]
      exact ⟨hholds, by simp⟩
    · exact absurd herror (not_throws hlib hholds hcontiguous e a)
  cases hl : a.listening with
  | false =>
      obtain hconfig : a.config = link.config side := by
        rcases hholds with ⟨-, hconfig⟩ | ⟨hl', -⟩
        · exact hconfig
        · exact absurd (hl.symm.trans hl') (by simp)
      rcases TCPOverIPv4Adapter.run_connected lib d hl with ⟨seg, hm, hrun⟩ | ⟨-, hno⟩
      case inr => exact hrejects hno
      rw [yields_of_ok hrun]
      refine ⟨hholds, ?_⟩
      rintro seg' hseg'
      obtain rfl := Option.some.inj hseg'
      have hsource := hm.source
      have hdestination := hm.destination
      rw [hconfig] at hsource hdestination
      obtain ⟨-, hdport⟩ := Address.ipv4.inj hsource
      obtain ⟨hsrc, hsport⟩ := Address.ipv4.inj hdestination
      rcases hd with ⟨orig, horig, hcarried⟩ | hstranger
      · obtain ⟨seg', hcarries, hcore, -⟩ := hcarried.segment
        rw [hcarries.unique hm.carries] at hcore
        exact ⟨orig, horig, hcore⟩
      · exact absurd ⟨hsrc.symm, hsport.symm⟩ (hstranger seg hm.carries hdport.symm).1
  | true =>
      obtain ⟨hlistens, numeric, hconfig⟩ : link.listens side = true ∧
          ∃ numeric, a.config = { source := .ipv4 numeric (link.port side) } := by
        rcases hholds with ⟨hl', -⟩ | ⟨-, hrest⟩
        · exact absurd (hl.symm.trans hl') (by simp)
        · exact hrest
      rcases TCPOverIPv4Adapter.run_listening d hlib hl with ⟨seg, hopens, hrun⟩ | ⟨-, hno⟩
      case inr => exact hrejects hno
      have hport := hopens.port
      rw [hconfig] at hport
      have hdport : link.port side = seg.header.dport := Except.ok.inj hport
      rw [yields_of_ok hrun]
      rcases hd with ⟨orig, horig, hcarried⟩ | hstranger
      · obtain ⟨seg', hcarries, hcore, hsport, -⟩ := hcarried.segment
        rw [hcarries.unique hopens.carries] at hcore hsport
        refine ⟨Or.inl ⟨rfl, ?_⟩, ?_⟩
        · rw [TCPOverIPv4Adapter.openedBy, hcarried.src, hcarried.dst, hsport, ← hdport]
          rfl
        · rintro seg'' hseg''
          rw [← Option.some.inj hseg'']
          exact ⟨orig, horig, hcore⟩
      · have hrst := (hstranger seg hopens.carries hdport.symm).2 hlistens hopens.syn
        exact absurd (hopens.rst.symm.trans hrst) (by simp)

/-! ## Writing -/

/-- A wrapped segment, as it is read back. -/
structure Wrapped (src dst : UInt32) (sport dport : UInt16) (seg : TCPSegment)
    (d : InternetDatagram) : Prop where
  src : d.header.src = src
  dst : d.header.dst = dst
  segment : ∃ out, Carries d out ∧ out.core = seg.core ∧ out.header.sport = sport ∧
    out.header.dport = dport

theorem exists_wrapped (lib : AddressLibrary) {src dst : UInt32} {sport dport : UInt16}
    (hsource : a.config.source = .ipv4 src sport)
    (hdestination : a.config.destination = .ipv4 dst dport) {seg : TCPSegment}
    (hseg : seg.Sized) :
    ∃ dgram bytes, wrapTcpInIp lib a seg = .ok (ported seg sport dport, dgram) ∧
      dgram.serialize = .ok bytes ∧ bytes.concatenate.length ≤ 65535 ∧
      ∀ old : InternetDatagram, ∃ d, old.parse bytes.concatenate = (.noError, d) ∧
        Wrapped src dst sport dport seg d := by
  have hdoff : seg.header.doff.toNat = 5 := by rw [hseg.doff]; rfl
  have hf : TCPOverIPv4Adapter.Fits seg := by
    have hlength := hseg.length
    have hmax : TCPConfig.maxPayloadSize = 1000 := rfl
    exact ⟨by omega, by omega, by omega⟩
  obtain ⟨payload, hserialize, hsize, hparse⟩ :=
    TCPSegment.parse_serialize (hf.representable sport dport (wrappedHeader src dst seg))
  have hpayloadsize : payload.size = 4 * seg.header.doff.toNat + seg.payload.length := hsize
  have hdgram : IPv4Datagram.Representable ⟨wrappedHeader src dst seg, payload⟩ :=
    hf.wrapped_representable src dst hpayloadsize
  obtain ⟨bytes, hbytes, hconcatenate⟩ := hdgram.serialize_eq
  refine ⟨_, bytes, TCPOverIPv4Adapter.wrapTcpInIp_eq hsource hdestination hserialize, hbytes,
    ?_, fun old => ?_⟩
  · have hheader : (IPv4Datagram.headerBytes (wrappedHeader src dst seg)).length = 20 :=
      IPv4Datagram.length_headerBytes le_rfl
    have hlength := hseg.length
    have hmax : TCPConfig.maxPayloadSize = 1000 := rfl
    rw [hconcatenate, List.length_append, hheader, BufferList.length_concatenate, hpayloadsize]
    omega
  obtain ⟨bytes', hbytes', hparsed⟩ := IPv4Datagram.parse_serialize hdgram old
  obtain rfl : bytes = bytes' := Except.ok.inj (hbytes.symm.trans hbytes')
  refine ⟨_, hparsed, rfl, rfl,
    (ported seg sport dport).segmentOut (wrappedHeader src dst seg).pseudoCksum, ⟨rfl, ?_⟩, rfl,
    rfl, rfl⟩
  have hone : (BufferList.ofBuffer payload.concatenate).concatenate = payload.concatenate := by
    simp [BufferList.ofBuffer, BufferList.concatenate]
  rw [hone, IPv4Datagram.pseudoCksum_headerOut]
  exact hparse {}

/-- What an adapter writes may arrive at the other side: from the connection, it carries the
segment; while listening, it is addressed to nobody. -/
theorem wrap_spec (lib : AddressLibrary) (hholds : link.Holds side a)
    (hport : link.port side.other ≠ 0) {seg : TCPSegment} (hseg : seg.Sized) :
    ∃ wrapped dgram bytes, wrapTcpInIp lib a seg = .ok (wrapped, dgram) ∧
      dgram.serialize = .ok bytes ∧ bytes.concatenate.length ≤ 65535 ∧
      ∀ old : InternetDatagram, ∃ d, old.parse bytes.concatenate = (.noError, d) ∧
        link.MayArrive side.other (fun orig => orig = seg) d := by
  rcases hholds with ⟨-, hconfig⟩ | ⟨-, -, numeric, hconfig⟩
  · obtain ⟨dgram, bytes, hwrap, hbytes, hlength, hparse⟩ :=
      exists_wrapped lib (by rw [hconfig]; rfl) (by rw [hconfig]; rfl) hseg
    refine ⟨_, dgram, bytes, hwrap, hbytes, hlength, fun old => ?_⟩
    obtain ⟨d, hd, hwrapped⟩ := hparse old
    obtain ⟨out, hcarries, hcore, hsport, hdport⟩ := hwrapped.segment
    refine ⟨d, hd, Or.inl ⟨seg, rfl, ?_, hwrapped.dst, out, hcarries, hcore, ?_, hdport⟩⟩
    · rw [Side.other_other]
      exact hwrapped.src
    · rw [Side.other_other]
      exact hsport
  · obtain ⟨dgram, bytes, hwrap, hbytes, hlength, hparse⟩ :=
      exists_wrapped lib (by rw [hconfig]) (by rw [hconfig]) hseg
    refine ⟨_, dgram, bytes, hwrap, hbytes, hlength, fun old => ?_⟩
    obtain ⟨d, hd, hwrapped⟩ := hparse old
    refine ⟨d, hd, Or.inr fun seg' hcarries hdport => ?_⟩
    obtain ⟨out, hout, -, -, hzero⟩ := hwrapped.segment
    rw [hcarries.unique hout, hzero] at hdport
    exact absurd hdport.symm hport

end Link
end Sponge

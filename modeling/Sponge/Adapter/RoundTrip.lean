import Sponge.Segment.RoundTrip
import Sponge.TCPOverIPv4Adapter

/-!
# From one adapter to the other

A segment wrapped by an adapter, sent as the bytes of a datagram, and unwrapped by the
adapter of the peer.  The pseudo-header that goes into the checksum is computed from the
datagram's header at both ends, and the fields it is computed from are read back.
-/

namespace Sponge

namespace TCPOverIPv4Adapter

open IPv4Datagram (headerOut)

/-- The segment with the port numbers that `wrap_tcp_in_ip` sets. -/
def ported (seg : TCPSegment) (sport dport : UInt16) : TCPSegment :=
  { seg with header := { seg.header with sport := sport, dport := dport } }

/-- The header that `wrap_tcp_in_ip` makes. -/
def wrappedHeader (src dst : UInt32) (seg : TCPSegment) : IPv4Header :=
  { src := src, dst := dst
    len := (20 + seg.header.doff.toNat * 4 + seg.payload.length).toUInt16 }

section RoundTrip

variable {lib : AddressLibrary} {a : TCPOverIPv4Adapter} {src dst : UInt32} {sport dport : UInt16}
  {seg : TCPSegment}

theorem wrapTcpInIp_eq (hsource : a.config.source = .ipv4 src sport)
    (hdestination : a.config.destination = .ipv4 dst dport) {payload : BufferList}
    (hpayload : (ported seg sport dport).serialize (wrappedHeader src dst seg).pseudoCksum =
      .ok payload) :
    a.wrapTcpInIp lib seg =
      .ok (ported seg sport dport, ⟨wrappedHeader src dst seg, payload⟩) := by
  rw [wrapTcpInIp, hsource, hdestination]
  change ((ported seg sport dport).serialize (wrappedHeader src dst seg).pseudoCksum >>=
    fun out => pure (ported seg sport dport, IPv4Datagram.mk (wrappedHeader src dst seg) out)) = _
  rw [hpayload]
  rfl

/-- The segments that fit a datagram. -/
structure Fits (seg : TCPSegment) : Prop where
  doff : 5 ≤ seg.header.doff.toNat
  doff_le : seg.header.doff.toNat ≤ 15
  size : 20 + 4 * seg.header.doff.toNat + seg.payload.length ≤ 65535

/-- The segment can be encoded, whatever its ports. -/
theorem Fits.representable (hf : Fits seg) (sport dport : UInt16) (h : IPv4Header) :
    (ported seg sport dport).Representable h.pseudoCksum := by
  have hpcksum := h.pseudoCksum_le
  have hsize := hf.size
  refine ⟨⟨hf.doff, Nat.lt_succ_of_le hf.doff_le⟩, ?_⟩
  change h.pseudoCksum.toNat + 65280 * (4 * seg.header.doff.toNat + seg.payload.length) < 2 ^ 32
  omega

/-- The datagram can be encoded: the length that is cut to 16 bits fits them. -/
theorem Fits.wrapped_representable (hf : Fits seg) (src dst : UInt32) {payload : BufferList}
    (hpayload : payload.size = 4 * seg.header.doff.toNat + seg.payload.length) :
    IPv4Datagram.Representable ⟨wrappedHeader src dst seg, payload⟩ := by
  have hsize := hf.size
  have hhlen : (wrappedHeader src dst seg).hlen.toNat = 5 := rfl
  have hoffset : (wrappedHeader src dst seg).offset.toNat = 0 := rfl
  refine ⟨⟨rfl, by rw [hhlen], by rw [hhlen]; norm_num, by rw [hoffset]; norm_num⟩, ?_⟩
  change (20 + seg.header.doff.toNat * 4 + seg.payload.length).toUInt16.toNat = 4 * 5 + payload.size
  rw [Nat.toUInt16_eq, UInt16.toNat_ofNat', Nat.mod_eq_of_lt (by omega), hpayload]
  omega

/-- **Round trip between two adapters.**  What one adapter wraps the other unwraps, after
it went through the encoding and the decoding of the datagram: the same payload and
header, with the ports of the configuration and the computed checksum. -/
theorem round_trip_between_adapters {b : TCPOverIPv4Adapter} (hb : b.listening = false)
    (hsource : a.config.source = .ipv4 src sport)
    (hdestination : a.config.destination = .ipv4 dst dport)
    (hmirror : b.config = { source := a.config.destination, destination := a.config.source })
    (hf : Fits seg) (old : InternetDatagram) :
    ∃ wrapped dgram bytes parsed, a.wrapTcpInIp lib seg = .ok (wrapped, dgram) ∧
      dgram.serialize = .ok bytes ∧
      old.parse bytes.concatenate = (.noError, parsed) ∧
      (unwrapTcpInIp lib parsed).run b = .ok (some
        { payload := seg.payload
          header := { seg.header with
            sport := sport
            dport := dport
            cksum := wrapped.checksum dgram.header.pseudoCksum } }) b := by
  obtain ⟨payload, hserialize, hpayloadsize, hparse⟩ :=
    TCPSegment.parse_serialize (hf.representable sport dport (wrappedHeader src dst seg))
  have hdgram : IPv4Datagram.Representable ⟨wrappedHeader src dst seg, payload⟩ :=
    hf.wrapped_representable src dst hpayloadsize
  obtain ⟨bytes, hbytes, hparsed⟩ := IPv4Datagram.parse_serialize hdgram old
  refine ⟨_, _, bytes, _, wrapTcpInIp_eq hsource hdestination hserialize, hbytes, hparsed, ?_⟩
  have hmatches : b.Matches
      ⟨headerOut (wrappedHeader src dst seg), .ofBuffer payload.concatenate⟩
      ((ported seg sport dport).segmentOut (wrappedHeader src dst seg).pseudoCksum) := by
    refine ⟨le_rfl, ⟨rfl, ?_⟩, ?_, ?_⟩
    · have hconcatenate : (BufferList.ofBuffer payload.concatenate).concatenate =
          payload.concatenate := by
        simp [BufferList.ofBuffer, BufferList.concatenate]
      rw [hconcatenate, IPv4Datagram.pseudoCksum_headerOut]
      exact hparse {}
    · rw [hmirror]
      exact hdestination
    · rw [hmirror]
      exact hsource
  exact hmatches.run_eq hb

/-- An odd payload behind four bytes of options goes from port 1234 of 10.0.0.1 to port 80 of
10.0.0.2. -/
theorem round_trip_between_adapters_odd_payload :
    ∃ wrapped dgram bytes parsed,
      wrapTcpInIp .dottedQuad ⟨⟨.ipv4 0x0a000001 1234, .ipv4 0x0a000002 80⟩, false⟩
        ⟨{ seqno := ⟨7⟩, doff := 6, ack := true, cksum := 99 }, [104, 105, 33]⟩ =
          .ok (wrapped, dgram) ∧
      dgram.serialize = .ok bytes ∧
      ({} : InternetDatagram).parse bytes.concatenate = (.noError, parsed) ∧
      (unwrapTcpInIp .dottedQuad parsed).run
        ⟨⟨.ipv4 0x0a000002 80, .ipv4 0x0a000001 1234⟩, false⟩ = .ok (some
          { payload := [104, 105, 33]
            header :=
              { seqno := ⟨7⟩, doff := 6, ack := true, sport := 1234, dport := 80
                cksum := wrapped.checksum dgram.header.pseudoCksum } })
          ⟨⟨.ipv4 0x0a000002 80, .ipv4 0x0a000001 1234⟩, false⟩ :=
  round_trip_between_adapters rfl rfl rfl rfl ⟨by decide, by decide, by decide⟩ {}

end RoundTrip

end TCPOverIPv4Adapter
end Sponge

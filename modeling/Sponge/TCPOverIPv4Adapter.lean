import Sponge.NetworkInterface
import Sponge.Segment.Codec

/-!
# TCP over IPv4

`TCPOverIPv4Adapter` of `tcp_over_ip.hh` and `tcp_over_ip.cc`, with what it has
from `FdAdapterBase` (`fd_adapter.hh`): the addresses of the configuration and the
listening flag.  Converting between addresses and text is left to the system's library,
which is a parameter.  `unwrap_tcp_in_ip` is a program over the adapter that can throw;
what it had changed before it throws stays changed.
-/

namespace Sponge

/-- What `Address` asks of the system: `inet_ntoa` of a number in host byte order,
`Address(ip, port)`, and the port of an address that is not IPv4. -/
structure AddressLibrary where
  inetNtoa : UInt32 → String
  address : String → UInt16 → Except RuntimeError Address
  otherPort : List Byte → Except RuntimeError UInt16

/-- `inet_ntoa` and numeric address parsing are inverse to each other. -/
def AddressLibrary.Inverse (lib : AddressLibrary) : Prop :=
  ∀ numeric port, lib.address (lib.inetNtoa numeric) port = .ok (.ipv4 numeric port)

def Address.port (lib : AddressLibrary) : Address → Except RuntimeError UInt16
  | .ipv4 _ port => .ok port
  | .other storage => lib.otherPort storage

@[simp] theorem Address.port_ipv4 (lib : AddressLibrary) (numeric : UInt32) (port : UInt16) :
    (Address.ipv4 numeric port).port lib = .ok port := rfl

theorem Address.eq_ipv4_of_numeric {address : Address} {numeric : UInt32}
    (h : address.ipv4Numeric = .ok numeric) : ∃ port, address = .ipv4 numeric port := by
  cases address with
  | ipv4 numeric' port => exact ⟨port, by rw [Except.ok.inj h]⟩
  | other storage => cases h

/-- `FdAdapterConfig`; `Address{"0", 0}` is the default. -/
structure FdAdapterConfig where
  source : Address := .ipv4 0 0
  destination : Address := .ipv4 0 0
deriving DecidableEq, Repr

structure TCPOverIPv4Adapter where
  config : FdAdapterConfig := {}
  listening : Bool := false
deriving DecidableEq, Repr

namespace TCPOverIPv4Adapter

/-- A call that may throw, inside a program that has a state. -/
def call {α : Type} (x : Except RuntimeError α) : EStateM RuntimeError TCPOverIPv4Adapter α :=
  match x with
  | .ok a => pure a
  | .error e => throw e

def unwrapTcpInIp (lib : AddressLibrary) (ipDgram : InternetDatagram) :
    EStateM RuntimeError TCPOverIPv4Adapter (Option TCPSegment) := do
  -- is the IPv4 datagram for us?
  if !(← get).listening then
    if ipDgram.header.dst != (← call (← get).config.source.ipv4Numeric) then
      return none
  -- is the IPv4 datagram from our peer?
  if !(← get).listening then
    if ipDgram.header.src != (← call (← get).config.destination.ipv4Numeric) then
      return none
  -- does the IPv4 datagram claim that its payload is a TCP segment?
  if ipDgram.header.proto != IPv4Header.protoTCP then
    return none
  -- is the payload a valid TCP segment?
  let buffer ← call ipDgram.payload.toBuffer
  let (result, tcpSeg) := TCPSegment.parse {} buffer ipDgram.header.pseudoCksum
  if result != .noError then
    return none
  -- is the TCP segment for us?
  if tcpSeg.header.dport != (← call ((← get).config.source.port lib)) then
    return none
  -- should we target this source addr/port (and use its destination addr as our source)
  -- in reply?
  if (← get).listening then
    if tcpSeg.header.syn && !tcpSeg.header.rst then
      let port ← call ((← get).config.source.port lib)
      let source ← call (lib.address (lib.inetNtoa ipDgram.header.dst) port)
      modify fun a => { a with config.source := source }
      let destination ←
        call (lib.address (lib.inetNtoa ipDgram.header.src) tcpSeg.header.sport)
      modify fun a => { a with config.destination := destination }
      modify fun a => { a with listening := false }
    else
      return none
  -- is the TCP segment from our peer?
  if tcpSeg.header.sport != (← call ((← get).config.destination.port lib)) then
    return none
  return some tcpSeg

/-- The segment with its port numbers set, and the datagram around it. -/
def wrapTcpInIp (lib : AddressLibrary) (a : TCPOverIPv4Adapter) (seg : TCPSegment) :
    Except RuntimeError (TCPSegment × InternetDatagram) := do
  -- set the port numbers in the TCP segment
  let sport ← a.config.source.port lib
  let dport ← a.config.destination.port lib
  let seg := { seg with header := { seg.header with sport := sport, dport := dport } }
  -- create an Internet Datagram and set its addresses and length
  let header : IPv4Header := {}
  let src ← a.config.source.ipv4Numeric
  let dst ← a.config.destination.ipv4Numeric
  let len := header.hlen.toNat * 4 + seg.header.doff.toNat * 4 + seg.payload.length
  let header := { header with src := src, dst := dst, len := len.toUInt16 }
  -- set payload, calculating TCP checksum using information from IP header
  let payload ← seg.serialize header.pseudoCksum
  return (seg, ⟨header, payload⟩)

/-! ## What a call does -/

@[simp] theorem run_call_ok {α : Type} (x : α) (a : TCPOverIPv4Adapter) :
    (call (.ok x)).run a = .ok x a := rfl

@[simp] theorem run_call_error {α : Type} (e : RuntimeError) (a : TCPOverIPv4Adapter) :
    (call (.error e : Except RuntimeError α)).run a = .error e a := rfl

/-- The header announces a TCP segment, and the bytes of the payload are one. -/
def Carries (d : InternetDatagram) (seg : TCPSegment) : Prop :=
  d.header.proto = IPv4Header.protoTCP ∧
    TCPSegment.parse {} d.payload.concatenate d.header.pseudoCksum = (.noError, seg)

instance (d : InternetDatagram) (seg : TCPSegment) : Decidable (Carries d seg) :=
  inferInstanceAs (Decidable (_ ∧ _))

theorem Carries.unique {d : InternetDatagram} {seg seg' : TCPSegment} (h : Carries d seg)
    (h' : Carries d seg') : seg = seg' :=
  (Prod.mk.inj (h.2.symm.trans h'.2)).2

/-- The call returns nothing, or throws, and changes nothing. -/
def Rejects (lib : AddressLibrary) (a : TCPOverIPv4Adapter) (d : InternetDatagram) : Prop :=
  (unwrapTcpInIp lib d).run a = .ok none a ∨ ∃ e, (unwrapTcpInIp lib d).run a = .error e a

/-- The first two tests let the datagram through. -/
structure Related (a : TCPOverIPv4Adapter) (d : InternetDatagram) : Prop where
  source : a.listening = false → a.config.source.ipv4Numeric = .ok d.header.dst
  destination : a.listening = false → a.config.destination.ipv4Numeric = .ok d.header.src

section Unwrap

variable {lib : AddressLibrary} {a : TCPOverIPv4Adapter} {d : InternetDatagram}

theorem related_or_rejects (a : TCPOverIPv4Adapter) (d : InternetDatagram) :
    a.Related d ∨ (¬a.Related d ∧ Rejects lib a d) := by
  cases hl : a.listening with
  | true => exact Or.inl ⟨by simp [hl], by simp [hl]⟩
  | false =>
      cases hsource : a.config.source.ipv4Numeric with
      | error e =>
          refine Or.inr ⟨fun hr => ?_, Or.inr ⟨e, by simp [unwrapTcpInIp, hl, hsource]⟩⟩
          exact absurd (hsource.symm.trans (hr.source hl)) (by simp)
      | ok ip =>
          by_cases hdst : d.header.dst = ip
          case neg =>
            refine Or.inr ⟨fun hr => ?_, Or.inl (by simp [unwrapTcpInIp, hl, hsource, hdst])⟩
            exact hdst (Except.ok.inj (hsource.symm.trans (hr.source hl))).symm
          cases hdestination : a.config.destination.ipv4Numeric with
          | error e =>
              refine Or.inr ⟨fun hr => ?_, Or.inr ⟨e, ?_⟩⟩
              · exact absurd (hdestination.symm.trans (hr.destination hl)) (by simp)
              · simp [unwrapTcpInIp, hl, hsource, hdst, hdestination]
          | ok peer =>
              by_cases hsrc : d.header.src = peer
              · exact Or.inl ⟨fun _ => by rw [hsource, hdst], fun _ => by rw [hdestination, hsrc]⟩
              · refine Or.inr ⟨fun hr => ?_, Or.inl ?_⟩
                · exact hsrc (Except.ok.inj (hdestination.symm.trans (hr.destination hl))).symm
                · simp [unwrapTcpInIp, hl, hsource, hdst, hdestination, hsrc]

/-- The tests of the payload come next, whether the adapter listens or not. -/
theorem carries_or_rejects (hr : a.Related d) :
    (d.payload.Contiguous ∧ ∃ seg, Carries d seg) ∨
      (¬(d.payload.Contiguous ∧ ∃ seg, Carries d seg) ∧ Rejects lib a d) := by
  by_cases hproto : d.header.proto = IPv4Header.protoTCP
  case neg =>
    refine Or.inr ⟨fun ⟨_, _, hc⟩ => hproto hc.1, Or.inl ?_⟩
    cases hl : a.listening with
    | true => simp [unwrapTcpInIp, hl, hproto]
    | false =>
        simp [-bind_pure_comp, unwrapTcpInIp, hl, hr.source hl, hr.destination hl, hproto]
  by_cases hcontiguous : d.payload.Contiguous
  case neg =>
    obtain ⟨e, he⟩ := BufferList.toBuffer_of_not_contiguous hcontiguous
    refine Or.inr ⟨fun ⟨hcont, _⟩ => hcontiguous hcont, Or.inr ⟨e, ?_⟩⟩
    cases hl : a.listening with
    | true => simp [unwrapTcpInIp, hl, hproto, he]
    | false => simp [unwrapTcpInIp, hl, hr.source hl, hr.destination hl, hproto, he]
  have hbuffer := BufferList.toBuffer_of_contiguous hcontiguous
  cases hparse : TCPSegment.parse {} d.payload.concatenate d.header.pseudoCksum with
  | mk result seg =>
      by_cases hresult : result = .noError
      · exact Or.inl ⟨hcontiguous, seg, hproto, by rw [hparse, hresult]⟩
      · refine Or.inr ⟨fun ⟨_, seg', hc⟩ => ?_, Or.inl ?_⟩
        · exact hresult (Prod.mk.inj (hparse.symm.trans hc.2)).1
        · cases hl : a.listening with
          | true => simp [unwrapTcpInIp, hl, hproto, hbuffer, hparse, hresult]
          | false =>
              simp [unwrapTcpInIp, hl, hr.source hl, hr.destination hl, hproto, hbuffer, hparse,
                hresult]

/-- A segment to another port is not for us. -/
theorem run_of_other_port (hr : a.Related d) (hcontiguous : d.payload.Contiguous)
    {seg : TCPSegment} (hcarries : Carries d seg) {port : UInt16}
    (hport : a.config.source.port lib = .ok port) (hdport : seg.header.dport ≠ port) :
    (unwrapTcpInIp lib d).run a = .ok none a := by
  have hbuffer := BufferList.toBuffer_of_contiguous hcontiguous
  cases hl : a.listening with
  | true => simp [unwrapTcpInIp, hl, hcarries.1, hbuffer, hcarries.2, hport, hdport]
  | false =>
      simp [unwrapTcpInIp, hl, hr.source hl, hr.destination hl, hcarries.1, hbuffer, hcarries.2,
        hport, hdport]

/-- A segment between the two addresses and ports of the configuration, its bytes in one
buffer. -/
structure Matches (a : TCPOverIPv4Adapter) (d : InternetDatagram) (seg : TCPSegment) : Prop where
  contiguous : d.payload.Contiguous
  carries : Carries d seg
  source : a.config.source = .ipv4 d.header.dst seg.header.dport
  destination : a.config.destination = .ipv4 d.header.src seg.header.sport

theorem Matches.related {seg : TCPSegment} (hm : a.Matches d seg) : a.Related d :=
  ⟨fun _ => by rw [hm.source]; rfl, fun _ => by rw [hm.destination]; rfl⟩

theorem Matches.run_eq {seg : TCPSegment} (hm : a.Matches d seg) (hl : a.listening = false) :
    (unwrapTcpInIp lib d).run a = .ok (some seg) a := by
  have hbuffer := BufferList.toBuffer_of_contiguous hm.contiguous
  simp [unwrapTcpInIp, hl, hm.source, hm.destination, Address.ipv4Numeric,
    hm.carries.1, hbuffer, hm.carries.2]

variable (lib d) in
/-- Without listening a call changes nothing, and returns the segment that matches. -/
theorem run_connected (hl : a.listening = false) :
    (∃ seg, a.Matches d seg ∧ (unwrapTcpInIp lib d).run a = .ok (some seg) a) ∨
      ((∀ seg, ¬a.Matches d seg) ∧ Rejects lib a d) := by
  rcases related_or_rejects a d with hr | ⟨hunrelated, hrejects⟩
  case inr => exact Or.inr ⟨fun seg hm => hunrelated hm.related, hrejects⟩
  rcases carries_or_rejects hr with ⟨hcontiguous, seg, hcarries⟩ | ⟨hnone, hrejects⟩
  case inr => exact Or.inr ⟨fun seg hm => hnone ⟨hm.contiguous, seg, hm.carries⟩, hrejects⟩
  obtain ⟨port, hsource⟩ := Address.eq_ipv4_of_numeric (hr.source hl)
  obtain ⟨peerPort, hdestination⟩ := Address.eq_ipv4_of_numeric (hr.destination hl)
  by_cases hdport : seg.header.dport = port
  case neg =>
    have hport : a.config.source.port lib = .ok port := by rw [hsource]; rfl
    refine Or.inr ⟨fun seg' hm => hdport ?_,
      Or.inl (run_of_other_port hr hcontiguous hcarries hport hdport)⟩
    rw [hcarries.unique hm.carries]
    exact (Address.ipv4.inj (hm.source.symm.trans hsource)).2
  by_cases hsport : seg.header.sport = peerPort
  case neg =>
    refine Or.inr ⟨fun seg' hm => hsport ?_, Or.inl ?_⟩
    · rw [hcarries.unique hm.carries]
      exact (Address.ipv4.inj (hm.destination.symm.trans hdestination)).2
    · have hbuffer := BufferList.toBuffer_of_contiguous hcontiguous
      simp [unwrapTcpInIp, hl, hsource, hdestination, Address.ipv4Numeric,
        hcarries.1, hbuffer, hcarries.2, hdport, hsport]
  have hm : a.Matches d seg := ⟨hcontiguous, hcarries, by rw [hsource, hdport],
    by rw [hdestination, hsport]⟩
  exact Or.inl ⟨seg, hm, hm.run_eq hl⟩

/-- A connection request to our port: SYN without RST, its bytes in one buffer. -/
structure Opens (lib : AddressLibrary) (a : TCPOverIPv4Adapter) (d : InternetDatagram)
    (seg : TCPSegment) : Prop where
  contiguous : d.payload.Contiguous
  carries : Carries d seg
  port : a.config.source.port lib = .ok seg.header.dport
  syn : seg.header.syn = true
  rst : seg.header.rst = false

/-- The adapter of the connection that a request opens. -/
def openedBy (d : InternetDatagram) (seg : TCPSegment) : TCPOverIPv4Adapter where
  config :=
    { source := .ipv4 d.header.dst seg.header.dport
      destination := .ipv4 d.header.src seg.header.sport }
  listening := false

variable (d) in
/-- While listening a call returns the connection request and becomes its connection, or
changes nothing. -/
theorem run_listening (hlib : lib.Inverse) (hl : a.listening = true) :
    (∃ seg, Opens lib a d seg ∧
        (unwrapTcpInIp lib d).run a = .ok (some seg) (openedBy d seg)) ∨
      ((∀ seg, ¬Opens lib a d seg) ∧ Rejects lib a d) := by
  have hr : a.Related d := ⟨by simp [hl], by simp [hl]⟩
  rcases carries_or_rejects hr with ⟨hcontiguous, seg, hcarries⟩ | ⟨hnone, hrejects⟩
  case inr => exact Or.inr ⟨fun seg ho => hnone ⟨ho.contiguous, seg, ho.carries⟩, hrejects⟩
  have hbuffer := BufferList.toBuffer_of_contiguous hcontiguous
  cases hport : a.config.source.port lib with
  | error e =>
      refine Or.inr ⟨fun seg ho => absurd (hport.symm.trans ho.port) (by simp), Or.inr ⟨e, ?_⟩⟩
      simp [unwrapTcpInIp, hl, hcarries.1, hbuffer, hcarries.2, hport]
  | ok port =>
      by_cases hdport : seg.header.dport = port
      case neg =>
        refine Or.inr ⟨fun seg' ho => hdport ?_,
          Or.inl (run_of_other_port hr hcontiguous hcarries hport hdport)⟩
        rw [hcarries.unique ho.carries]
        exact (Except.ok.inj (hport.symm.trans ho.port)).symm
      by_cases hflags : seg.header.syn = true ∧ seg.header.rst = false
      case neg =>
        refine Or.inr ⟨fun seg' ho => hflags ?_, Or.inl ?_⟩
        · rw [hcarries.unique ho.carries]
          exact ⟨ho.syn, ho.rst⟩
        · simp [unwrapTcpInIp, hl, hcarries.1, hbuffer, hcarries.2, hport, hdport, hflags]
      refine Or.inl ⟨seg, ⟨hcontiguous, hcarries, by rw [hport, hdport], hflags.1, hflags.2⟩, ?_⟩
      have haddress : ∀ numeric port,
          lib.address (lib.inetNtoa numeric) port = .ok (.ipv4 numeric port) := hlib
      -- the port just stored is the one the last test asks for
      simp [unwrapTcpInIp, hl, hcarries.1, hbuffer, hcarries.2, hport, hdport, hflags, haddress,
        openedBy]

end Unwrap

end TCPOverIPv4Adapter

/-! ## A library of addresses -/

namespace AddressLibrary

/-- A decimal number below 256. -/
def readDecimal (digits : List Char) : Option Byte :=
  let val := digits.foldl (fun val digit => val * 10 + (digit.toNat - '0'.toNat)) 0
  if digits ≠ [] ∧ digits.all Char.isDigit ∧ val < 256 then some val.toUInt8 else none

/-- Addresses written as dotted quads. -/
def dottedQuad : AddressLibrary where
  inetNtoa numeric :=
    .ofList (['.'].intercalate
      ((NetUnparser.u32 numeric).map fun byte => Nat.toDigits 10 byte.toNat))
  address ip port :=
    match (ip.toList.splitOn '.').mapM readDecimal with
    | some [a, b, c, d] => .ok (.ipv4 (bigEndian [a, b, c, d]).toUInt32 port)
    | _ => .error ⟨"getaddrinfo(" ++ ip ++ ", " ++ toString port.toNat ++ ")"⟩
  otherPort _ := .error ⟨"getnameinfo"⟩

theorem readDecimal_toDigits (byte : Byte) :
    readDecimal (Nat.toDigits 10 byte.toNat) = some byte ∧ '.' ∉ Nat.toDigits 10 byte.toNat := by
  exact byte_of_lt (P := fun byte => readDecimal (Nat.toDigits 10 byte.toNat) = some byte ∧
    '.' ∉ Nat.toDigits 10 byte.toNat) (by decide +kernel) byte.toNat_lt

theorem mapM_readDecimal (bytes : List Byte) :
    (bytes.map fun byte => Nat.toDigits 10 byte.toNat).mapM readDecimal = some bytes := by
  induction bytes with
  | nil => rfl
  | cons byte bytes ih => simp [ih, (readDecimal_toDigits byte).1]

theorem dottedQuad_inverse : dottedQuad.Inverse := by
  intro numeric port
  have hsplit : (['.'].intercalate
      ((NetUnparser.u32 numeric).map fun byte => Nat.toDigits 10 byte.toNat)).splitOn '.' =
        (NetUnparser.u32 numeric).map fun byte => Nat.toDigits 10 byte.toNat := by
    refine List.splitOn_intercalate '.' ?_ (by simp [NetUnparser.u32, NetUnparser.unparseInt])
    intro digits hmem
    obtain ⟨byte, -, rfl⟩ := List.mem_map.mp hmem
    exact (readDecimal_toDigits byte).2
  have hquad : ∃ a b c d, NetUnparser.u32 numeric = [a, b, c, d] := ⟨_, _, _, _, rfl⟩
  obtain ⟨a, b, c, d, hquad⟩ := hquad
  have hvalue : bigEndian [a, b, c, d] = numeric.toNat := by
    rw [← hquad]
    exact NetUnparser.bigEndian_unparseInt numeric.toNat_lt
  simp only [dottedQuad, String.toList_ofList, hsplit, mapM_readDecimal]
  simp only [hquad, hvalue, Nat.toUInt32_eq, UInt32.ofNat_toNat]

end AddressLibrary
end Sponge

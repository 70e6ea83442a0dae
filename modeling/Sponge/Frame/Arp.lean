import Sponge.Frame.Ethernet

/-!
# ARP messages on the wire

What `ARPMessage::parse` accepts, bytes that follow the message included, and that
`serialize` and `parse` undo each other.
-/

namespace Sponge
namespace ARPMessage

/-- Ethernet and IPv4 addresses, and a request or a reply. -/
def Supported (m : ARPMessage) : Prop :=
  m.hardwareType = 1 ∧ m.protocolType = 0x800 ∧ m.hardwareAddressSize = 6 ∧
    m.protocolAddressSize = 4 ∧ (m.opcode = 1 ∨ m.opcode = 2)

theorem supported_iff (m : ARPMessage) : m.supported = true ↔ m.Supported := by
  simp [supported, Supported, typeEthernet, EthernetHeader.typeIPv4, opcodeRequest, opcodeReply,
    and_assoc]

/-- The message that the first twenty-eight bytes encode. -/
def encodedIn (b : Buffer) : ARPMessage where
  hardwareType := (bigEndian (bytesAt b 0 2)).toUInt16
  protocolType := (bigEndian (bytesAt b 2 2)).toUInt16
  hardwareAddressSize := b.getD 4 0
  protocolAddressSize := b.getD 5 0
  opcode := (bigEndian (bytesAt b 6 2)).toUInt16
  senderEthernetAddress := addressAt b 8
  senderIpAddress := (bigEndian (bytesAt b 14 4)).toUInt32
  targetEthernetAddress := addressAt b 18
  targetIpAddress := (bigEndian (bytesAt b 24 4)).toUInt32

/-- The fields in wire order. -/
def fieldBytes (m : ARPMessage) : List Byte :=
  NetUnparser.u16 m.hardwareType ++ NetUnparser.u16 m.protocolType ++
    NetUnparser.u8 m.hardwareAddressSize ++ NetUnparser.u8 m.protocolAddressSize ++
    NetUnparser.u16 m.opcode ++ NetUnparser.ethernetAddress m.senderEthernetAddress ++
    NetUnparser.u32 m.senderIpAddress ++ NetUnparser.ethernetAddress m.targetEthernetAddress ++
    NetUnparser.u32 m.targetIpAddress

theorem serialize_of_supported {m : ARPMessage} (h : m.supported = true) :
    m.serialize = .ok m.fieldBytes := by
  rw [serialize, if_neg (by simp [h])]
  rfl

theorem serialize_of_unsupported {m : ARPMessage} (h : m.supported = false) :
    ∃ e, m.serialize = .error e := by
  rw [serialize, if_pos h]
  exact ⟨_, rfl⟩

theorem parse_of_short (m : ARPMessage) {b : Buffer} (hb : b.length < 28) :
    m.parse b = (.packetTooShort, m) := by
  rw [parse]
  exact if_pos hb

/-- A message that is long enough is read off the bytes if it is supported. -/
theorem parse_of_long (m : ARPMessage) {b : Buffer} (hb : 28 ≤ b.length) :
    ((encodedIn b).supported = false ∧ (m.parse b).1 = .unsupported) ∨
      ((encodedIn b).supported = true ∧ m.parse b = (.noError, encodedIn b)) := by
  have hfirst : (⟨b, .noError⟩ : NetParser) = ⟨b.drop 0, .noError⟩ := rfl
  rw [parse, if_neg (by simp [LENGTH, hb]), hfirst]
  simp (disch := omega) only [NetParser.u8_drop, NetParser.u16_drop, NetParser.u32_drop,
    NetParser.ethernetAddress_drop, Nat.zero_add, Nat.reduceAdd]
  -- the test looks at the fields that have been read, not at the addresses
  cases hsupported : (encodedIn b).supported with
  | false => exact Or.inl ⟨rfl, congrArg Prod.fst (if_pos hsupported)⟩
  | true =>
      refine Or.inr ⟨rfl, if_neg ?_⟩
      intro hfalse
      exact absurd (hsupported.symm.trans hfalse) (by decide)

theorem fieldBytes_encodedIn {b : Buffer} (hb : 28 ≤ b.length) :
    (encodedIn b).fieldBytes = b.take 28 := by
  have hbyte : ∀ i, i + 1 ≤ b.length → NetUnparser.u8 (b.getD i 0) = bytesAt b i 1 := by
    intro i hi
    rw [NetUnparser.u8_eq, bytesAt_one hi]
  rw [fieldBytes, encodedIn]
  simp (disch := omega) only [hbyte, NetUnparser.u16_bytesAt, NetUnparser.u32_bytesAt,
    NetUnparser.ethernetAddress_addressAt]
  repeat rw [bytesAt_append]
  rfl

/-- The first eight bytes of a supported message. -/
theorem supported_encodedIn_iff {b : Buffer} (hb : 8 ≤ b.length) :
    (encodedIn b).supported = true ↔
      b.take 8 = [0, 1, 8, 0, 6, 4, 0, 1] ∨ b.take 8 = [0, 1, 8, 0, 6, 4, 0, 2] := by
  have hsplit : b.take 8 = bytesAt b 0 2 ++ bytesAt b 2 2 ++ bytesAt b 4 1 ++ bytesAt b 5 1 ++
      bytesAt b 6 2 := by
    repeat rw [bytesAt_append]
    rfl
  have hword : ∀ (i : Nat) (val : UInt16), i + 2 ≤ b.length →
      ((bigEndian (bytesAt b i 2)).toUInt16 = val ↔ bytesAt b i 2 = NetUnparser.u16 val) := by
    intro i val hi
    constructor
    · rintro rfl
      exact (NetUnparser.u16_bytesAt hi).symm
    · intro heq
      rw [heq, NetUnparser.u16, NetUnparser.bigEndian_unparseInt val.toNat_lt]
      simp
  -- field by field, from the last to the first
  have hfields : ∀ opcode : UInt16, b.take 8 = NetUnparser.u16 1 ++ NetUnparser.u16 0x800 ++
      [6] ++ [4] ++ NetUnparser.u16 opcode ↔
        (bytesAt b 0 2 = NetUnparser.u16 1 ∧ bytesAt b 2 2 = NetUnparser.u16 0x800 ∧
          b.getD 4 0 = 6 ∧ b.getD 5 0 = 4 ∧ bytesAt b 6 2 = NetUnparser.u16 opcode) := by
    intro opcode
    rw [hsplit, bytesAt_one (by omega), bytesAt_one (by omega),
      List.append_eq_append_iff_of_size_eq_right (by rw [length_bytesAt (by omega)]; simp),
      List.append_eq_append_iff_of_size_eq_right (by simp),
      List.append_eq_append_iff_of_size_eq_right (by simp),
      List.append_eq_append_iff_of_size_eq_right (by rw [length_bytesAt (by omega)]; simp),
      List.singleton_inj, List.singleton_inj]
    tauto
  have hrequest : ([0, 1, 8, 0, 6, 4, 0, 1] : List Byte) =
      NetUnparser.u16 1 ++ NetUnparser.u16 0x800 ++ [6] ++ [4] ++ NetUnparser.u16 1 := by decide
  have hreply : ([0, 1, 8, 0, 6, 4, 0, 2] : List Byte) =
      NetUnparser.u16 1 ++ NetUnparser.u16 0x800 ++ [6] ++ [4] ++ NetUnparser.u16 2 := by decide
  rw [supported_iff, Supported, hrequest, hreply, hfields, hfields]
  simp only [encodedIn]
  rw [hword 0 _ (by omega), hword 2 _ (by omega), hword 6 _ (by omega), hword 6 _ (by omega)]
  tauto

/-- Reading the fields of a supported message, whatever follows it. -/
theorem parse_fieldBytes (old : ARPMessage) {m : ARPMessage} (h : m.supported = true)
    (rest : Buffer) : old.parse (m.fieldBytes ++ rest) = (.noError, m) := by
  have hlong : ¬(m.fieldBytes ++ rest).length < LENGTH := by
    simp [fieldBytes, LENGTH, NetUnparser.ethernetAddress_eq]
    omega
  rw [parse, if_neg hlong, fieldBytes]
  simp only [List.append_assoc, NetParser.u8_unparse, NetParser.u16_unparse, NetParser.u32_unparse,
    NetParser.ethernetAddress_unparse]
  refine if_neg ?_
  intro hfalse
  exact absurd (h.symm.trans hfalse) (by decide)

/-- **The codec.**  What `parse` accepts, and that `serialize` gives back the bytes of the
message; that `parse` reads what `serialize` has written, whatever follows; and when
`serialize` throws. -/
theorem arp_codec :
    (∀ (old : ARPMessage) (b : Buffer),
      ((old.parse b).1 = .noError ↔ 28 ≤ b.length ∧
        (b.take 8 = [0, 1, 8, 0, 6, 4, 0, 1] ∨ b.take 8 = [0, 1, 8, 0, 6, 4, 0, 2])) ∧
      ((old.parse b).1 = .noError → (old.parse b).2.serialize = .ok (b.take 28))) ∧
    (∀ (old m : ARPMessage) (t : Buffer), m.Supported →
      ∃ bytes, m.serialize = .ok bytes ∧ old.parse (bytes ++ t) = (.noError, m)) ∧
    ∀ m : ARPMessage, (∃ e, m.serialize = .error e) ↔ ¬m.Supported := by
  refine ⟨?_, ?_, ?_⟩
  · intro old b
    by_cases hb : 28 ≤ b.length
    · rw [← supported_encodedIn_iff (by omega)]
      rcases old.parse_of_long hb with ⟨hno, hresult⟩ | ⟨hyes, hparse⟩
      · rw [hresult, hno]
        simp
      · rw [hparse, hyes]
        simp only [hb, true_and, true_implies, serialize_of_supported hyes,
          fieldBytes_encodedIn hb]
    · rw [old.parse_of_short (by omega)]
      simp [hb]
  · intro old m t hm
    have hsupported := (supported_iff m).mpr hm
    exact ⟨_, serialize_of_supported hsupported, parse_fieldBytes old hsupported t⟩
  · intro m
    rw [← supported_iff]
    cases hm : m.supported with
    | false => simp [serialize_of_unsupported hm]
    | true => simp [serialize_of_supported hm]

end ARPMessage
end Sponge

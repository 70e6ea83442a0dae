import Sponge.ByteStream

/-!
# Buffers and the network parser

`Buffer` and `BufferList` of `buffer.hh`, `NetParser` and `NetUnparser` of
`parser.hh`, and the exceptions they and their users throw.  A `Buffer` is the list of
the bytes left in it; a `BufferList` is the list of its buffers.
-/

namespace Sponge

/-- `std::runtime_error`, with its text. -/
structure RuntimeError where
  what : String
deriving DecidableEq, Repr

/-- `Buffer`: a string whose front can be discarded. -/
abbrev Buffer := List Byte

/-- `BufferList`: a discontiguous string. -/
structure BufferList where
  buffers : List Buffer := []
deriving DecidableEq, Repr

namespace BufferList

def ofBuffer (buffer : Buffer) : BufferList := ⟨[buffer]⟩

def append (a b : BufferList) : BufferList := ⟨a.buffers ++ b.buffers⟩

def size (b : BufferList) : Nat := (b.buffers.map List.length).sum

def concatenate (b : BufferList) : Buffer := b.buffers.flatten

/-- `operator Buffer`: only a contiguous list is a buffer. -/
def toBuffer (b : BufferList) : Except RuntimeError Buffer :=
  match b.buffers with
  | [] => .ok []
  | [buffer] => .ok buffer
  | _ => .error
      ⟨"BufferList: please use concatenate() to combine a multi-Buffer BufferList into one Buffer"⟩

@[simp] theorem size_ofBuffer (buffer : Buffer) : (ofBuffer buffer).size = buffer.length := by
  simp [ofBuffer, size]

theorem length_concatenate (b : BufferList) : b.concatenate.length = b.size :=
  List.length_flatten

/-- In one buffer, or empty. -/
def Contiguous (b : BufferList) : Prop :=
  b.buffers.length ≤ 1

instance (b : BufferList) : Decidable b.Contiguous :=
  inferInstanceAs (Decidable (_ ≤ _))

theorem toBuffer_of_contiguous {b : BufferList} (h : b.Contiguous) :
    b.toBuffer = .ok b.concatenate := by
  obtain ⟨buffers⟩ := b
  cases buffers with
  | nil => rfl
  | cons buffer rest =>
      have hlen : rest.length ≤ 0 := Nat.le_of_succ_le_succ h
      have hrest : rest = [] := List.length_eq_zero_iff.mp (Nat.le_zero.mp hlen)
      subst hrest
      simp [toBuffer, concatenate]

theorem toBuffer_of_not_contiguous {b : BufferList} (h : ¬b.Contiguous) :
    ∃ e, b.toBuffer = .error e := by
  obtain ⟨buffers⟩ := b
  match buffers, h with
  | [], h => exact absurd (Nat.zero_le 1) h
  | [_], h => exact absurd le_rfl h
  | _ :: _ :: _, _ => exact ⟨_, rfl⟩

@[simp] theorem toBuffer_ofBuffer (buffer : Buffer) : (ofBuffer buffer).toBuffer = .ok buffer := rfl

end BufferList

/-- The result of parsing. -/
inductive ParseResult where
  | noError
  | badChecksum
  | packetTooShort
  | wrongIPVersion
  | headerTooShort
  | truncatedPacket
  | unsupported
deriving DecidableEq, Repr

/-- `NetParser`: the bytes still to be parsed and the error so far. -/
structure NetParser where
  buffer : Buffer
  error : ParseResult := .noError
deriving DecidableEq, Repr

/-- What holds of the numbers below a bound holds of the bytes below it. -/
theorem byte_of_lt {bound : Nat} {P : Byte → Prop} (h : ∀ n < bound, P (UInt8.ofNat n))
    {byte : Byte} (hbyte : byte.toNat < bound) : P byte := by
  have hp := h byte.toNat hbyte
  rwa [UInt8.ofNat_toNat] at hp

/-- The number that bytes encode, most significant byte first. -/
def bigEndian (bytes : List Byte) : Nat :=
  bytes.foldl (fun ret byte => ret * 256 + byte.toNat) 0

/-- The `n` bytes from position `i` on. -/
def bytesAt (b : Buffer) (i n : Nat) : List Byte :=
  (b.drop i).take n

theorem length_bytesAt {b : Buffer} {i n : Nat} (h : i + n ≤ b.length) :
    (bytesAt b i n).length = n := by
  rw [bytesAt, List.length_take, List.length_drop]
  omega

theorem bytesAt_one {b : Buffer} {i : Nat} (h : i + 1 ≤ b.length) :
    bytesAt b i 1 = [b.getD i 0] := by
  rw [bytesAt, List.drop_eq_getElem_cons (by omega), List.getD_eq_getElem?_getD,
    List.getElem?_eq_getElem (by omega)]
  rfl

/-- Neighbouring fields together. -/
theorem bytesAt_append (b : Buffer) (i m n : Nat) :
    bytesAt b i m ++ bytesAt b (i + m) n = bytesAt b i (m + n) := by
  rw [bytesAt, bytesAt, bytesAt, ← List.drop_drop, ← List.take_add]

theorem bigEndian_append_singleton (bytes : List Byte) (byte : Byte) :
    bigEndian (bytes ++ [byte]) = bigEndian bytes * 256 + byte.toNat := by
  simp [bigEndian]

theorem bigEndian_lt (bytes : List Byte) : bigEndian bytes < 256 ^ bytes.length := by
  induction bytes using List.reverseRecOn with
  | nil => simp [bigEndian]
  | append_singleton bytes byte ih =>
      have hbyte := byte.toNat_lt
      rw [bigEndian_append_singleton, List.length_append, List.length_singleton, pow_succ]
      omega

/-- Bytes are determined by how many they are and the number they encode. -/
theorem eq_of_bigEndian_eq {xs ys : List Byte} (hlen : xs.length = ys.length)
    (h : bigEndian xs = bigEndian ys) : xs = ys := by
  induction xs using List.reverseRecOn generalizing ys with
  | nil => exact (List.eq_nil_of_length_eq_zero hlen.symm).symm
  | append_singleton xs x ih =>
      rcases List.eq_nil_or_concat ys with rfl | ⟨ys, y, rfl⟩
      · simp at hlen
      · have hx := x.toNat_lt
        have hy := y.toNat_lt
        rw [List.concat_eq_append] at *
        rw [bigEndian_append_singleton, bigEndian_append_singleton] at h
        have hrest : xs = ys := ih (by simpa using hlen) (by omega)
        have hlast : x = y := UInt8.toNat_inj.mp (by omega)
        rw [hrest, hlast]

namespace NetParser

def checkSize (p : NetParser) (size : Nat) : NetParser :=
  if size > p.buffer.length then { p with error := .packetTooShort } else p

/-- `_parse_int` for a type of `len` bytes. -/
def parseInt (p : NetParser) (len : Nat) : Nat × NetParser :=
  let p := p.checkSize len
  -- after an error a field reads as zero, and nothing is taken from the buffer
  if p.error ≠ .noError then (0, p)
  else (bigEndian (p.buffer.take len), { p with buffer := p.buffer.drop len })

def u32 (p : NetParser) : UInt32 × NetParser :=
  ((p.parseInt 4).1.toUInt32, (p.parseInt 4).2)

def u16 (p : NetParser) : UInt16 × NetParser :=
  ((p.parseInt 2).1.toUInt16, (p.parseInt 2).2)

def u8 (p : NetParser) : Byte × NetParser :=
  ((p.parseInt 1).1.toUInt8, (p.parseInt 1).2)

def removePrefix (p : NetParser) (n : Nat) : NetParser :=
  let p := p.checkSize n
  if p.error ≠ .noError then p else { p with buffer := p.buffer.drop n }

theorem parseInt_of_le {bytes : Buffer} {len : Nat} (h : len ≤ bytes.length) :
    parseInt ⟨bytes, .noError⟩ len = (bigEndian (bytes.take len), ⟨bytes.drop len, .noError⟩) := by
  simp [parseInt, checkSize, not_lt.mpr h]

/-! A parser without error stands at some position of the bytes it was given; reading a
field there moves it on by the width of the field. -/

variable {b : Buffer} {i : Nat}

theorem u8_drop (h : i + 1 ≤ b.length) :
    u8 ⟨b.drop i, .noError⟩ = (b.getD i 0, ⟨b.drop (i + 1), .noError⟩) := by
  have hhead : (b.drop i).take 1 = [b.getD i 0] := bytesAt_one h
  rw [u8, parseInt_of_le (by rw [List.length_drop]; omega), hhead, List.drop_drop]
  simp [bigEndian]

theorem u16_drop (h : i + 2 ≤ b.length) :
    u16 ⟨b.drop i, .noError⟩ =
      ((bigEndian (bytesAt b i 2)).toUInt16, ⟨b.drop (i + 2), .noError⟩) := by
  rw [u16, parseInt_of_le (by rw [List.length_drop]; omega), List.drop_drop]
  rfl

theorem u32_drop (h : i + 4 ≤ b.length) :
    u32 ⟨b.drop i, .noError⟩ =
      ((bigEndian (bytesAt b i 4)).toUInt32, ⟨b.drop (i + 4), .noError⟩) := by
  rw [u32, parseInt_of_le (by rw [List.length_drop]; omega), List.drop_drop]
  rfl

theorem removePrefix_of_le {bytes : Buffer} {n : Nat} (h : n ≤ bytes.length) :
    removePrefix ⟨bytes, .noError⟩ n = ⟨bytes.drop n, .noError⟩ := by
  simp [removePrefix, checkSize, not_lt.mpr h]

end NetParser

namespace NetUnparser

/-- `_unparse_int` for a value of `len` bytes: what is appended to the string. -/
def unparseInt (len val : Nat) : List Byte :=
  (List.range len).map fun i => (val >>> ((len - i - 1) * 8)).toUInt8

def u32 (val : UInt32) : List Byte := unparseInt 4 val.toNat

def u16 (val : UInt16) : List Byte := unparseInt 2 val.toNat

def u8 (val : Byte) : List Byte := unparseInt 1 val.toNat

theorem unparseInt_succ (len val : Nat) :
    unparseInt (len + 1) val = (val >>> (len * 8)).toUInt8 :: unparseInt len val := by
  rw [unparseInt, List.range_succ_eq_map, List.map_cons, List.map_map]
  refine congrArg₂ List.cons ?_ (List.map_congr_left fun i _ => ?_)
  · rw [Nat.sub_zero, Nat.add_sub_cancel]
  · have hwidth : len + 1 - (i + 1) - 1 = len - i - 1 := by omega
    rw [Function.comp_apply, Nat.succ_eq_add_one, hwidth]

@[simp] theorem length_unparseInt (len val : Nat) : (unparseInt len val).length = len := by
  simp [unparseInt]

@[simp] theorem length_u8 (val : Byte) : (u8 val).length = 1 := length_unparseInt 1 _

@[simp] theorem length_u16 (val : UInt16) : (u16 val).length = 2 := length_unparseInt 2 _

@[simp] theorem length_u32 (val : UInt32) : (u32 val).length = 4 := length_unparseInt 4 _

/-- The number read from an encoded one, after `ret` has been read before it. -/
theorem foldl_unparseInt (ret len val : Nat) :
    (unparseInt len val).foldl (fun ret byte => ret * 256 + byte.toNat) ret =
      ret * 256 ^ len + val % 256 ^ len := by
  induction len generalizing ret with
  | zero => simp [unparseInt, Nat.mod_one]
  | succ len ih =>
      have hbyte : (val >>> (len * 8)).toUInt8.toNat = val / 256 ^ len % 256 := by
        rw [Nat.toUInt8_eq, UInt8.toNat_ofNat', Nat.shiftRight_eq_div_pow, mul_comm len 8, pow_mul]
        norm_num
      rw [unparseInt_succ, List.foldl_cons, ih, hbyte, pow_succ, Nat.mod_mul]
      ring

theorem bigEndian_unparseInt {len val : Nat} (h : val < 256 ^ len) :
    bigEndian (unparseInt len val) = val := by
  rw [bigEndian, foldl_unparseInt, Nat.zero_mul, Nat.zero_add, Nat.mod_eq_of_lt h]

/-- Writing the number that bytes encode gives them back. -/
theorem unparseInt_bigEndian {bytes : List Byte} {len : Nat} (h : bytes.length = len) :
    unparseInt len (bigEndian bytes) = bytes := by
  have hlt : bigEndian bytes < 256 ^ len := h ▸ bigEndian_lt bytes
  exact eq_of_bigEndian_eq (by rw [length_unparseInt, h]) (bigEndian_unparseInt hlt)

theorem u8_eq (val : Byte) : u8 val = [val] := by
  simp [u8, unparseInt]

theorem u16_bytesAt {b : Buffer} {i : Nat} (h : i + 2 ≤ b.length) :
    u16 (bigEndian (bytesAt b i 2)).toUInt16 = bytesAt b i 2 := by
  have hlen := length_bytesAt h
  have hlt := bigEndian_lt (bytesAt b i 2)
  rw [hlen] at hlt
  rw [u16, Nat.toUInt16_eq, UInt16.toNat_ofNat_of_lt' hlt, unparseInt_bigEndian hlen]

theorem u32_bytesAt {b : Buffer} {i : Nat} (h : i + 4 ≤ b.length) :
    u32 (bigEndian (bytesAt b i 4)).toUInt32 = bytesAt b i 4 := by
  have hlen := length_bytesAt h
  have hlt := bigEndian_lt (bytesAt b i 4)
  rw [hlen] at hlt
  rw [u32, Nat.toUInt32_eq, UInt32.toNat_ofNat_of_lt' hlt, unparseInt_bigEndian hlen]

end NetUnparser

namespace NetParser

/-! A parser without error reads back the field that was written, and stands after it. -/

theorem parseInt_unparseInt {len val : Nat} (h : val < 256 ^ len) (rest : Buffer) :
    parseInt ⟨NetUnparser.unparseInt len val ++ rest, .noError⟩ len = (val, ⟨rest, .noError⟩) := by
  have hlen : (NetUnparser.unparseInt len val).length = len := NetUnparser.length_unparseInt len val
  rw [parseInt_of_le (by simp), List.take_left' hlen, List.drop_left' hlen,
    NetUnparser.bigEndian_unparseInt h]

theorem u8_unparse (val : Byte) (rest : Buffer) :
    u8 ⟨NetUnparser.u8 val ++ rest, .noError⟩ = (val, ⟨rest, .noError⟩) := by
  rw [u8, NetUnparser.u8, parseInt_unparseInt val.toNat_lt]
  simp

theorem u16_unparse (val : UInt16) (rest : Buffer) :
    u16 ⟨NetUnparser.u16 val ++ rest, .noError⟩ = (val, ⟨rest, .noError⟩) := by
  rw [u16, NetUnparser.u16, parseInt_unparseInt val.toNat_lt]
  simp

theorem u32_unparse (val : UInt32) (rest : Buffer) :
    u32 ⟨NetUnparser.u32 val ++ rest, .noError⟩ = (val, ⟨rest, .noError⟩) := by
  rw [u32, NetUnparser.u32, parseInt_unparseInt val.toNat_lt]
  simp

end NetParser

/-- `InternetChecksum` of `util.hh`: the sum so far, a `uint32_t`, and whether the next
byte is the low one of its word. -/
structure InternetChecksum where
  sum : Nat := 0
  parity : Bool := false
deriving DecidableEq, Repr

namespace InternetChecksum

def addByte (c : InternetChecksum) (byte : Byte) : InternetChecksum where
  sum := Word.add 32 c.sum (if c.parity then byte.toNat else byte.toNat * 256)
  parity := !c.parity

def add (c : InternetChecksum) (data : List Byte) : InternetChecksum :=
  data.foldl addByte c

/-- The loop that adds the carries; a 32-bit sum is below `2 ^ 16` after two rounds. -/
def foldCarries : Nat → Nat → Nat
  | 0, ret => ret
  | fuel + 1, ret => if ret > 0xffff then foldCarries fuel (ret / 65536 + ret % 65536) else ret

def value (c : InternetChecksum) : UInt16 :=
  ~~~ (foldCarries 2 c.sum).toUInt16

/-- Two rounds are enough. -/
theorem foldCarries_le {ret : Nat} (h : ret < 2 ^ 32) : foldCarries 2 ret ≤ 0xffff := by
  simp only [foldCarries]
  split_ifs <;> omega

end InternetChecksum
end Sponge

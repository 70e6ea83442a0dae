import Sponge.Lib.Program
import Sponge.Parser

/-!
# File descriptors

`FileDescriptor` of `file_descriptor.hh` and `file_descriptor.cc`, the views it
writes from (`BufferViewList` of `buffer.cc`), and `SystemCall` of `util.cc`.  A descriptor
holds what the kernel keeps for it beside the flags and counters of `FDWrapper`, which all
its duplicates share.  What the kernel does with a call is a parameter, `KernelFile`; the
counters are `unsigned`.
-/

namespace Sponge

/-- What the code throws: `runtime_error`, `unix_error` with the name of the call and
`errno`, `out_of_range`; or the signal that kills the process, which nothing catches. -/
inductive Exception where
  | runtime (error : RuntimeError)
  | unix (attempt : String) (errno : Nat)
  | outOfRange (what : String)
  | killed (signal : Nat)
deriving DecidableEq, Repr

/-- What a system call returns, or `errno` when it fails, or the signal with which the kernel
kills the process instead. -/
inductive SysResult (α : Type) where
  | returns (value : α)
  | fails (errno : Nat)
  | kills (signal : Nat)
deriving DecidableEq, Repr

def systemCall {α : Type} (attempt : String) : SysResult α → Except Exception α
  | .returns value => .ok value
  | .fails errno => .error (.unix attempt errno)
  | .kills signal => .error (.killed signal)

/-! ## Discarding from the front -/

/-- The loop of `remove_prefix`: whole pieces go while they are short enough. -/
def dropPieces : List Buffer → Nat → Except Exception (List Buffer)
  | pieces, 0 => .ok pieces
  | [], _ + 1 => .error (.outOfRange "BufferListView::remove_prefix")
  | piece :: rest, n + 1 =>
      if n + 1 < piece.length then .ok (piece.drop (n + 1) :: rest)
      else dropPieces rest (n + 1 - piece.length)

/-- `BufferViewList`: a discontiguous view of bytes owned elsewhere. -/
structure BufferViewList where
  views : List Buffer
deriving DecidableEq, Repr

namespace BufferViewList

def ofString (str : Buffer) : BufferViewList := ⟨[str]⟩

def ofBufferList (b : BufferList) : BufferViewList := ⟨b.buffers⟩

def removePrefix (b : BufferViewList) (n : Nat) : Except Exception BufferViewList :=
  return ⟨← dropPieces b.views n⟩

def size (b : BufferViewList) : Nat := (b.views.map List.length).sum

/-- The bytes that the `iovec`s point at, in order. -/
def bytes (b : BufferViewList) : List Byte := b.views.flatten

theorem length_bytes (b : BufferViewList) : b.bytes.length = b.size := List.length_flatten

@[simp] theorem bytes_ofString (str : Buffer) : (ofString str).bytes = str := by
  simp [ofString, bytes]

@[simp] theorem size_ofString (str : Buffer) : (ofString str).size = str.length := by
  simp [ofString, size]

@[simp] theorem bytes_ofBufferList (b : BufferList) :
    (ofBufferList b).bytes = b.concatenate := rfl

end BufferViewList

/-- Discarding takes exactly the first `n` bytes, wherever the pieces end, and fails only
when there are fewer. -/
theorem dropPieces_spec (pieces : List Buffer) (n : Nat) :
    (n ≤ pieces.flatten.length ∧
        ∃ rest, dropPieces pieces n = .ok rest ∧ rest.flatten = pieces.flatten.drop n) ∨
      (pieces.flatten.length < n ∧
        dropPieces pieces n = .error (.outOfRange "BufferListView::remove_prefix")) := by
  induction pieces generalizing n with
  | nil =>
      cases n with
      | zero => exact Or.inl ⟨Nat.zero_le _, [], rfl, rfl⟩
      | succ n => exact Or.inr ⟨Nat.succ_pos n, rfl⟩
  | cons piece rest ih =>
      cases n with
      | zero => exact Or.inl ⟨Nat.zero_le _, piece :: rest, by simp [dropPieces], rfl⟩
      | succ n =>
          rw [List.flatten_cons, List.length_append]
          by_cases hshort : n + 1 < piece.length
          · refine Or.inl ⟨by omega, piece.drop (n + 1) :: rest, ?_, ?_⟩
            · simp [dropPieces, hshort]
            · rw [List.flatten_cons, List.drop_append_of_le_length hshort.le]
          -- the whole piece goes, and the rest pays for what is left of `n`
          · have hlen : piece.length ≤ n + 1 := Nat.le_of_not_lt hshort
            have hstep : dropPieces (piece :: rest) (n + 1) =
                dropPieces rest (n + 1 - piece.length) := by
              simp [dropPieces, hshort]
            rw [hstep]
            rcases ih (n + 1 - piece.length) with ⟨hle, left, hok, hleft⟩ | ⟨hlt, herror⟩
            · refine Or.inl ⟨by omega, left, hok, ?_⟩
              rw [hleft, List.drop_append, List.drop_eq_nil_of_le hlen, List.nil_append]
            · exact Or.inr ⟨by omega, herror⟩

theorem BufferViewList.removePrefix_of_le {b : BufferViewList} {n : Nat} (h : n ≤ b.size) :
    ∃ rest, b.removePrefix n = .ok rest ∧ rest.bytes = b.bytes.drop n := by
  have hle : n ≤ b.views.flatten.length := by
    rw [← b.length_bytes] at h
    exact h
  rcases dropPieces_spec b.views n with
    ⟨-, left, hok, hleft⟩ | ⟨hlt, -⟩
  · refine ⟨⟨left⟩, ?_, hleft⟩
    rw [removePrefix, hok]
    rfl
  · omega

/-! ## Descriptors -/

/-- What the kernel does when it is asked to read up to `n` bytes of an open file, or to
write the bytes of some views to it. -/
class KernelFile (κ : Type) where
  read : κ → Nat → SysResult (List Byte) × κ
  writev : κ → BufferViewList → SysResult Nat × κ

/-- `FDWrapper`. -/
structure FDWrapper where
  fd : Nat
  eof : Bool := false
  closed : Bool := false
  readCount : UInt32 := 0
  writeCount : UInt32 := 0
deriving DecidableEq, Repr

structure FileDescriptor (κ : Type) extends FDWrapper where
  /-- what the kernel keeps for it -/
  file : κ
deriving DecidableEq, Repr

namespace FileDescriptor

variable {κ : Type}

/-- A system call on the descriptor. -/
def sys {α : Type} (attempt : String) (op : κ → SysResult α × κ) :
    EStateM Exception (FileDescriptor κ) α := do
  let fd ← get
  set { fd with file := (op fd.file).2 }
  Program.call (systemCall attempt (op fd.file).1)

def registerRead : EStateM Exception (FileDescriptor κ) Unit :=
  modify fun fd => { fd with readCount := fd.readCount + 1 }

def registerWrite : EStateM Exception (FileDescriptor κ) Unit :=
  modify fun fd => { fd with writeCount := fd.writeCount + 1 }

/-- The maximum size of a read. -/
def bufferSize : Nat := 1024 * 1024

/-- The default `limit`. -/
def noLimit : Nat := 2 ^ 64 - 1

def read [KernelFile κ] (limit : Nat) : EStateM Exception (FileDescriptor κ) (List Byte) := do
  let sizeToRead := min bufferSize limit
  let str ← sys "read" fun file => KernelFile.read file sizeToRead
  if 0 < limit ∧ str.length = 0 then
    modify fun fd => { fd with eof := true }
  if str.length > sizeToRead then
    throw (.runtime ⟨"read() read more than requested"⟩)
  registerRead
  return str

/-- The `do`-loop of `write`, of which at most `fuel` rounds are run. -/
def writeLoop [KernelFile κ] (writeAll : Bool) :
    Nat → BufferViewList → Nat → EStateM Exception (FileDescriptor κ) Nat
  | 0, _, totalBytesWritten => return totalBytesWritten
  | fuel + 1, buffer, totalBytesWritten => do
      let bytesWritten ← sys "writev" fun file => KernelFile.writev file buffer
      if bytesWritten = 0 ∧ buffer.size ≠ 0 then
        throw (.runtime ⟨"write returned 0 given non-empty input buffer"⟩)
      if bytesWritten > buffer.size then
        throw (.runtime ⟨"write wrote more than length of input buffer"⟩)
      registerWrite
      let rest ← Program.call (buffer.removePrefix bytesWritten)
      if writeAll ∧ rest.size ≠ 0 then
        writeLoop writeAll fuel rest (totalBytesWritten + bytesWritten)
      else
        return totalBytesWritten + bytesWritten

/-- Every round but the last writes something, so `size` and one more are enough. -/
def write [KernelFile κ] (buffer : BufferViewList) (writeAll : Bool) :
    EStateM Exception (FileDescriptor κ) Nat :=
  writeLoop writeAll (buffer.size + 1) buffer 0

end FileDescriptor
end Sponge

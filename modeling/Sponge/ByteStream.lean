import Sponge.Lib.Word

/-!
# The flow-controlled byte stream

`ByteStream` of `byte_stream.hh` and `byte_stream.cc`, field by field and
method by method.  The field `size` is kept apart from the length of `buffer`,
as in the source; `ByteStream.Valid` says that the two agree and stay within
the capacity, so that `capcity-size` never wraps.  The running totals are
`size_t` and wrap at `2 ^ 64`.
-/

namespace Sponge

/-- A byte of a stream, a segment or a datagram. -/
abbrev Byte := UInt8

/-- The private members of the source class. -/
structure ByteStream where
  buffer : List Byte := []
  capcity : Nat
  size : Nat := 0
  inputEnd : Bool := false
  totoalWrite : Nat := 0
  totoalRead : Nat := 0
  error : Bool := false
deriving DecidableEq, Repr

namespace ByteStream

/-- Append as much of `data` as fits; the number of accepted bytes is returned. -/
def write (s : ByteStream) (data : List Byte) : ByteStream × Nat :=
  let addsize := min data.length (s.capcity - s.size)
  ({ s with
      buffer := s.buffer ++ data.take addsize
      size := s.size + addsize
      totoalWrite := Word.add 64 s.totoalWrite addsize }, addsize)

/-- The next `len` bytes, without removing them. -/
def peekOutput (s : ByteStream) (len : Nat) : List Byte :=
  s.buffer.take (min s.size len)

/-- Remove the next `len` bytes. -/
def popOutput (s : ByteStream) (len : Nat) : ByteStream :=
  let outsize := min s.size len
  { s with
    buffer := s.buffer.drop outsize
    size := s.size - outsize
    totoalRead := Word.add 64 s.totoalRead outsize }

/-- Copy and remove the next `len` bytes. -/
def read (s : ByteStream) (len : Nat) : ByteStream × List Byte :=
  let outsize := min s.size len
  ({ s with
      buffer := s.buffer.drop outsize
      size := s.size - outsize
      totoalRead := Word.add 64 s.totoalRead outsize }, s.buffer.take outsize)

def endInput (s : ByteStream) : ByteStream :=
  { s with inputEnd := true }

def setError (s : ByteStream) : ByteStream :=
  { s with error := true }

def inputEnded (s : ByteStream) : Bool := s.inputEnd

def bufferSize (s : ByteStream) : Nat := s.size

def bufferEmpty (s : ByteStream) : Bool := s.size == 0

def eof (s : ByteStream) : Bool := s.inputEnd && s.size == 0

def bytesWritten (s : ByteStream) : Nat := s.totoalWrite

def bytesRead (s : ByteStream) : Nat := s.totoalRead

def remainingCapacity (s : ByteStream) : Nat := s.capcity - s.size

/-- The cached size is the length of the buffer and respects the capacity. -/
structure Valid (s : ByteStream) : Prop where
  size_eq : s.size = s.buffer.length
  size_le : s.size ≤ s.capcity

theorem valid_new (capacity : Nat) : Valid { capcity := capacity } :=
  ⟨rfl, Nat.zero_le _⟩

/-- The bytes a call of `write` accepts. -/
def accepted (s : ByteStream) (data : List Byte) : List Byte :=
  data.take (min data.length (s.capcity - s.size))

theorem accepted_of_fits {s : ByteStream} {data : List Byte}
    (h : data.length ≤ s.capcity - s.size) : s.accepted data = data := by
  rw [accepted, min_eq_left h, List.take_length]

section Write

variable (s : ByteStream) (data : List Byte)

@[simp] theorem length_accepted :
    (s.accepted data).length = min data.length (s.capcity - s.size) := by
  simp [accepted]

@[simp] theorem write_buffer : (s.write data).1.buffer = s.buffer ++ s.accepted data := rfl

@[simp] theorem write_size : (s.write data).1.size = s.size + (s.accepted data).length := by
  simp [write]

@[simp] theorem write_totoalWrite :
    (s.write data).1.totoalWrite = Word.add 64 s.totoalWrite (s.accepted data).length := by
  simp [write]

@[simp] theorem write_count : (s.write data).2 = (s.accepted data).length := by
  simp [write]

@[simp] theorem write_capcity : (s.write data).1.capcity = s.capcity := rfl

@[simp] theorem write_inputEnd : (s.write data).1.inputEnd = s.inputEnd := rfl

@[simp] theorem write_totoalRead : (s.write data).1.totoalRead = s.totoalRead := rfl

@[simp] theorem write_error : (s.write data).1.error = s.error := rfl

theorem Valid.write {s : ByteStream} (h : s.Valid) : (s.write data).1.Valid := by
  have hsize := h.size_eq
  have hle := h.size_le
  constructor
  · simp [hsize]
  · simp
    omega

end Write

section Read

variable (s : ByteStream) (len : Nat)

theorem read_buffer (h : s.Valid) : (s.read len).1.buffer = s.buffer.drop len := by
  have hsize := h.size_eq
  rcases le_total s.buffer.length len with hle | hle
  · simp [read, hsize, hle]
  · simp [read, hsize, min_eq_right hle]

theorem read_bytes (h : s.Valid) : (s.read len).2 = s.buffer.take len := by
  have hsize := h.size_eq
  rcases le_total s.buffer.length len with hle | hle
  · simp [read, hsize, hle]
  · simp [read, hsize, min_eq_right hle]

@[simp] theorem read_size : (s.read len).1.size = s.size - len := by
  simp [read]
  omega

@[simp] theorem read_totoalRead :
    (s.read len).1.totoalRead = Word.add 64 s.totoalRead (min s.size len) := rfl

@[simp] theorem read_capcity : (s.read len).1.capcity = s.capcity := rfl

@[simp] theorem read_inputEnd : (s.read len).1.inputEnd = s.inputEnd := rfl

@[simp] theorem read_totoalWrite : (s.read len).1.totoalWrite = s.totoalWrite := rfl

@[simp] theorem read_error : (s.read len).1.error = s.error := rfl

theorem Valid.read {s : ByteStream} (h : s.Valid) : (s.read len).1.Valid := by
  have hsize := h.size_eq
  have hle := h.size_le
  constructor
  · rw [read_size, read_buffer _ _ h, hsize, List.length_drop]
  · simp
    omega

end Read

@[simp] theorem endInput_buffer (s : ByteStream) : s.endInput.buffer = s.buffer := rfl

@[simp] theorem endInput_size (s : ByteStream) : s.endInput.size = s.size := rfl

@[simp] theorem endInput_capcity (s : ByteStream) : s.endInput.capcity = s.capcity := rfl

@[simp] theorem endInput_inputEnd (s : ByteStream) : s.endInput.inputEnd = true := rfl

@[simp] theorem endInput_totoalWrite (s : ByteStream) :
    s.endInput.totoalWrite = s.totoalWrite := rfl

@[simp] theorem endInput_totoalRead (s : ByteStream) :
    s.endInput.totoalRead = s.totoalRead := rfl

@[simp] theorem endInput_error (s : ByteStream) : s.endInput.error = s.error := rfl

theorem Valid.endInput {s : ByteStream} (h : s.Valid) : s.endInput.Valid :=
  ⟨h.size_eq, h.size_le⟩

theorem Valid.setError {s : ByteStream} (h : s.Valid) : s.setError.Valid :=
  ⟨h.size_eq, h.size_le⟩

end ByteStream
end Sponge

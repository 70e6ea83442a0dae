import Sponge.ByteStream
import Sponge.Lib.OrderedSet

/-!
# The stream reassembler

`StreamReassembler` of `stream_reassembler.hh` and `stream_reassembler.cc`.
The `std::set<node>` is the list of its nodes in iteration order.  The body of
`push_substring` is cut into the steps its comments name: drop a segment that
is wholly outside the window, trim it on both sides, absorb the buffered
segments that overlap or touch it, and commit the result.  Indices are
`size_t`: sums and differences that the source does not guard are 64-bit word
operations.
-/

namespace Sponge

/-- `StreamReassembler::node`: a buffered substring with its inclusive bounds. -/
structure Node where
  startIdx : Nat
  endIdx : Nat
  data : List Byte
deriving DecidableEq, Repr

namespace Node

/-- The constructor; for empty data `end_idx` is one less than `start_idx`. -/
def new (index : Nat) (data : List Byte) : Node where
  startIdx := index
  endIdx := Word.sub 64 (Word.add 64 index data.length) 1
  data := data

/-- `node::operator<`. -/
def lt (a b : Node) : Bool :=
  if a.startIdx ≠ b.startIdx then decide (a.startIdx < b.startIdx)
  else decide (a.endIdx < b.endIdx)

/-- `it` overlaps or touches `nd`, as tested in the merge loop. -/
def touches (it nd : Node) : Bool :=
  decide (Word.add 64 it.endIdx 1 ≥ nd.startIdx ∧ Word.add 64 nd.endIdx 1 ≥ it.startIdx)

end Node

structure StreamReassembler where
  outputStream : ByteStream
  capacity : Nat
  segBuffer : List Node := []
  -- UINT32_MAX, an index that the stream itself can reach
  inputEndIdx : Nat := 4294967295
  curIdx : Nat := 0
  unassembledBytes : Nat := 0
deriving DecidableEq, Repr

namespace StreamReassembler

def new (capacity : Nat) : StreamReassembler where
  outputStream := { capcity := capacity }
  capacity := capacity

/-- Extend `b` by what `a` has to its left and to its right; where the two
overlap, the bytes of `b` are kept. -/
def mergeTo (a b : Node) : Node :=
  let b :=
    if a.startIdx < b.startIdx then
      { b with
        data := a.data.take (b.startIdx - a.startIdx) ++ b.data
        startIdx := a.startIdx }
    else b
  if a.endIdx > b.endIdx then
    { b with
      data := b.data ++ a.data.drop (a.data.length - (a.endIdx - b.endIdx))
      endIdx := a.endIdx }
  else b

/-- The merge loop, from the iterator's position to the end of the set.
Returns the grown node, the byte counter and what is left of the set there. -/
def absorb : Node → Nat → List Node → Node × Nat × List Node
  | nd, unassembled, [] => (nd, unassembled, [])
  | nd, unassembled, it :: rest =>
      if it.touches nd then
        absorb (mergeTo it nd) (unassembled - it.data.length) rest
      else if it.startIdx > nd.endIdx then
        (nd, unassembled, it :: rest)
      else
        -- only the predecessor of the bound can lie before `nd`; it stays where it is
        let result := absorb nd unassembled rest
        (result.1, result.2.1, it :: result.2.2)

/-- Largest index the window admits. -/
def maxIdx (r : StreamReassembler) : Nat :=
  Word.sub 64 (Word.sub 64 (Word.add 64 r.curIdx r.capacity) r.outputStream.bufferSize) 1

/-- End the output when the cursor has reached the recorded end. -/
def endIfReached (r : StreamReassembler) : StreamReassembler :=
  if r.curIdx ≥ r.inputEndIdx then { r with outputStream := r.outputStream.endInput } else r

/-- Cut off what lies left of the cursor. -/
def trimLeft (curIdx : Nat) (nd : Node) : Node :=
  if nd.startIdx < curIdx then
    { nd with data := nd.data.drop (curIdx - nd.startIdx), startIdx := curIdx }
  else nd

/-- Cut off what lies right of the window. -/
def trimRight (maxIdx : Nat) (nd : Node) : Node :=
  if nd.endIdx > maxIdx then
    { nd with data := nd.data.take (nd.data.length - (nd.endIdx - maxIdx)), endIdx := maxIdx }
  else nd

/-- Absorb every buffered node that touches `nd`, starting at the predecessor
of `upper_bound(nd)`. -/
def absorbBuffered (r : StreamReassembler) (nd : Node) : StreamReassembler × Node :=
  let before := OrderedSet.belowBound Node.lt nd r.segBuffer
  let after := OrderedSet.fromBound Node.lt nd r.segBuffer
  let result := absorb nd r.unassembledBytes (before.getLast?.toList ++ after)
  ({ r with
      segBuffer := before.dropLast ++ result.2.2
      unassembledBytes := result.2.1 }, result.1)

/-- Write the node to the output if it starts at the cursor, buffer it otherwise. -/
def commit (r : StreamReassembler) (nd : Node) : StreamReassembler :=
  if nd.startIdx = r.curIdx then
    endIfReached
      { r with
        outputStream := (r.outputStream.write nd.data).1
        curIdx := Word.add 64 nd.endIdx 1 }
  else
    { r with
      segBuffer := OrderedSet.insertUnique Node.lt nd r.segBuffer
      unassembledBytes := r.unassembledBytes + nd.data.length }

/-- Receive a substring and write any newly contiguous bytes.  Irreducible, so
that proofs go through its specification. -/
@[irreducible] def pushSubstring (r : StreamReassembler) (data : List Byte) (index : Nat)
    (eof : Bool) : StreamReassembler :=
  let maxIdx := r.maxIdx
  -- the end is recorded even if the slice is then dropped
  let r := if eof then { r with inputEndIdx := Word.add 64 index data.length } else r
  let nd := Node.new index data
  if r.curIdx > nd.endIdx ∨ nd.startIdx > maxIdx ∨ data = [] then
    endIfReached r
  else
    let nd := trimRight maxIdx (trimLeft r.curIdx nd)
    let absorbed := absorbBuffered r nd
    commit absorbed.1 absorbed.2

def streamOut (r : StreamReassembler) : ByteStream := r.outputStream

def empty (r : StreamReassembler) : Bool := r.unassembledBytes == 0

end StreamReassembler
end Sponge

import Sponge.Sender.Outstanding

/-!
# The outstanding segments tile what is in flight

Three records of the sender describe what is in flight: the numbers
`cur_ack_index` and `next_seqno`, the deque of outstanding segments with the
numbers that acknowledge them, and the sequence number inside each segment.  They
are written in different methods.  `Tiles` says how they fit: read from the
front, each segment starts where the one before it ended, the first one at
`cur_ack_index`, and the last one ends at `next_seqno`.  An acknowledgment that
stops inside a segment leaves that segment, and `cur_ack_index` at its start.
-/

namespace Sponge
namespace TCPSender

/-- The nodes tile the numbers from `start` up to `stop`: each of them occupies
at least one number, carries the number it starts at, and is acknowledged by the
number at which the next one starts. -/
inductive Tiles (isn : WrappingInt32) : Nat → Nat → List SegNode → Prop
  | nil (stop : Nat) : Tiles isn stop stop []
  | cons {start stop : Nat} {node : SegNode} {rest : List SegNode}
      (hseqno : node.seg.header.seqno = wrap start isn)
      (hpos : 1 ≤ node.seg.lengthInSequenceSpace)
      (hack : node.ackIndex = start + node.seg.lengthInSequenceSpace)
      (hrest : Tiles isn node.ackIndex stop rest) : Tiles isn start stop (node :: rest)

/-- Sequence space occupied by the segments of some nodes. -/
def nodesLength (nodes : List SegNode) : Nat :=
  (nodes.map fun node => node.seg.lengthInSequenceSpace).sum

section Tiles

variable {isn : WrappingInt32} {start stop : Nat} {nodes : List SegNode}

/-- A tiling covers its interval once. -/
theorem Tiles.stop_eq (h : Tiles isn start stop nodes) : stop = start + nodesLength nodes := by
  induction h with
  | nil stop => rfl
  | @cons start stop node rest _ _ hack _ ih =>
      rw [ih, hack, nodesLength, nodesLength, List.map_cons, List.sum_cons, Nat.add_assoc]

theorem Tiles.length_pos (h : Tiles isn start stop nodes) :
    ∀ node ∈ nodes, 1 ≤ node.seg.lengthInSequenceSpace := by
  induction h with
  | nil => simp
  | cons _ hpos _ _ ih =>
      rw [List.forall_mem_cons]
      exact ⟨hpos, ih⟩

end Tiles

section Sent

variable {s : TCPSender} {isn : WrappingInt32} {whole : List Byte} {firsts : List TCPSegment}
  {n : Nat} {fin : Bool}

/-- The sequence number of a segment counts the numbers used before it, the SYN
included. -/
theorem FirstSent.seqno_eq (h : FirstSent isn whole firsts n fin)
    {before after : List TCPSegment} {seg : TCPSegment}
    (hsplit : firsts = before ++ seg :: after) :
    seg.header.seqno = wrap (span before) isn := by
  rcases h with ⟨hnil, -, -⟩ | ⟨rest, hsyn, hcarries⟩
  · rw [hnil] at hsplit
    exact absurd hsplit (by simp)
  · rw [hsyn] at hsplit
    cases before with
    | nil =>
        obtain ⟨hseg, -⟩ := List.cons.inj hsplit
        rw [← hseg]
        rfl
    | cons first before =>
        obtain ⟨hseg, hrest⟩ := List.cons.inj hsplit
        obtain ⟨payload, flag, heq, -⟩ := hcarries.start_eq hrest
        rw [heq, span_cons, ← hseg]
        rfl

/-- What was sent from some point on tiles the numbers from there on. -/
theorem FirstSent.tiles (h : FirstSent isn whole firsts n fin) {pending : List TCPSegment} :
    ∀ {done : List TCPSegment}, firsts = done ++ pending →
      Tiles isn (span done) (span firsts) (nodesFrom (span done) pending) := by
  induction pending with
  | nil =>
      intro done hsplit
      rw [hsplit, List.append_nil]
      exact .nil _
  | cons seg pending ih =>
      intro done hsplit
      have hspan : span (done ++ [seg]) = span done + seg.lengthInSequenceSpace := by simp
      have hsplit' : firsts = (done ++ [seg]) ++ pending := by
        rw [hsplit, List.append_assoc]
        rfl
      have hrest := ih hsplit'
      rw [hspan] at hrest
      refine .cons (h.seqno_eq hsplit) (h.length_pos seg ?_) rfl hrest
      rw [hsplit]
      exact List.mem_append_right _ List.mem_cons_self

/-- The invariant of the outstanding segments. -/
theorem Sent.tiles (h : Sent s whole firsts n fin) :
    Tiles s.isn s.curAckIndex s.nextSeqno s.segBuffer := by
  obtain ⟨done, pending, hsplit, hcur, hbuf⟩ := h.outstanding
  rw [hbuf, hcur, h.next]
  exact h.shape.tiles hsplit

end Sent

end TCPSender

open TCPSender

/-- **The outstanding segments tile what is in flight**, in every reachable state of
a sender: they occupy the numbers from `cur_ack_index` to `next_seqno` without gap
or overlap, so `bytes_in_flight` is their total length. -/
theorem outstanding_segments_tile {capacity : Nat} {retxTimeout : UInt16} {isn : WrappingInt32}
    {h : SenderRun} (hr : SenderRun.Reached capacity retxTimeout isn h) :
    Tiles h.sender.isn h.sender.curAckIndex h.sender.nextSeqno h.sender.segBuffer ∧
      h.sender.segBuffer.Pairwise (fun a b => a.ackIndex < b.ackIndex) ∧
      (∀ node ∈ h.sender.segBuffer, 1 ≤ node.seg.lengthInSequenceSpace) ∧
      h.sender.curAckIndex ≤ h.sender.nextSeqno ∧
      h.sender.bytesInFlight = h.sender.nextSeqno - h.sender.curAckIndex ∧
      h.sender.bytesInFlight = nodesLength h.sender.segBuffer := by
  obtain ⟨-, n, fin, hsent⟩ := hr.consistent
  have htiles := hsent.tiles
  have hstop := htiles.stop_eq
  have hflight := hsent.inFlight
  exact ⟨htiles, hsent.buffer_increasing, htiles.length_pos, hsent.cur_le, hflight, by omega⟩

/-- After an acknowledgment of three of the five bytes of a segment, the whole
segment is still in flight. -/
theorem outstanding_segments_tile_partial :
    Tiles ⟨7⟩ 1 6 [⟨segment ⟨7⟩ 1 [97, 98, 99, 100, 101] false false, 6⟩] := by
  generalize hrun : Run.exec SenderRun.step (SenderRun.start 10 1000 ⟨7⟩)
    [.fillWindow, .ackReceived ⟨8⟩ 9, .write [97, 98, 99, 100, 101], .fillWindow,
      .ackReceived ⟨11⟩ 9] = h
  have hreached : SenderRun.Reached 10 1000 ⟨7⟩ h := by
    rw [← hrun]
    exact Run.Reach.exec .start (by decide +kernel)
  have htile := (outstanding_segments_tile hreached).1
  have hisn : h.sender.isn = ⟨7⟩ := by rw [← hrun]; decide +kernel
  have hcur : h.sender.curAckIndex = 1 := by rw [← hrun]; decide +kernel
  have hnext : h.sender.nextSeqno = 6 := by rw [← hrun]; decide +kernel
  have hbuf : h.sender.segBuffer =
      [⟨segment ⟨7⟩ 1 [97, 98, 99, 100, 101] false false, 6⟩] := by rw [← hrun]; decide +kernel
  rwa [hisn, hcur, hnext, hbuf] at htile

end Sponge

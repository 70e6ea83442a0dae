import Sponge.FileDescriptor.Writes
import Sponge.TCPSpongeSocket

/-!
# The pair of stream sockets

What the thread's end of the pair keeps however the kernel cuts reads and writes: a read
takes bytes from the front of what the owner has written, a write appends a prefix of
what it is given to what the owner will read, and neither touches the other direction.
-/

namespace Sponge

open Program

namespace StreamEnd

/-- Nothing that is written here will be read. -/
def Unread (file : StreamEnd) : Prop :=
  file.outboundEnd = true ∨ file.ownerGone = true

/-- All that a write can do: there is nothing to write, nobody can read it, the kernel has no
room, or it takes the first bytes. -/
theorem writev_cases (file : StreamEnd) (buffer : BufferViewList) :
    (KernelFile.writev file buffer = (.returns 0, file) ∧ buffer.size = 0) ∨
      (KernelFile.writev file buffer = (.kills sigpipe, file) ∧ file.Unread) ∨
      KernelFile.writev file buffer = (.fails eagain, { file with grants := file.grants.tail }) ∨
      ∃ n, KernelFile.writev file buffer = (.returns n, { file with
        outbound := file.outbound ++ buffer.bytes.take n
        grants := file.grants.tail }) ∧ 0 < n ∧ n ≤ buffer.size := by
  show (writev file buffer = _ ∧ _) ∨ (writev file buffer = _ ∧ _) ∨ writev file buffer = _ ∨
    ∃ n, writev file buffer = _ ∧ _
  unfold writev
  split
  · next hempty => exact Or.inl ⟨rfl, hempty⟩
  split
  · next hunread => exact Or.inr (Or.inl ⟨rfl, hunread⟩)
  simp only
  split
  · exact Or.inr (Or.inr (Or.inl rfl))
  · next hsome =>
    exact Or.inr (Or.inr (Or.inr ⟨_, rfl, Nat.pos_of_ne_zero hsome, min_le_left _ _⟩))

/-- The thread's end is a stream: what the owner will read only grows at its end. -/
theorem stream_outbound : FileDescriptor.Stream StreamEnd.outbound where
  returns := by
    intro file buffer n file' hcall
    rcases writev_cases file buffer with ⟨h, -⟩ | ⟨h, -⟩ | h | ⟨k, h, -, hk⟩
    · cases h.symm.trans hcall
      exact ⟨Nat.zero_le _, by simp⟩
    · cases h.symm.trans hcall
    · cases h.symm.trans hcall
    · cases h.symm.trans hcall
      exact ⟨hk, rfl⟩
  fails := by
    intro file buffer errno file' hcall
    rcases writev_cases file buffer with ⟨h, -⟩ | ⟨h, -⟩ | h | ⟨k, h, -⟩
    · cases h.symm.trans hcall
    · cases h.symm.trans hcall
    · cases h.symm.trans hcall
      rfl
    · cases h.symm.trans hcall
  kills := by
    intro file buffer signal file' hcall
    rcases writev_cases file buffer with ⟨h, -⟩ | ⟨h, -⟩ | h | ⟨k, h, -⟩
    · cases h.symm.trans hcall
    · cases h.symm.trans hcall
      rfl
    · cases h.symm.trans hcall
    · cases h.symm.trans hcall

/-- It takes some of what there is, or refuses. -/
theorem writev_some (file : StreamEnd) (buffer : BufferViewList) (n : Nat) (file' : StreamEnd)
    (hcall : KernelFile.writev file buffer = (.returns n, file')) :
    n ≤ buffer.size ∧ (n = 0 → buffer.size = 0) := by
  rcases writev_cases file buffer with ⟨h, hempty⟩ | ⟨h, -⟩ | h | ⟨k, h, hpos, hk⟩
  · cases h.symm.trans hcall
    exact ⟨Nat.zero_le _, fun _ => hempty⟩
  · cases h.symm.trans hcall
  · cases h.symm.trans hcall
  · cases h.symm.trans hcall
    exact ⟨hk, fun hzero => absurd hzero hpos.ne'⟩

/-- Only a write that nobody can read kills the process. -/
theorem writev_kills (file : StreamEnd) (buffer : BufferViewList) (signal : Nat)
    (file' : StreamEnd) (hcall : KernelFile.writev file buffer = (.kills signal, file')) :
    signal = sigpipe ∧ file'.Unread := by
  rcases writev_cases file buffer with ⟨h, -⟩ | ⟨h, hunread⟩ | h | ⟨k, h, -⟩
  · cases h.symm.trans hcall
  · cases h.symm.trans hcall
    exact ⟨rfl, hunread⟩
  · cases h.symm.trans hcall
  · cases h.symm.trans hcall

/-- The half of the pair that runs from the owner, and the ends of both. -/
structure SameInbound (file file' : StreamEnd) : Prop where
  consumed : file'.consumed = file.consumed
  inbound : file'.inbound = file.inbound
  inboundEnd : file'.inboundEnd = file.inboundEnd
  outboundEnd : file'.outboundEnd = file.outboundEnd
  ownerGone : file'.ownerGone = file.ownerGone

theorem sameInbound_writev (file : StreamEnd) (buffer : BufferViewList) :
    SameInbound file (KernelFile.writev file buffer).2 := by
  rcases writev_cases file buffer with ⟨h, -⟩ | ⟨h, -⟩ | h | ⟨k, h, -⟩
  · rw [h]
    exact ⟨rfl, rfl, rfl, rfl, rfl⟩
  · rw [h]
    exact ⟨rfl, rfl, rfl, rfl, rfl⟩
  · rw [h]
    exact ⟨rfl, rfl, rfl, rfl, rfl⟩
  · rw [h]
    exact ⟨rfl, rfl, rfl, rfl, rfl⟩

theorem SameInbound.trans {file file' file'' : StreamEnd} (h : SameInbound file file')
    (h' : SameInbound file' file'') : SameInbound file file'' :=
  ⟨h'.consumed.trans h.consumed, h'.inbound.trans h.inbound, h'.inboundEnd.trans h.inboundEnd,
    h'.outboundEnd.trans h.outboundEnd, h'.ownerGone.trans h.ownerGone⟩

end StreamEnd

/-- The thread has read `data` from its owner. -/
structure PipeRead (fd fd' : FileDescriptor StreamEnd) (limit : Nat) (data : List Byte) :
    Prop where
  consumed : fd'.file.consumed = fd.file.consumed ++ data
  inbound : fd.file.inbound = data ++ fd'.file.inbound
  inboundEnd : fd'.file.inboundEnd = fd.file.inboundEnd
  outbound : fd'.file.outbound = fd.file.outbound
  outboundEnd : fd'.file.outboundEnd = fd.file.outboundEnd
  length : data.length ≤ limit
  eof : fd'.eof = (fd.eof || decide (0 < limit ∧ data = []))
  atEnd : 0 < limit → data = [] → fd.file.inboundEnd = true ∧ fd.file.inbound = []
  closed : fd'.closed = fd.closed
  readCount : fd'.readCount = fd.readCount + 1

/-- A read fails only when there is nothing to read yet, and then changes nothing. -/
theorem pipeRead_spec (fd : FileDescriptor StreamEnd) (limit : Nat) :
    Yields (FileDescriptor.read limit) fd (fun data fd' => PipeRead fd fd' limit data)
      (fun e fd' => e = .unix "read" eagain ∧ fd' = fd) := by
  have hmin : min FileDescriptor.bufferSize limit ≤ limit := min_le_right _ _
  rw [FileDescriptor.read, yields_bind]
  -- the three answers of the kernel
  have hread : (∃ data file', KernelFile.read fd.file (min FileDescriptor.bufferSize limit) =
        (.returns data, file') ∧ data.length ≤ min FileDescriptor.bufferSize limit ∧
        file'.consumed = fd.file.consumed ++ data ∧ fd.file.inbound = data ++ file'.inbound ∧
        StreamEnd.inboundEnd file' = fd.file.inboundEnd ∧ file'.outbound = fd.file.outbound ∧
        file'.outboundEnd = fd.file.outboundEnd ∧
        (0 < limit → data = [] → fd.file.inboundEnd = true ∧ fd.file.inbound = [])) ∨
      KernelFile.read fd.file (min FileDescriptor.bufferSize limit) = (.fails eagain, fd.file) := by
    generalize hn : min FileDescriptor.bufferSize limit = n
    show (∃ data file', StreamEnd.read fd.file n = (.returns data, file') ∧ _) ∨
      StreamEnd.read fd.file n = (.fails eagain, fd.file)
    have hzero : n = 0 → limit = 0 := by
      intro h0
      have hbuf : 0 < FileDescriptor.bufferSize := by decide
      omega
    unfold StreamEnd.read
    split
    · next h0 =>
      refine Or.inl ⟨[], fd.file, rfl, Nat.zero_le _, by simp, by simp, rfl, rfl, rfl, ?_⟩
      intro hpos
      have := hzero h0
      omega
    split
    · next hempty =>
      split
      · next hend =>
        exact Or.inl ⟨[], fd.file, rfl, Nat.zero_le _, by simp, by simp, rfl, rfl, rfl,
          fun _ _ => ⟨hend, hempty⟩⟩
      · exact Or.inr rfl
    · next hpos hsome =>
      refine Or.inl ⟨_, _, rfl, ?_, rfl, (List.take_append_drop _ _).symm, rfl, rfl, rfl, ?_⟩
      · rw [List.length_take]
        exact le_trans (min_le_left _ _) (min_le_left _ _)
      · intro _ htake
        rw [List.take_eq_nil_iff] at htake
        rcases htake with h0 | hnil
        · omega
        · exact absurd hnil hsome
  rcases hread with ⟨data, file', hcall, hlen, hconsumed, hinbound, hend, hout, houtEnd, hatEnd⟩ |
    hcall
  · rw [FileDescriptor.yields_sys_of_returns hcall]
    have hnot : ¬ data.length > min FileDescriptor.bufferSize limit := Nat.not_lt.mpr hlen
    have hwhen : (0 < limit ∧ data.length = 0) ↔ (0 < limit ∧ data = []) := by
      rw [List.length_eq_zero_iff]
    simp only [if_neg hnot, FileDescriptor.registerRead, yields_bind, yields_ite, yields_pure,
      yields_modify]
    split
    · next heof =>
      exact ⟨hconsumed, hinbound, hend, hout, houtEnd, le_trans hlen hmin,
        by simp [hwhen.mp heof], hatEnd, rfl, rfl⟩
    · next heof =>
      refine ⟨hconsumed, hinbound, hend, hout, houtEnd, le_trans hlen hmin, ?_, hatEnd, rfl, rfl⟩
      have hno : ¬ (0 < limit ∧ data = []) := fun h => heof (hwhen.mpr h)
      simp [hno]
  · rw [FileDescriptor.yields_sys_of_fails hcall]
    exact ⟨rfl, rfl⟩

/-- The thread has written the first `n` of the bytes for its owner. -/
structure PipeWritten (fd fd' : FileDescriptor StreamEnd) (bytes : List Byte) (n : Nat) :
    Prop where
  le : n ≤ bytes.length
  some : bytes ≠ [] → 0 < n
  outbound : fd'.file.outbound = fd.file.outbound ++ bytes.take n
  same : StreamEnd.SameInbound fd.file fd'.file
  eof : fd'.eof = fd.eof
  closed : fd'.closed = fd.closed
  writeCount : fd'.writeCount = fd.writeCount + 1

/-- A partial write that fails, or kills the process, has written nothing. -/
structure PipeUnwritten (e : Exception) (fd fd' : FileDescriptor StreamEnd) : Prop where
  cause : (∃ errno, e = .unix "writev" errno) ∨ e = .killed sigpipe ∧ fd'.file.Unread
  outbound : fd'.file.outbound = fd.file.outbound
  same : StreamEnd.SameInbound fd.file fd'.file
  eof : fd'.eof = fd.eof
  closed : fd'.closed = fd.closed

theorem pipeWrite_spec (fd : FileDescriptor StreamEnd) (bytes : List Byte) :
    Yields (FileDescriptor.write (.ofString bytes) false) fd
      (fun n fd' => PipeWritten fd fd' bytes n) (fun e fd' => PipeUnwritten e fd fd') := by
  have hcause := FileDescriptor.write_throws_failure StreamEnd.writev_some StreamEnd.writev_kills
    fd (.ofString bytes) false
  have hsame := FileDescriptor.write_keeps (P := fun file => StreamEnd.SameInbound fd.file file)
    (fun file buffer h => h.trans (StreamEnd.sameInbound_writev file buffer)) fd
    ⟨rfl, rfl, rfl, rfl, rfl⟩ (.ofString bytes) false
  refine ((FileDescriptor.write_takes_prefix StreamEnd.stream_outbound fd (.ofString bytes)
    false).and (hsame.and hcause)).mono ?_ ?_
  · rintro n fd' ⟨⟨rounds, hn⟩, hkeep, -⟩
    have hone : rounds = 1 := by
      have hpos := hn.once
      have hle := hn.rounds_le
      simp only [Bool.false_eq_true, if_false] at hle
      omega
    have hle := hn.le
    have hsome := hn.some
    have htook := hn.took
    simp only [BufferViewList.size_ofString, BufferViewList.bytes_ofString] at hle hsome htook
    refine ⟨hle, fun hne => hsome (List.length_pos_iff.mpr hne), htook.taken, hkeep, htook.eof,
      htook.closed, ?_⟩
    rw [hn.writeCount, hone]
    rfl
  · rintro e fd' ⟨hbroken, hkeep, hcause⟩
    obtain ⟨n, -, hzero, htook⟩ := hbroken.took
    rw [hzero rfl, List.take_zero] at htook
    refine ⟨?_, by rw [htook.taken, List.append_nil], hkeep, htook.eof, htook.closed⟩
    rcases hcause with hunix | ⟨signal, rfl, rfl, hunread⟩
    · exact Or.inl hunix
    · exact Or.inr ⟨rfl, hunread⟩

theorem yields_shutdownWr {fd : FileDescriptor StreamEnd}
    {Q : Unit → FileDescriptor StreamEnd → Prop} {E : Exception → FileDescriptor StreamEnd → Prop} :
    Yields shutdownWr fd Q E ↔ Q () { fd with
      file := { fd.file with outboundEnd := true }, writeCount := fd.writeCount + 1 } := by
  simp [shutdownWr, FileDescriptor.sys, systemCall, FileDescriptor.registerWrite]

end Sponge

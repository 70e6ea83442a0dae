import Sponge.FileDescriptor

/-!
# Reading and writing a descriptor

What `read` and `write` do whatever the kernel answers.  `write` goes through the
views in order however the kernel cuts the writes: what the kernel has taken is at
every moment what it had before and a prefix of the bytes, also when the call throws.
-/

namespace Sponge
namespace FileDescriptor

open Program

variable {κ : Type}

section Sys

variable {α : Type} {attempt : String} {op : κ → SysResult α × κ} {fd : FileDescriptor κ}
  {Q : α → FileDescriptor κ → Prop} {E : Exception → FileDescriptor κ → Prop}

theorem yields_sys_of_returns {value : α} {file : κ} (h : op fd.file = (.returns value, file)) :
    Yields (sys attempt op) fd Q E ↔ Q value { fd with file := file } := by
  simp [sys, h, systemCall]

theorem yields_sys_of_fails {errno : Nat} {file : κ} (h : op fd.file = (.fails errno, file)) :
    Yields (sys attempt op) fd Q E ↔ E (.unix attempt errno) { fd with file := file } := by
  simp [sys, h, systemCall]

theorem yields_sys_of_kills {signal : Nat} {file : κ} (h : op fd.file = (.kills signal, file)) :
    Yields (sys attempt op) fd Q E ↔ E (.killed signal) { fd with file := file } := by
  simp [sys, h, systemCall]

end Sys

/-- What `writev(2)` promises for a file that is a stream: it takes as many of the first
bytes as it returns, and none when it does not return. -/
structure Stream [KernelFile κ] (taken : κ → List Byte) : Prop where
  returns : ∀ file buffer n file', KernelFile.writev file buffer = (.returns n, file') →
    n ≤ buffer.size ∧ taken file' = taken file ++ buffer.bytes.take n
  fails : ∀ file buffer errno file', KernelFile.writev file buffer = (.fails errno, file') →
    taken file' = taken file
  kills : ∀ file buffer signal file', KernelFile.writev file buffer = (.kills signal, file') →
    taken file' = taken file

/-- The kernel has taken `bytes` more; the flags and the count of reads are as before. -/
structure Took (taken : κ → List Byte) (fd fd' : FileDescriptor κ) (bytes : List Byte) :
    Prop where
  taken : taken fd'.file = taken fd.file ++ bytes
  eof : fd'.eof = fd.eof
  closed : fd'.closed = fd.closed
  readCount : fd'.readCount = fd.readCount

theorem Took.trans {taken : κ → List Byte} {fd fd' fd'' : FileDescriptor κ}
    {bytes more : List Byte} (h : Took taken fd fd' bytes) (h' : Took taken fd' fd'' more) :
    Took taken fd fd'' (bytes ++ more) where
  taken := by rw [h'.taken, h.taken, List.append_assoc]
  eof := h'.eof.trans h.eof
  closed := h'.closed.trans h.closed
  readCount := h'.readCount.trans h.readCount

/-- `write` returns the count of what the kernel has taken; `rounds` calls were made. -/
structure Written (taken : κ → List Byte) (fd fd' : FileDescriptor κ) (buffer : BufferViewList)
    (writeAll : Bool) (n rounds : Nat) : Prop where
  le : n ≤ buffer.size
  all : writeAll = true → n = buffer.size
  some : 0 < buffer.size → 0 < n
  took : Took taken fd fd' (buffer.bytes.take n)
  once : 0 < rounds
  rounds_le : rounds ≤ if writeAll then n + 1 else 1
  writeCount : fd'.writeCount = fd.writeCount + rounds.toUInt32

/-- `write` did not return: the kernel refused, killed the process or took nothing; only in a
later round can it have taken something before. -/
structure Broken (taken : κ → List Byte) (fd fd' : FileDescriptor κ) (buffer : BufferViewList)
    (writeAll : Bool) (e : Exception) : Prop where
  cause : e = .runtime ⟨"write returned 0 given non-empty input buffer"⟩ ∨
    (∃ errno, e = .unix "writev" errno) ∨ ∃ signal, e = .killed signal
  took : ∃ n ≤ buffer.size, (writeAll = false → n = 0) ∧ Took taken fd fd' (buffer.bytes.take n)

/-- A round that was not the last, and the rounds after it. -/
theorem Written.cons {taken : κ → List Byte} {fd fd₁ fd' : FileDescriptor κ}
    {buffer rest : BufferViewList} {n m rounds : Nat}
    (hfirst : Took taken fd fd₁ (buffer.bytes.take n)) (hn : n ≤ buffer.size) (hpos : 0 < n)
    (hcount : fd₁.writeCount = fd.writeCount + 1) (hrest : rest.bytes = buffer.bytes.drop n)
    (h : Written taken fd₁ fd' rest true m rounds) :
    Written taken fd fd' buffer true (n + m) (rounds + 1) := by
  have hsize : rest.size = buffer.size - n := by
    rw [← rest.length_bytes, hrest, List.length_drop, buffer.length_bytes]
  have hm := h.le
  have hrounds := h.rounds_le
  exact {
    le := by omega
    all := fun hall => by
      have := h.all hall
      omega
    some := fun _ => Nat.add_pos_left hpos m
    took := by
      have htook := hfirst.trans h.took
      rw [hrest, ← List.take_add] at htook
      exact htook
    once := Nat.succ_pos rounds
    rounds_le := by
      simp only [if_true] at hrounds ⊢
      omega
    writeCount := by
      rw [h.writeCount, hcount]
      have hcast : (rounds + 1).toUInt32 = rounds.toUInt32 + 1 := by
        simp [Nat.toUInt32_eq]
      rw [hcast, UInt32.add_assoc, UInt32.add_comm 1] }

theorem writeLoop_spec [KernelFile κ] {taken : κ → List Byte} (hstream : Stream taken)
    (writeAll : Bool) (fuel : Nat) (buffer : BufferViewList) (total : Nat)
    (fd : FileDescriptor κ) (hfuel : buffer.size < fuel) :
    Yields (writeLoop writeAll fuel buffer total) fd
      (fun r fd' => ∃ n rounds, r = total + n ∧ Written taken fd fd' buffer writeAll n rounds)
      (fun e fd' => Broken taken fd fd' buffer writeAll e) := by
  induction fuel generalizing buffer total fd with
  | zero => exact absurd hfuel (Nat.not_lt_zero _)
  | succ fuel ih =>
      rw [writeLoop, yields_bind]
      cases hcall : KernelFile.writev fd.file buffer with
      | mk answer file =>
          cases answer with
          | fails errno =>
              rw [yields_sys_of_fails hcall]
              refine ⟨Or.inr (Or.inl ⟨errno, rfl⟩), 0, Nat.zero_le _, fun _ => rfl, ?_⟩
              exact ⟨by simp [hstream.fails _ _ _ _ hcall], rfl, rfl, rfl⟩
          | kills signal =>
              rw [yields_sys_of_kills hcall]
              refine ⟨Or.inr (Or.inr ⟨signal, rfl⟩), 0, Nat.zero_le _, fun _ => rfl, ?_⟩
              exact ⟨by simp [hstream.kills _ _ _ _ hcall], rfl, rfl, rfl⟩
          | returns n =>
              obtain ⟨hn, htaken⟩ := hstream.returns _ _ _ _ hcall
              rw [yields_sys_of_returns hcall]
              by_cases hzero : n = 0 ∧ buffer.size ≠ 0
              · rw [if_pos hzero]
                refine ⟨Or.inl rfl, 0, Nat.zero_le _, fun _ => rfl, ?_⟩
                exact ⟨by simp [htaken, hzero.1], rfl, rfl, rfl⟩
              obtain ⟨rest, hremove, hrest⟩ := BufferViewList.removePrefix_of_le hn
              have hsize : rest.size = buffer.size - n := by
                rw [← rest.length_bytes, hrest, List.length_drop, buffer.length_bytes]
              have hfirst : Took taken fd
                  { fd with file := file, writeCount := fd.writeCount + 1 }
                  (buffer.bytes.take n) :=
                ⟨htaken, rfl, rfl, rfl⟩
              simp only [if_neg hzero, if_neg (Nat.not_lt.mpr hn), hremove, registerWrite,
                yields_bind, yields_pure, yields_modify, yields_call_ok, yields_ite]
              by_cases hmore : writeAll = true ∧ rest.size ≠ 0
              · have hpos : 0 < n := by
                  rcases Nat.eq_zero_or_pos n with h0 | hpos
                  · exact absurd ⟨h0, by omega⟩ hzero
                  · exact hpos
                obtain ⟨rfl, hne⟩ := hmore
                rw [if_pos ⟨rfl, hne⟩]
                refine (ih rest (total + n) _ (by omega)).mono ?_ ?_
                · rintro r fd' ⟨m, rounds, rfl, hm⟩
                  exact ⟨n + m, rounds + 1, by omega, hm.cons hfirst hn hpos rfl hrest⟩
                · rintro e fd' ⟨hcause, m, hm, -, htook⟩
                  refine ⟨hcause, n + m, by omega, by simp, ?_⟩
                  have hboth := hfirst.trans htook
                  rw [hrest, ← List.take_add] at hboth
                  exact hboth
              · rw [if_neg hmore]
                refine ⟨n, 1, rfl, ?_⟩
                exact {
                  le := hn
                  all := fun hall => by
                    have hdone : rest.size = 0 := by
                      by_contra hne
                      exact hmore ⟨hall, hne⟩
                    omega
                  some := fun hpos => by
                    rcases Nat.eq_zero_or_pos n with h0 | hpos'
                    · exact absurd ⟨h0, hpos.ne'⟩ hzero
                    · exact hpos'
                  took := hfirst
                  once := Nat.one_pos
                  rounds_le := by split <;> omega
                  writeCount := rfl }

/-- **Partial writes.**  However the kernel cuts the writes, `write` ends: it returns how
many bytes the kernel has taken, which are the first bytes of the buffer in order and, with
`write_all`, all of them; or it throws, because the kernel refused or took nothing, or is
killed, and what the kernel has taken is a prefix all the same.  Nothing else can be thrown. -/
theorem write_takes_prefix [KernelFile κ] {taken : κ → List Byte} (hstream : Stream taken)
    (fd : FileDescriptor κ) (buffer : BufferViewList) (writeAll : Bool) :
    Yields (write buffer writeAll) fd
      (fun n fd' => ∃ rounds, Written taken fd fd' buffer writeAll n rounds)
      (fun e fd' => Broken taken fd fd' buffer writeAll e) := by
  refine (writeLoop_spec hstream writeAll _ buffer 0 fd (Nat.lt_succ_self _)).mono ?_ ?_
  · rintro r fd' ⟨n, rounds, rfl, hn⟩
    rw [Nat.zero_add]
    exact ⟨rounds, hn⟩
  · exact fun e fd' h => h

/-- What every single `writev` leaves true of a file, `write` does. -/
theorem write_keeps [KernelFile κ] {P : κ → Prop}
    (h : ∀ file buffer, P file → P (KernelFile.writev file buffer).2) (fd : FileDescriptor κ)
    (hP : P fd.file) (buffer : BufferViewList) (writeAll : Bool) :
    Yields (write buffer writeAll) fd (fun _ fd' => P fd'.file) (fun _ fd' => P fd'.file) := by
  have hloop : ∀ fuel buffer total fd, P fd.file →
      Yields (writeLoop writeAll fuel buffer total) fd (fun _ fd' => P fd'.file)
        (fun _ fd' => P fd'.file) := by
    intro fuel
    induction fuel with
    | zero => exact fun buffer total fd hfd => hfd
    | succ fuel ih =>
        intro buffer total fd hfd
        have hnow := h fd.file buffer hfd
        rw [writeLoop, yields_bind]
        cases hcall : KernelFile.writev fd.file buffer with
        | mk answer file =>
            rw [hcall] at hnow
            cases answer with
            | fails errno =>
                rw [yields_sys_of_fails hcall]
                exact hnow
            | kills signal =>
                rw [yields_sys_of_kills hcall]
                exact hnow
            | returns n =>
                rw [yields_sys_of_returns hcall]
                simp only [registerWrite, yields_bind, yields_ite, yields_throw, yields_pure,
                  yields_modify, yields_call]
                split
                · exact hnow
                split
                · exact hnow
                refine ⟨fun rest _ => ?_, fun _ _ => hnow⟩
                split
                · exact ih rest (total + n) _ hnow
                · exact hnow
  exact hloop _ buffer 0 fd hP

/-- Where the kernel takes some of what there is, `write` throws only what a failed call
throws, and is killed only where a single `writev` may be. -/
theorem write_throws_failure [KernelFile κ] {mayKill : κ → Nat → Prop}
    (hsome : ∀ (file : κ) buffer n file', KernelFile.writev file buffer = (.returns n, file') →
      n ≤ buffer.size ∧ (n = 0 → buffer.size = 0))
    (hkills : ∀ (file : κ) buffer signal file',
      KernelFile.writev file buffer = (.kills signal, file') → mayKill file' signal)
    (fd : FileDescriptor κ) (buffer : BufferViewList) (writeAll : Bool) :
    Yields (write buffer writeAll) fd (fun _ _ => True)
      (fun e fd' => (∃ errno, e = .unix "writev" errno) ∨
        ∃ signal, e = .killed signal ∧ mayKill fd'.file signal) := by
  have hloop : ∀ fuel buffer total fd,
      Yields (writeLoop writeAll fuel buffer total) fd (fun _ _ => True)
        (fun e (fd' : FileDescriptor κ) => (∃ errno, e = .unix "writev" errno) ∨
          ∃ signal, e = .killed signal ∧ mayKill fd'.file signal) := by
    intro fuel
    induction fuel with
    | zero => exact fun buffer total fd => trivial
    | succ fuel ih =>
        intro buffer total fd
        rw [writeLoop, yields_bind]
        cases hcall : KernelFile.writev fd.file buffer with
        | mk answer file =>
            cases answer with
            | fails errno =>
                rw [yields_sys_of_fails hcall]
                exact Or.inl ⟨errno, rfl⟩
            | kills signal =>
                rw [yields_sys_of_kills hcall]
                exact Or.inr ⟨signal, rfl, hkills _ _ _ _ hcall⟩
            | returns n =>
                obtain ⟨hn, hzero⟩ := hsome _ _ _ _ hcall
                have hnot : ¬(n = 0 ∧ buffer.size ≠ 0) := fun h => h.2 (hzero h.1)
                obtain ⟨rest, hremove, -⟩ := BufferViewList.removePrefix_of_le hn
                rw [yields_sys_of_returns hcall]
                simp only [if_neg hnot, if_neg (Nat.not_lt.mpr hn), hremove, registerWrite,
                  yields_bind, yields_pure, yields_modify, yields_call_ok, yields_ite]
                split
                · exact ih rest (total + n) _
                · trivial
  exact hloop _ buffer 0 fd

end FileDescriptor
end Sponge

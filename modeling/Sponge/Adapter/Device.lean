import Sponge.DatagramAdapter
import Sponge.FileDescriptor.Writes

/-!
# Packet devices

What a read and a write of a TUN or TAP device do: a read takes the first packet that
waits, and a write is one packet, or is refused as a whole.  No packet is empty, so that no
read finds the end of the device.
-/

namespace Sponge

open Program

/-- A read of a device on which no packet is empty or longer than the buffer. -/
theorem packetRead_spec (fd : FileDescriptor PacketDevice)
    (hsized : ∀ packet ∈ fd.file.inbox, packet ≠ [] ∧ packet.length ≤ 1048576) :
    Yields (FileDescriptor.read FileDescriptor.noLimit) fd
      (fun bytes fd' => fd.file.inbox = bytes :: fd'.file.inbox ∧
        fd'.file.outbox = fd.file.outbox ∧ fd'.readCount = fd.readCount + 1 ∧
        fd'.eof = fd.eof ∧ fd'.closed = fd.closed)
      (fun e fd' => e = .unix "read" eagain ∧ fd' = fd) := by
  have hsize : min FileDescriptor.bufferSize FileDescriptor.noLimit = 1048576 := by decide
  rw [FileDescriptor.read, yields_bind, hsize]
  cases hinbox : fd.file.inbox with
  | nil =>
      have hcall : KernelFile.read fd.file 1048576 = (.fails eagain, fd.file) := by
        show PacketDevice.read fd.file 1048576 = _
        rw [PacketDevice.read, hinbox]
      rw [FileDescriptor.yields_sys_of_fails hcall]
      exact ⟨rfl, rfl⟩
  | cons packet rest =>
      obtain ⟨hsome, hlength⟩ := hsized packet (by rw [hinbox]; exact List.mem_cons_self)
      have hall : packet.take 1048576 = packet := List.take_of_length_le (by omega)
      have hcall : KernelFile.read fd.file 1048576 =
          (.returns packet, { fd.file with inbox := rest }) := by
        show PacketDevice.read fd.file 1048576 = _
        simp only [PacketDevice.read, hinbox, hall]
      have hnot : ¬packet.length > 1048576 := by omega
      have hmore : ¬(0 < FileDescriptor.noLimit ∧ packet.length = 0) :=
        fun hend => hsome (List.length_eq_zero_iff.mp hend.2)
      rw [FileDescriptor.yields_sys_of_returns hcall]
      simp only [FileDescriptor.registerRead, if_neg hnot, if_neg hmore, yields_bind, yields_pure,
        yields_modify]
      exact ⟨trivial, trivial, trivial, trivial, trivial⟩

theorem packetWrite_spec (fd : FileDescriptor PacketDevice) (buffer : BufferViewList) :
    Yields (FileDescriptor.write buffer true) fd
      (fun _ fd' => fd'.file.outbox = fd.file.outbox ++ [buffer.bytes] ∧
        fd'.file.inbox = fd.file.inbox ∧ fd'.readCount = fd.readCount ∧ fd'.eof = fd.eof ∧
        fd'.closed = fd.closed)
      (fun e fd' => (∃ errno, e = .unix "writev" errno) ∧ fd'.file.outbox = fd.file.outbox ∧
        fd'.file.inbox = fd.file.inbox ∧ fd'.readCount = fd.readCount ∧ fd'.eof = fd.eof ∧
        fd'.closed = fd.closed) := by
  rw [FileDescriptor.write, FileDescriptor.writeLoop, yields_bind]
  cases hrefusal : fd.file.refusals.head?.join with
  | some errno =>
      have hcall : KernelFile.writev fd.file buffer =
          (.fails errno, { fd.file with refusals := fd.file.refusals.tail }) := by
        show PacketDevice.writev fd.file buffer = _
        rw [PacketDevice.writev, hrefusal]
      rw [FileDescriptor.yields_sys_of_fails hcall]
      exact ⟨⟨errno, rfl⟩, rfl, rfl, rfl, rfl, rfl⟩
  | none =>
      have hcall : KernelFile.writev fd.file buffer = (.returns buffer.size,
          { fd.file with
            outbox := fd.file.outbox ++ [buffer.bytes]
            refusals := fd.file.refusals.tail }) := by
        show PacketDevice.writev fd.file buffer = _
        rw [PacketDevice.writev, hrefusal]
      have hzero : ¬(buffer.size = 0 ∧ buffer.size ≠ 0) := fun h => h.2 h.1
      obtain ⟨rest, hremove, hrest⟩ := BufferViewList.removePrefix_of_le (le_refl buffer.size)
      have hdone : ¬(True ∧ rest.size ≠ 0) := by
        rw [← rest.length_bytes, hrest, List.length_drop, buffer.length_bytes]
        simp
      rw [FileDescriptor.yields_sys_of_returns hcall]
      simp only [if_neg hzero, if_neg (lt_irrefl buffer.size), hremove,
        FileDescriptor.registerWrite, yields_bind, yields_pure, yields_modify, yields_call_ok,
        yields_ite]
      rw [if_neg hdone]
      exact ⟨trivial, trivial, trivial, trivial, trivial⟩

end Sponge

import Mathlib.Data.List.AList
import Mathlib.Tactic

/-!
# Maps from keys to queues

A map of queues, as an association list without repeated keys.  `contents` lists what
all the queues hold, each element with its key, in no particular order; pushing onto a
queue adds one element to it and erasing a queue takes away just what the queue held.
-/

namespace Sponge
namespace QueueMap

variable {κ α : Type*} [DecidableEq κ]

/-- The queue of a key; the empty one if there is none. -/
def queue (m : AList fun _ : κ => List α) (k : κ) : List α :=
  (m.lookup k).getD []

/-- `m[k].push_back(x)`. -/
def push (m : AList fun _ : κ => List α) (k : κ) (x : α) : AList fun _ : κ => List α :=
  m.insert k (queue m k ++ [x])

/-- Everything queued, with its key. -/
def contents (m : AList fun _ : κ => List α) : List (κ × α) :=
  m.entries.flatMap fun e => e.2.map fun x => (e.1, x)

variable (m : AList fun _ : κ => List α) (k k' : κ) (x : α)

@[simp] theorem queue_empty : queue (∅ : AList fun _ : κ => List α) k = [] := rfl

@[simp] theorem queue_push_self : queue (push m k x) k = queue m k ++ [x] := by
  simp [push, queue]

theorem queue_push_ne (h : k' ≠ k) : queue (push m k x) k' = queue m k' := by
  simp [push, queue, AList.lookup_insert_ne h]

@[simp] theorem queue_erase_self : queue (m.erase k) k = [] := by
  simp [queue]

theorem queue_erase_ne (h : k' ≠ k) : queue (m.erase k) k' = queue m k' := by
  simp [queue, AList.lookup_erase_ne h]

variable {m k x k'} in
/-- What is in a queue after one more was put into some queue. -/
theorem mem_queue_push {y : α} (h : y ∈ queue (push m k x) k') : y ∈ queue m k' ∨ y = x := by
  by_cases hk : k' = k
  · subst hk
    rw [queue_push_self] at h
    exact (List.mem_append.mp h).imp id List.mem_singleton.mp
  · rw [queue_push_ne _ _ _ _ hk] at h
    exact Or.inl h

variable {m k k'} in
theorem mem_queue_of_mem_erase {y : α} (h : y ∈ queue (m.erase k) k') : y ∈ queue m k' := by
  by_cases hk : k' = k
  · subst hk
    rw [queue_erase_self] at h
    exact absurd h (by simp)
  · rwa [queue_erase_ne _ _ _ hk] at h

/-- One queue and the others. -/
theorem contents_perm_erase :
    (contents m).Perm ((queue m k).map (fun x => (k, x)) ++ contents (m.erase k)) := by
  by_cases hk : k ∈ m
  -- the entry of `k` stands at one place of the list; its queue is moved to the front
  · obtain ⟨l, before, after, hnot, hsplit, herase⟩ := List.exists_of_kerase hk
    have hlookup : queue m k = l := by
      have hmem : l ∈ m.lookup k := by
        rw [AList.mem_lookup_iff, hsplit]
        simp
      rw [queue, Option.mem_def.mp hmem]
      rfl
    have hrest : (m.erase k).entries = before ++ after := herase
    rw [contents, contents, hrest, hsplit, hlookup]
    simp only [List.flatMap_append, List.flatMap_cons]
    rw [← List.append_assoc, ← List.append_assoc]
    exact List.Perm.append_right _ List.perm_append_comm
  · have hnone : queue m k = [] := by
      rw [queue, AList.lookup_eq_none.mpr hk]
      rfl
    have hsame : (m.erase k).entries = m.entries := List.kerase_of_notMem_keys hk
    rw [contents, contents, hsame, hnone]
    exact List.Perm.refl _

theorem contents_push_perm : (contents (push m k x)).Perm (contents m ++ [(k, x)]) := by
  have hpush : contents (push m k x) =
      (queue m k ++ [x]).map (fun x => (k, x)) ++ contents (m.erase k) := rfl
  -- `insert` puts the entry first, so the new element stands in the middle
  rw [hpush, List.map_append, List.append_assoc]
  refine List.Perm.trans (List.perm_append_comm_assoc _ _ _) ?_
  refine List.Perm.trans (List.Perm.append_left _ (contents_perm_erase m k).symm) ?_
  exact List.perm_append_comm

end QueueMap
end Sponge

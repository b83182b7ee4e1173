import LinearScan.Proofs.Plain.Scan
import Mathlib.Data.List.Perm.Basic

/-!
# The active set against a bare list of holders

The active set keeps its entries in order of expiry.  A list in no order does as well, only
slower: expiring the front of the ordered list is filtering (`dropWhile_ended`), its last
entry is the holder that expires last (`latest?_eq_getLast?`), and inserting keeps the order
without losing or replacing an entry (`insertEntry_perm`, `pairwise_insertEntry`).

The last two rest on keys that never collide.  Entries come with their place in the scan,
and a new one has a larger place than all that are there.
-/

namespace LinearScan

namespace ActiveSet

variable {entries held : List Held} {holder : Held}

/-- Entries in order of expiry. -/
def Ordered (entries : List Held) : Prop :=
  entries.Pairwise fun a b => a.before b = true

/-! ## Inserting -/

/-- An entry with a new place in the scan takes nobody's place. -/
theorem insertEntry_perm (new : ∀ other ∈ entries, other.seq ≠ holder.seq) :
    (insertEntry holder entries).Perm (holder :: entries) := by
  induction entries with
  | nil => exact List.Perm.refl _
  | cons other rest ih =>
    obtain ⟨differs, restDiffers⟩ := List.forall_mem_cons.mp new
    -- Without a tie, no entry is replaced.
    have noTie : holder.sameKey other = false := by
      simp [Held.sameKey, Ne.symm differs]
    unfold insertEntry
    split
    · exact List.Perm.refl _
    · rw [if_neg (by simp [noTie])]
      exact ((ih restDiffers).cons other).trans (List.Perm.swap holder other rest)

/-- Whatever its place in the scan, an entry that is inserted is there, with some of those that
were there before. -/
theorem exists_insertEntry_perm (entries : List Held) (holder : Held) :
    ∃ others, others.Sublist entries ∧ (insertEntry holder entries).Perm (holder :: others) := by
  induction entries with
  | nil => exact ⟨[], List.Sublist.refl _, List.Perm.refl _⟩
  | cons other rest ih =>
    unfold insertEntry
    split
    · exact ⟨_, List.Sublist.refl _, List.Perm.refl _⟩
    · split
      · exact ⟨rest, List.sublist_cons_self _ _, List.Perm.refl _⟩
      · obtain ⟨others, fewer, same⟩ := ih
        exact ⟨other :: others, fewer.cons_cons other,
          (same.cons other).trans (List.Perm.swap holder other others)⟩

/-- Inserting an entry with a new place in the scan keeps the order. -/
theorem pairwise_insertEntry (ordered : Ordered entries)
    (new : ∀ other ∈ entries, other.seq ≠ holder.seq) : Ordered (insertEntry holder entries) := by
  induction entries with
  | nil => exact List.pairwise_singleton _ _
  | cons other rest ih =>
    obtain ⟨differs, restDiffers⟩ := List.forall_mem_cons.mp new
    obtain ⟨below, restOrdered⟩ := List.pairwise_cons.mp ordered
    have noTie : holder.sameKey other = false := by
      simp [Held.sameKey, Ne.symm differs]
    unfold insertEntry
    split
    · next first =>
      refine List.pairwise_cons.mpr ⟨?_, ordered⟩
      intro one member
      rcases List.mem_cons.mp member with rfl | later
      · exact first
      · exact Held.before_trans first (below one later)
    · next notFirst =>
      rw [if_neg (by simp [noTie])]
      refine List.pairwise_cons.mpr ⟨?_, ih restOrdered restDiffers⟩
      intro one member
      rcases List.mem_cons.mp ((insertEntry_perm restDiffers).mem_iff.mp member) with rfl | later
      · exact Held.before_of_not_before (Ne.symm differs) (Bool.eq_false_iff.mpr notFirst)
      · exact below one later

/-! ## Expiring -/

/-- In order of expiry, the first entry that has not ended is followed only by such. -/
theorem dropWhile_ended (ordered : Ordered entries) (position : Nat) :
    (entries.dropWhile fun holder => decide (holder.interval.stop < position)) =
      entries.filter fun holder => decide (position ≤ holder.interval.stop) := by
  induction entries with
  | nil => rfl
  | cons first rest ih =>
    obtain ⟨below, restOrdered⟩ := List.pairwise_cons.mp ordered
    by_cases ended : first.interval.stop < position
    · rw [List.dropWhile_cons_of_pos (by simpa using ended),
        List.filter_cons_of_neg (by simpa using ended), ih restOrdered]
    · have live : position ≤ first.interval.stop := Nat.not_lt.mp ended
      rw [List.dropWhile_cons_of_neg (by simpa using live), eq_comm, List.filter_eq_self]
      intro one member
      rcases List.mem_cons.mp member with rfl | later
      · simpa using live
      · simpa using Nat.le_trans live (Held.stop_le_of_before (below one later))

/-- What expires and what stays is all there was. -/
theorem expireBefore_append (active : ActiveSet) (position : Nat) :
    (active.expireBefore position).1 ++ (active.expireBefore position).2.entries
      = active.entries :=
  List.takeWhile_append_dropWhile

/-- What stays behind expiry is what has not ended. -/
theorem expireBefore_entries (active : ActiveSet) (ordered : Ordered active.entries)
    (position : Nat) :
    (active.expireBefore position).2.entries =
      active.entries.filter fun holder => decide (position ≤ holder.interval.stop) :=
  dropWhile_ended ordered position

/-! ## The last entry -/

/-- The last of the ordered entries is the holder that expires last, in whatever order the
holders are listed. -/
theorem latest?_eq_getLast? (ordered : Ordered entries) (same : held.Perm entries) :
    PlainScan.latest? held = entries.getLast? := by
  cases found : PlainScan.latest? held with
  | none =>
    have nothing : held = [] := PlainScan.latest?_eq_none_iff.mp found
    rw [nothing] at same
    rw [List.nil_perm.mp same]
    rfl
  | some holder =>
    have member : holder ∈ entries := same.mem_iff.mp (PlainScan.latest?_mem found)
    have notEmpty : entries ≠ [] := List.ne_nil_of_mem member
    have split := List.dropLast_append_getLast notEmpty
    rw [List.getLast?_eq_some_getLast notEmpty, Option.some_inj]
    rw [← split] at member ordered
    rcases List.mem_append.mp member with earlier | last
    · -- An entry further to the front expires before the last one, so it is not the latest.
      have before : holder.before (entries.getLast notEmpty) = true :=
        (List.pairwise_append.mp ordered).2.2 holder earlier _ (List.mem_singleton.mpr rfl)
      have notBefore := PlainScan.latest?_not_before found _
        (same.mem_iff.mpr (List.getLast_mem notEmpty))
      rw [before] at notBefore
      cases notBefore
    · exact List.mem_singleton.mp last

/-- Dropping the last entry takes the holder that expires last out of the list. -/
theorem erase_perm_dropLast (same : held.Perm entries) (last : entries.getLast? = some holder) :
    (held.erase holder).Perm entries.dropLast := by
  have split : entries.dropLast ++ [holder] = entries :=
    List.dropLast_append_getLast? holder (Option.mem_def.mpr last)
  have front := List.perm_append_singleton holder entries.dropLast
  rw [split] at front
  simpa using (same.trans front).erase holder

end ActiveSet

end LinearScan

import AccessControl.Memo
import Mathlib.Data.List.Basic

/-! # What a memo remembers is right

A memo may drop any value, and keeps the others. So if every value that is put in is right for its
key, then every value that is found is.
-/

namespace AccessControl.Memo

variable {κ α : Type}

/-- Every remembered value is right for its key. -/
def Sound (right : κ → α → Prop) (memo : Memo κ α) : Prop :=
  ∀ entry ∈ memo.entries, right entry.1 entry.2

theorem dropVictims_sublist (victim : List κ → Nat) (n : Nat) (entries : List (κ × α)) :
    (dropVictims victim n entries).Sublist entries := by
  induction n generalizing entries with
  | zero => exact List.Sublist.refl entries
  | succ n ih => exact (ih _).trans (List.eraseIdx_sublist entries _)

theorem dropVictims_subset (victim : List κ → Nat) (n : Nat) (entries : List (κ × α)) :
    dropVictims victim n entries ⊆ entries :=
  (dropVictims_sublist victim n entries).subset

theorem length_dropVictims (victim : List κ → Nat) (n : Nat) (entries : List (κ × α)) :
    (dropVictims victim n entries).length = entries.length - n := by
  induction n generalizing entries with
  | zero => rfl
  | succ n ih =>
      rw [dropVictims, ih, List.length_eraseIdx]
      split <;> omega

theorem length_shrink_lt (victim : List κ → Nat) {capacity : Nat} (some : capacity ≠ 0)
    (entries : List (κ × α)) : (shrink victim capacity entries).length < capacity := by
  rw [shrink, length_dropVictims]
  omega

theorem Sound.clear (right : κ → α → Prop) (memo : Memo κ α) : memo.clear.Sound right := by
  simp [Sound, Memo.clear]

/-- Drop all values but those of some keys. -/
def restrict (memo : Memo κ α) (kept : κ → Bool) : Memo κ α :=
  { memo with entries := memo.entries.filter fun entry => kept entry.1 }

theorem Sound.restrict {right : κ → α → Prop} {memo : Memo κ α} (sound : memo.Sound right)
    (kept : κ → Bool) : (memo.restrict kept).Sound right := by
  intro entry member
  exact sound entry (List.mem_of_mem_filter member)

variable [BEq κ] {right : κ → α → Prop} {memo : Memo κ α}

@[simp]
theorem clear_insert (memo : Memo κ α) (key : κ) (value : α) :
    (memo.insert key value).clear = memo.clear := by
  unfold Memo.insert
  split
  · rfl
  · split <;> rfl

theorem Sound.get? [LawfulBEq κ] (sound : memo.Sound right) {key : κ} {value : α}
    (found : memo.get? key = some value) : right key value := by
  obtain ⟨before, after, entries, _⟩ := List.lookup_eq_some_iff.mp found
  refine sound (key, value) ?_
  rw [entries]
  exact List.mem_append_right before List.mem_cons_self

theorem Sound.insert (sound : memo.Sound right) {key : κ} {value : α}
    (holds : right key value) : (memo.insert key value).Sound right := by
  unfold Memo.insert
  split
  · exact sound
  · split
    · intro entry member
      obtain ⟨before, present, rfl⟩ := List.mem_map.mp member
      split
      · exact holds
      · exact sound before present
    · intro entry member
      rcases List.mem_cons.mp member with rfl | member
      · exact holds
      · exact sound entry (dropVictims_subset _ _ _ member)

end AccessControl.Memo

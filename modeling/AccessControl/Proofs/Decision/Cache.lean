import AccessControl.Decision.Cache
import AccessControl.Proofs.Memo

/-! # What a decision cache keeps is right

A cache may drop any decision, for its age or for want of room. So if every decision that is put in
is right for its key, then every decision that is found is, however limited the cache and whatever
time it is.
-/

namespace AccessControl.DecisionCache

variable {κ : Type} {right : κ → Decision → Prop} {cache : DecisionCache κ}

/-- Every decision in a cache is right for its key. -/
def Sound (right : κ → Decision → Prop) (cache : DecisionCache κ) : Prop :=
  ∀ entry ∈ cache.entries, right entry.1 entry.2.decision

theorem Sound.elapse (sound : cache.Sound right) (nanoseconds : Nat) :
    (cache.elapse nanoseconds).Sound right := sound

theorem Sound.keep (sound : cache.Sound right) {entries : List (κ × CachedDecision)}
    (fewer : entries ⊆ cache.entries) : (cache.keep entries).Sound right :=
  fun entry member => sound entry (fewer member)

theorem Sound.cleanup (sound : cache.Sound right) : cache.cleanup.Sound right :=
  sound.keep (List.filter_subset_self _)

theorem Sound.makeRoom (sound : cache.Sound right) (capacity : Nat) :
    (cache.makeRoom capacity).Sound right := by
  unfold DecisionCache.makeRoom
  split
  · exact sound
  · exact sound.cleanup.keep (Memo.dropVictims_subset _ _ _)

variable [BEq κ]

theorem mem_of_found [LawfulBEq κ] {key : κ} {entry : CachedDecision}
    (found : cache.entry? key = some entry) : (key, entry) ∈ cache.entries := by
  obtain ⟨before, after, entries, _⟩ := List.lookup_eq_some_iff.mp found
  rw [entries]
  exact List.mem_append_right before List.mem_cons_self

theorem Sound.drop (sound : cache.Sound right) (key : κ) : (cache.drop key).Sound right :=
  sound.keep (List.filter_subset_self _)

theorem Sound.get [LawfulBEq κ] (sound : cache.Sound right) (key : κ) :
    (∀ decision, (cache.get key).1 = some decision → right key decision) ∧
      (cache.get key).2.Sound right := by
  unfold DecisionCache.get
  cases found : cache.entry? key with
  | none => exact ⟨fun _ absent => by simp at absent, sound⟩
  | some entry =>
      simp only
      split
      · exact ⟨fun _ absent => by simp at absent, sound.drop key⟩
      · refine ⟨fun decision present => ?_, sound⟩
        obtain rfl := Option.some.inj present
        exact sound (key, entry) (mem_of_found found)

theorem Sound.store (sound : cache.Sound right) {key : κ} {decision : Decision}
    (holds : right key decision) : (cache.store key decision).Sound right := by
  intro entry member
  rcases List.mem_cons.mp member with rfl | member
  · exact holds
  · exact sound entry (List.mem_of_mem_filter member)

theorem Sound.withRoom (sound : cache.Sound right) {key : κ} {roomy : DecisionCache κ}
    (room : cache.withRoom? key = some roomy) : roomy.Sound right := by
  unfold withRoom? at room
  split at room
  · exact Option.some.inj room ▸ sound
  · split at room
    · cases room
    · obtain rfl := Option.some.inj room
      split
      · exact sound
      · exact sound.makeRoom _

theorem Sound.set (sound : cache.Sound right) {key : κ} {decision : Decision}
    (holds : right key decision) : (cache.set key decision).Sound right := by
  unfold DecisionCache.set
  cases room : cache.withRoom? key with
  | none => exact sound
  | some roomy => exact (sound.withRoom room).store holds

end AccessControl.DecisionCache

import AccessControl.Proofs.Decision.Bounded
import AccessControl.Proofs.Enforcer.Keeping

/-! # What operations drop from the cache

Only a decision puts anything into the cache. Every other operation leaves its entries as they are
or drops them, and puts no cache where none is, whether or not it comes to its end. Time passes for
the cache only with decisions, and when it is made to.
-/

namespace AccessControl.Enforcer

variable {σ κ : Type}

/-- If there is a cache, then it is the one of before, after some time at most. -/
def Ages (passed : Nat) (e e' : Enforcer σ κ) : Prop :=
  ∀ cache' ∈ e'.cache, ∃ cache ∈ e.cache, ∃ time ≤ passed, cache.Ages time cache'

theorem Ages.trans {passed passed' : Nat} {e e' e'' : Enforcer σ κ} (first : Ages passed e e')
    (second : Ages passed' e' e'') : Ages (passed + passed') e e'' := by
  intro cache'' present''
  obtain ⟨cache', present', time', most', ages'⟩ := second cache'' present''
  obtain ⟨cache, present, time, most, ages⟩ := first cache' present'
  exact ⟨cache, present, time + time', Nat.add_le_add most most', ages.trans ages'⟩

theorem Ages.still {passed : Nat} {e e' : Enforcer σ κ} (cache : e'.cache = e.cache) :
    Ages passed e e' :=
  fun cache' present => ⟨cache', cache ▸ present, 0, Nat.zero_le _, rfl, rfl, rfl⟩

/-- Nothing has come into the cache. -/
structure Sheds (passed : Nat) (e e' : Enforcer σ κ) : Prop where
  digest : e'.digest = e.digest
  ages : Ages passed e e'
  cached : e'.cached ⊆ e.cached

namespace Sheds

variable {passed : Nat} {e e' e'' : Enforcer σ κ}

theorem uncached (sheds : Sheds passed e e') (uncached : e.cache = none) : e'.cache = none := by
  refine Option.eq_none_iff_forall_not_mem.mpr fun cache' present => ?_
  obtain ⟨cache, missing, _⟩ := sheds.ages cache' present
  simp [uncached] at missing

theorem still (digest : e'.digest = e.digest) (cache : e'.cache = e.cache) : Sheds 0 e e' := by
  refine ⟨digest, .still cache, ?_⟩
  unfold Enforcer.cached
  rw [cache]
  exact List.Subset.refl _

theorem refl (e : Enforcer σ κ) : Sheds 0 e e := still rfl rfl

theorem trans (first : Sheds passed e e') (second : Sheds 0 e' e'') : Sheds passed e e'' :=
  ⟨second.digest.trans first.digest, first.ages.trans second.ages,
    List.Subset.trans second.cached first.cached⟩

theorem of_eq {α : Type} {answer : α} {outcome : α × Enforcer σ κ} (sheds : Sheds passed e outcome.2)
    (known : outcome = (answer, e')) : Sheds passed e e' := by
  subst known
  exact sheds

theorem setModel (sheds : Sheds passed e e') (model : Model) : Sheds passed e { e' with model } :=
  sheds.trans (still rfl rfl)

theorem clearCache (sheds : Sheds passed e e') : Sheds passed e e'.clearCache := by
  refine sheds.trans ⟨rfl, fun cache' present => ?_, by simp⟩
  obtain ⟨cache, here, rfl⟩ := Option.map_eq_some_iff.mp present
  exact ⟨cache, here, 0, Nat.le_refl 0, rfl, rfl, rfl⟩

theorem announce (sheds : Sheds passed e e') (change : PolicyChange) :
    Sheds passed e (e'.announce change) := by
  refine sheds.trans ?_
  unfold Enforcer.announce
  split
  · exact still rfl rfl
  · exact refl e'

theorem afterChange (sheds : Sheds passed e e') (change : PolicyChange) :
    Sheds passed e (e'.afterChange change) := by
  have cleared : Sheds passed e (if e'.settings.autoCleanCache then e'.clearCache else e') := by
    split
    · exact sheds.clearCache
    · exact sheds
  exact cleared.announce change

theorem afterChanges (sheds : Sheds passed e e') (changes : List PolicyChange) :
    Sheds passed e (changes.foldl Enforcer.afterChange e') := by
  induction changes generalizing e' with
  | nil => exact sheds
  | cons change rest ih => exact ih (sheds.afterChange change)

theorem persist (sheds : Sheds passed e e') (call : σ → Except StoreError Unit × σ) :
    Sheds passed e (e'.persist call).2 := by
  rw [persist_snd]
  exact sheds.trans (still rfl rfl)

theorem followLinks (sheds : Sheds passed e e') (s : RowSection) (type : String) (delta : RowDelta) :
    Sheds passed e (e'.followLinks s type delta).2 := by
  refine sheds.trans ?_
  unfold Enforcer.followLinks
  split
  · split <;> exact still rfl rfl
  · exact refl e'

end Sheds

variable [PolicyStore σ]

/-! ## Changing rows -/

theorem sheds_change (e : Enforcer σ κ) (s : RowSection) (type : String) (change : RowChange) :
    Sheds 0 e (e.change s type change).2 := by
  unfold Enforcer.change
  split
  · exact .refl e
  · unfold applyChange
    split
    · exact .refl e
    · exact .still rfl rfl
    · rename_i delta model _
      have stored := ((Sheds.refl e).setModel model).persist fun store =>
        PolicyStore.follow store s type change
      have followed := stored.followLinks s type delta
      dsimp only
      split
      · rename_i linked
        exact followed.of_eq linked
      · rename_i linked
        exact (followed.of_eq linked).afterChange _

theorem sheds_applyRemovals (e : Enforcer σ κ) (removals : List Removal) :
    Sheds 0 e (e.applyRemovals removals).2 := by
  induction removals generalizing e with
  | nil => exact .refl e
  | cons removal rest ih =>
      unfold applyRemovals
      split
      · exact .refl e
      · rename_i removed model _
        have placed := (Sheds.refl e).setModel model
        dsimp only
        split
        · exact placed.trans (ih _)
        · have followed := (placed.persist fun store =>
            PolicyStore.follow store removal.table removal.type
              (.removeFiltered removal.filter)).followLinks removal.table removal.type { removed }
          split
          · rename_i linked
            exact followed.of_eq linked
          · rename_i linked
            have others := (followed.of_eq linked).trans (ih _)
            split
            · rename_i made
              exact others.of_eq made
            · rename_i made
              exact others.of_eq made

theorem sheds_removeTogether (e : Enforcer σ κ) (removals : List Removal) :
    Sheds 0 e (e.removeTogether removals).2 := by
  have made := sheds_applyRemovals e removals
  unfold removeTogether
  split
  · exact .refl e
  · split
    · exact .refl e
    · split
      · rename_i applied
        exact made.of_eq applied
      · rename_i applied
        exact (made.of_eq applied).afterChanges _

theorem sheds_clearPolicy (e : Enforcer σ κ) : Sheds 0 e e.clearPolicy.2 := by
  unfold clearPolicy
  split
  · exact .refl e
  · split
    · exact .still rfl rfl
    · rename_i model _
      have stored := ((Sheds.refl e).setModel model).persist fun store => PolicyStore.save store []
      split
      · rename_i saved
        exact stored.of_eq saved
      · rename_i saved
        exact (stored.of_eq saved).afterChange _

theorem sheds_mutate (e : Enforcer σ κ) (mutation : Mutation) :
    Sheds 0 e (e.mutate mutation).2 := by
  cases mutation with
  | rows s type change => exact sheds_change e s type change
  | deleteUser user => exact sheds_removeTogether e _
  | deleteRole role => exact sheds_removeTogether e _
  | clearPolicy => exact sheds_clearPolicy e

/-! ## Loading, saving and switching -/

omit [PolicyStore σ] in
theorem sheds_model (e : Enforcer σ κ) (model : Model) : Sheds 0 e { e with model }.clearCache :=
  ((Sheds.refl e).setModel model).clearCache

theorem sheds_loadPolicy (e : Enforcer σ κ) : Sheds 0 e e.loadPolicy.2 := by
  unfold loadPolicy
  split
  · exact .refl e
  · split
    · exact .refl e
    · unfold replaceRows
      split
      · exact .refl e
      · split
        · exact .still rfl rfl
        · split
          · split
            · exact .still rfl rfl
            · exact sheds_model e _
          · exact sheds_model e _

theorem sheds_savePolicy (e : Enforcer σ κ) : Sheds 0 e e.savePolicy.2 := by
  unfold savePolicy announce
  split
  · exact .still rfl rfl
  · split <;> exact .still rfl rfl

omit [PolicyStore σ] in
theorem sheds_buildRoleLinks (e : Enforcer σ κ) : Sheds 0 e e.buildRoleLinks.2 := by
  unfold buildRoleLinks
  split
  · exact .refl e
  · split
    · exact .still rfl rfl
    · exact sheds_model e _

omit [PolicyStore σ] in
theorem sheds_addFunction (e : Enforcer σ κ) (name : String) (f : CustomFunction) :
    Sheds 0 e (e.addFunction name f).2 := by
  unfold addFunction
  split
  · exact .refl e
  · exact .clearCache (.still rfl rfl)

omit [PolicyStore σ] in
theorem sheds_changeRole (e : Enforcer σ κ) (type : String) (change : RoleType → RoleType) :
    Sheds 0 e (e.changeRole type change).2 := by
  unfold changeRole
  split
  · exact .refl e
  · split
    · exact .refl e
    · exact sheds_model e _

omit [PolicyStore σ] in
theorem sheds_setManager (e : Enforcer σ κ) (type : String) (manager : RoleManager) :
    Sheds 0 e (e.setManager type manager).2 := by
  unfold setManager
  split
  · exact .refl e
  · split
    · exact .still rfl rfl
    · exact sheds_model e _

omit [PolicyStore σ] in
theorem sheds_wait (e : Enforcer σ κ) (nanoseconds : Nat) :
    Sheds nanoseconds e (e.wait nanoseconds) := by
  refine ⟨rfl, fun cache' present => ?_, ?_⟩
  · obtain ⟨cache, here, rfl⟩ := Option.map_eq_some_iff.mp present
    exact ⟨cache, here, nanoseconds, Nat.le_refl _, rfl, rfl, rfl⟩
  · unfold cached wait
    cases e.cache <;> exact List.Subset.refl _

/-- No operation but a decision puts anything into the cache. -/
theorem sheds_step [BEq κ] (e : Enforcer σ κ) {operation : Operation}
    (other : operation.query? = none) : Sheds operation.duration e (e.step operation).2 := by
  cases operation with
  | mutate mutation => exact sheds_mutate e mutation
  | loadPolicy => exact sheds_loadPolicy e
  | savePolicy => exact sheds_savePolicy e
  | buildRoleLinks => exact sheds_buildRoleLinks e
  | addFunction name f => exact sheds_addFunction e name f
  | addNamePredicate type holds => exact sheds_changeRole e type _
  | addDomainPredicate type holds => exact sheds_changeRole e type _
  | setManager type manager => exact sheds_setManager e type manager
  | enable | ask => exact .still rfl rfl
  | decide context given request => simp [Operation.query?] at other
  | clearCache => exact .clearCache (.refl e)
  | wait nanoseconds => exact sheds_wait e nanoseconds

end AccessControl.Enforcer

import AccessControl.Proofs.Enforcer.Cached
import AccessControl.Proofs.Enforcer.Uncached

/-! # What is remembered is right in every state

Compiled matchers and answers to role checks are right in every state that an enforcer can be in,
whatever its settings, for only a cache can be out of date. So without one a decision is that of the
rows.
-/

namespace AccessControl.Enforcer

variable {σ κ : Type}

/-! ## What a change of rows leaves alone -/

theorem afterChanges_eq (e : Enforcer σ κ) (changes : List PolicyChange) :
    ∃ cache announced, changes.foldl Enforcer.afterChange e = { e with cache, announced } := by
  induction changes generalizing e with
  | nil => exact ⟨e.cache, e.announced, rfl⟩
  | cons change rest ih =>
      obtain ⟨cache, announced, same⟩ := ih (e.afterChange change)
      refine ⟨cache, announced, ?_⟩
      rw [List.foldl_cons, same, afterChange_eq]

section

variable [PolicyStore σ] {e : Enforcer σ κ} (h : e.model.WellFormed)
include h

theorem removeTogether_eq (removals : List Removal) :
    ∃ model store cache announced,
      (e.removeTogether removals).2 = { e with model, store, cache, announced } := by
  unfold removeTogether
  split
  · exact ⟨e.model, e.store, e.cache, e.announced, rfl⟩
  · split
    · exact ⟨e.model, e.store, e.cache, e.announced, rfl⟩
    · rename_i checked
      obtain ⟨failures, changes, model, store, applied, _⟩ :=
        applyRemovals_eq_ok h (declares_of_checkRemovals checked)
      rw [applied]
      obtain ⟨cache, announced, same⟩ := afterChanges_eq { e with model, store } changes
      exact ⟨model, store, cache, announced, same⟩

theorem mutate_eq (mutation : Mutation) :
    ∃ model store cache announced,
      (e.mutate mutation).2 = { e with model, store, cache, announced } := by
  cases mutation with
  | deleteUser user => exact removeTogether_eq h _
  | deleteRole role => exact removeTogether_eq h _
  | rows s type change =>
      show ∃ model store cache announced,
        (e.change s type change).2 = { e with model, store, cache, announced }
      unfold Enforcer.change
      split
      · exact ⟨e.model, e.store, e.cache, e.announced, rfl⟩
      · rw [applyChange_eq h]
        split
        · exact ⟨e.model, e.store, e.cache, e.announced, rfl⟩
        · exact ⟨e.model, e.store, e.cache, e.announced, rfl⟩
        · rename_i delta model _
          simp only [carryOut_eq, afterChange_eq]
          exact ⟨_, _, _, _, rfl⟩
  | clearPolicy =>
      show ∃ model store cache announced,
        e.clearPolicy.2 = { e with model, store, cache, announced }
      rw [clearPolicy_eq h]
      split
      · exact ⟨e.model, e.store, e.cache, e.announced, rfl⟩
      · rw [persist_eq]
        split
        · rename_i failed
          obtain ⟨_, rfl⟩ := Prod.mk.inj failed
          exact ⟨_, _, e.cache, e.announced, rfl⟩
        · rename_i done
          obtain ⟨_, rfl⟩ := Prod.mk.inj done
          rw [afterChange_eq]
          exact ⟨_, _, _, _, rfl⟩

theorem loadPolicy_eq : ∃ model cache, e.loadPolicy.2 = { e with model, cache } := by
  unfold loadPolicy
  split
  · exact ⟨e.model, e.cache, rfl⟩
  · split
    · exact ⟨e.model, e.cache, rfl⟩
    · rw [replaceRows_eq h]
      split
      · exact ⟨e.model, e.cache, rfl⟩
      · exact ⟨_, _, rfl⟩

end

/-! ## Compiled matchers and role checks -/

/-- Compiled matchers and remembered answers to role checks are right. -/
structure RemembersRightly (e : Enforcer σ κ) : Prop where
  matchers : e.MatchersSound
  roles : e.model.Regular

variable [PolicyStore σ] [BEq κ] {e : Enforcer σ κ}

omit [PolicyStore σ] [BEq κ] in
theorem RemembersRightly.evaluate (right : e.RemembersRightly) (h : e.model.WellFormed)
    (query : Query) :
    (e.evaluate query.context query.given query.request).1 = e.judge query ∧
      (e.evaluate query.context query.given query.request).2.RemembersRightly := by
  -- Whether there is a cache does not matter to an evaluation.
  have bare : Sound [] { e with cache := none } := ⟨h, right.roles, right.matchers, by simp [cached]⟩
  obtain ⟨decided, sound⟩ := bare.evaluate query
  have answer := congrArg Prod.fst decided
  have roles := sound.roles
  have matchers := sound.matchers
  unfold Enforcer.evaluate at answer roles matchers ⊢
  have same : Enforcer.matcher { e with cache := none } query.context query.given =
      e.matcher query.context query.given := rfl
  rw [same] at answer roles matchers
  cases found : e.matcher query.context query.given with
  | error error =>
      rw [found] at answer
      exact ⟨answer, right⟩
  | ok matcher =>
      rw [found] at answer roles matchers
      exact ⟨answer, matchers, roles⟩

omit [PolicyStore σ] [BEq κ] in
theorem RemembersRightly.setCache (right : e.RemembersRightly)
    (cache : Option (DecisionCache κ)) : RemembersRightly { e with cache } :=
  ⟨right.matchers, right.roles⟩

omit [PolicyStore σ] in
theorem RemembersRightly.decide (right : e.RemembersRightly) (h : e.model.WellFormed)
    (query : Query) :
    (e.decide query.context query.given query.request).2.RemembersRightly := by
  unfold Enforcer.decide
  split
  · cases present : e.cache with
    | none =>
        rw [decideEnabled_uncached present]
        exact (right.evaluate h query).2
    | some cache =>
        rcases decideEnabled_cases present query with ⟨decision, rest, _, decided, _⟩ |
          ⟨rest, _, ⟨error, after, judged, decided, _⟩ | ⟨decision, after, judged, decided, _⟩⟩
        · rw [decided]
          exact right.setCache (some rest)
        · have evaluated := ((right.setCache (some rest)).evaluate h query).2
          rw [judged] at evaluated
          rw [decided]
          exact evaluated
        · have evaluated := ((right.setCache (some rest)).evaluate h query).2
          rw [judged] at evaluated
          rw [decided]
          exact evaluated.setCache _
  · exact right

/-- No operation but a decision compiles matchers; to register a function drops them. -/
theorem matchers_step (h : e.model.WellFormed) {operation : Operation}
    (other : operation.query? = none) :
    (e.step operation).2.matchers = e.matchers.clear ∨
      (e.step operation).2.matchers = e.matchers ∧
        (e.step operation).2.functions = e.functions := by
  cases operation with
  | decide => simp [Operation.query?] at other
  | mutate mutation =>
      obtain ⟨model, store, cache, announced, same⟩ := mutate_eq h mutation
      have step : (e.step (.mutate mutation)).2 = (e.mutate mutation).2 := rfl
      rw [step, same]
      exact .inr ⟨rfl, rfl⟩
  | loadPolicy =>
      obtain ⟨model, cache, same⟩ := loadPolicy_eq h
      have step : (e.step .loadPolicy).2 = e.loadPolicy.2 := rfl
      rw [step, same]
      exact .inr ⟨rfl, rfl⟩
  | savePolicy => exact (keeps_savePolicy e).matchers
  | buildRoleLinks => exact (keeps_buildRoleLinks h).matchers
  | addFunction name f => exact (keeps_addFunction e name f).matchers
  | addNamePredicate type holds => exact (keeps_changeRole e type _).matchers
  | addDomainPredicate type holds => exact (keeps_changeRole e type _).matchers
  | setManager type manager =>
      have step : (e.step (.setManager type manager)).2 = (e.setManager type manager).2 := rfl
      rw [step, setManager_eq h]
      exact (keeps_changeRole e type _).matchers
  | enable | ask | clearCache | wait => exact .inr ⟨rfl, rfl⟩

theorem RemembersRightly.step (right : e.RemembersRightly) (h : e.model.WellFormed)
    (operation : Operation) : (e.step operation).2.RemembersRightly := by
  have moved := moved_step h operation
  cases asked : operation.query? with
  | some query =>
      cases operation with
      | decide context given request => exact right.decide h { context, given, request }
      | _ => simp [Operation.query?] at asked
  | none =>
      refine ⟨?_, moved.move.regular h right.roles⟩
      unfold MatchersSound
      rcases matchers_step h asked with cleared | ⟨same, functions⟩
      · rw [cleared]
        exact .clear _ _
      · rw [same, compileKey_congr (moved.move.declarations h) functions]
        exact right.matchers

/-- What an enforcer remembers of matchers and role checks is right in every state. -/
theorem Reachable.remembersRightly (reachable : e.Reachable) : e.RemembersRightly := by
  induction reachable with
  | @built setup e prepared built =>
      obtain ⟨_, model, matchers, reset, plain, loaded⟩ := build_eq_ok_iff.mp built
      have well := resetManagers_wellFormed prepared.wellFormed reset
      have fresh : (setup.initial model).MatchersSound := fun _ member => by
        simp [Setup.initial] at member
      have right : RemembersRightly { setup.initial model with matchers } :=
        ⟨fresh.compilePlain plain, regular_of_resetManagers prepared.wellFormed reset⟩
      have stepped := right.step well .loadPolicy
      have done : ({ setup.initial model with matchers }.step .loadPolicy).2 = e := by
        show { setup.initial model with matchers }.loadPolicy.2 = e
        rw [loaded]
      rwa [done] at stepped
  | step operation before ih => exact ih.step before.wellFormed operation
  | configure | setStore | setWatched | takeAnnounced | takeCalls | read =>
      rename_i ih
      exact ⟨ih.matchers, ih.roles⟩

/-- Without a cache every decision is that of the rows, whatever has been asked before. -/
theorem Reachable.decide_uncached (reachable : e.Reachable) (uncached : e.cache = none)
    (query : Query) :
    (e.decide query.context query.given query.request).1 = e.answer query := by
  unfold Enforcer.decide answer decideEnabled
  rw [uncached]
  cases e.enabled with
  | true => exact (reachable.remembersRightly.evaluate reachable.wellFormed query).1
  | false => rfl

end AccessControl.Enforcer

import AccessControl.Proofs.Enforcer.Decisions
import AccessControl.Proofs.Enforcer.Shedding
import AccessControl.Proofs.Model.Answers

/-! # Enforcers without a cache

An enforcer that has been set up without a cache never gets one. So its decisions depend on nothing but
what is declared and registered, on the compiled matchers, and on the rows and links.
-/

namespace AccessControl.Enforcer

variable {σ κ : Type}

/-! ## Decisions -/

/-- Enforcers without a cache decide alike if their models evaluate matchers alike and all else that a
    decision reads is the same. -/
theorem decide_congr [BEq κ] {e e' : Enforcer σ κ} (uncached : e.cache = none)
    (uncached' : e'.cache = none) (enabled : e'.enabled = e.enabled)
    (functions : e'.functions = e.functions) (matchers : e'.matchers = e.matchers)
    (declarations : e.model.SameDeclarations e'.model)
    (evaluate : e'.model.evaluate = e.model.evaluate) (context : Context) (given : Option String)
    (request : List Value) :
    (e'.decide context given request).1 = (e.decide context given request).1 := by
  have matcher : e'.matcher context given = e.matcher context given := by
    unfold Enforcer.matcher
    rw [matchers, compile_eq, compile_eq, compileKey_congr declarations functions]
  unfold Enforcer.decide Enforcer.decideEnabled
  rw [enabled, uncached, uncached']
  cases e.enabled with
  | false => rfl
  | true =>
      simp only [if_true]
      unfold Enforcer.evaluate
      rw [matcher, evaluate]
      cases e.matcher context given <;> rfl

/-! ## Operations -/

variable {e : Enforcer σ κ} (uncached : e.cache = none)
include uncached

theorem cache_decide [BEq κ] (context : Context) (given : Option String) (request : List Value) :
    (e.decide context given request).2.cache = none := by
  unfold decide
  split
  · unfold decideEnabled
    rw [uncached]
    simp only
    unfold evaluate
    split
    · exact uncached
    · exact uncached
  · exact uncached

variable [PolicyStore σ]

theorem cache_mutate (mutation : Mutation) : (e.mutate mutation).2.cache = none :=
  (sheds_mutate e mutation).uncached uncached

theorem cache_loadPolicy : e.loadPolicy.2.cache = none :=
  (sheds_loadPolicy e).uncached uncached

/-- No operation puts a cache where none is. -/
theorem cache_step [BEq κ] (operation : Operation) : (e.step operation).2.cache = none := by
  cases decides : operation.query? with
  | none => exact (sheds_step e decides).uncached uncached
  | some query =>
      cases operation with
      | decide context given request => exact cache_decide uncached context given request
      | _ => simp [Operation.query?] at decides

theorem cache_run [BEq κ] (operations : List Operation) :
    (e.run operations).2.cache = none := by
  induction operations generalizing e with
  | nil => exact uncached
  | cons operation rest ih => exact ih (cache_step uncached operation)

end AccessControl.Enforcer

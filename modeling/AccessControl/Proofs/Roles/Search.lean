import AccessControl.Roles.Search
import Mathlib.Data.List.Basic

/-! # Search by levels does not depend on orders

What a search finds depends on the names that each step leads to, and not on their order.
-/

namespace AccessControl.Search

theorem mem_nextLevel (step : String → List String) (visited frontier : List String)
    (name : String) :
    name ∈ nextLevel step visited frontier ↔
      (∃ before ∈ frontier, name ∈ step before) ∧ name ∉ visited := by
  simp [nextLevel, List.mem_eraseDups]

theorem reaches_congr {step step' : String → List String}
    (steps : ∀ name other, other ∈ step name ↔ other ∈ step' name) (test : String → Bool)
    (hops : Nat) {visited visited' frontier frontier' : List String}
    (seen : ∀ name, name ∈ visited ↔ name ∈ visited')
    (level : ∀ name, name ∈ frontier ↔ name ∈ frontier') :
    reaches step test hops visited frontier = reaches step' test hops visited' frontier' := by
  induction hops generalizing visited visited' frontier frontier' with
  | zero => rfl
  | succ hops ih =>
      have found : (frontier.flatMap step).any test = (frontier'.flatMap step').any test := by
        rw [Bool.eq_iff_iff, List.any_eq_true, List.any_eq_true]
        simp only [List.mem_flatMap, steps, level]
      have next : ∀ name, name ∈ nextLevel step visited frontier ↔
          name ∈ nextLevel step' visited' frontier' := by
        intro name
        simp only [mem_nextLevel, steps, level, seen]
      unfold reaches
      rw [found]
      split
      · rfl
      · split
        · rename_i empty
          rw [empty] at next
          have empty' : nextLevel step' visited' frontier' = [] :=
            List.eq_nil_iff_forall_not_mem.mpr fun name member => by
              simpa using (next name).mpr member
          rw [empty']
        · rename_i nonempty
          split
          · rename_i empty'
            rw [empty'] at next
            exact (nonempty (List.eq_nil_iff_forall_not_mem.mpr fun name member => by
              simpa using (next name).mp member)).elim
          · refine ih (fun name => ?_) next
            rw [List.mem_append, List.mem_append, seen, next]

end AccessControl.Search

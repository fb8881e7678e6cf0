import AccessControl.Proofs.Enforcer.Keeping
import AccessControl.Proofs.Enforcer.Mirror

/-! # Rejected mutations

A mutation that has been made answers that something has changed, or with an error of the store. So
any other answer tells that nothing has been done: no row has moved, no link has come or gone, no
cached decision has been dropped, and neither the store nor the watcher has been called.
-/

namespace AccessControl

/-- Whether an answer rejects a mutation: there is nothing to change, or there is an error that does
    not come from the store. -/
def rejects : Except Error Bool → Bool
  | .ok changed => !changed
  | .error error => error.store?.isNone

namespace Enforcer

theorem rejects_report (failures : List StoreError) :
    rejects ((report failures).map fun _ => true) = false := by
  cases failures <;> rfl

variable {σ κ : Type} [PolicyStore σ]

theorem change_rejected {e : Enforcer σ κ} (h : e.model.WellFormed) (s : RowSection)
    (type : String) (change : RowChange) (rejected : rejects (e.change s type change).1 = true) :
    (e.change s type change).2 = e := by
  unfold Enforcer.change at rejected ⊢
  cases access : e.access with
  | error error => rfl
  | ok _ =>
      rw [access] at rejected
      simp only at rejected ⊢
      rw [applyChange_eq h] at rejected ⊢
      cases made : e.model.apply s.key type change with
      | error error => rfl
      | ok outcome =>
          obtain ⟨delta?, model⟩ := outcome
          cases delta? with
          | none => rfl
          | some delta =>
              rw [made] at rejected
              simp only [carryOut_eq, rejects_report, Bool.false_eq_true] at rejected

theorem removeTogether_rejected {e : Enforcer σ κ} (h : e.model.WellFormed)
    (removals : List Removal) (rejected : rejects (e.removeTogether removals).1 = true) :
    (e.removeTogether removals).2 = e := by
  unfold removeTogether at rejected ⊢
  cases access : e.access with
  | error error => rfl
  | ok _ =>
      rw [access] at rejected
      simp only at rejected ⊢
      cases checked : e.checkRemovals removals with
      | error error => rfl
      | ok _ =>
          obtain ⟨failures, changes, model, store, applied, _, untouched⟩ :=
            applyRemovals_eq_ok h (declares_of_checkRemovals checked)
          rw [checked, applied] at rejected
          rw [applied]
          cases changes with
          | nil =>
              obtain ⟨_, rfl, rfl⟩ := untouched rfl
              rfl
          | cons change others =>
              simp only [List.isEmpty_cons, Bool.not_false, rejects_report,
                Bool.false_eq_true] at rejected

theorem clearPolicy_rejected {e : Enforcer σ κ} (h : e.model.WellFormed)
    (rejected : rejects (e.mutate .clearPolicy).1 = true) : (e.mutate .clearPolicy).2 = e := by
  cases access : e.access with
  | error error =>
      have refused : e.clearPolicy = (.error error, e) := by rw [clearPolicy_eq h, access]
      unfold mutate
      rw [refused]
  | ok _ =>
      have made : ∃ failures, (e.clearPolicy).1 = report failures := by
        rw [clearPolicy_eq h, access]
        simp only [persist_eq]
        refine ⟨if e.settings.autoSave then failuresOf (PolicyStore.save e.store []).1 else [], ?_⟩
        split
        · rename_i failed
          exact (Prod.mk.inj failed).1.symm
        · rename_i done
          exact (Prod.mk.inj done).1.symm
      obtain ⟨failures, answered⟩ := made
      unfold mutate at rejected
      simp only [answered, rejects_report, Bool.false_eq_true] at rejected

/-- A mutation that is rejected leaves the whole state as it was: rows and their order, links, cache,
    store and watcher. -/
theorem mutate_rejected [BEq κ] {e : Enforcer σ κ} (reachable : e.Reachable) (mutation : Mutation)
    (rejected : rejects (e.mutate mutation).1 = true) : (e.mutate mutation).2 = e := by
  have h := reachable.wellFormed
  cases mutation with
  | rows s type change => exact change_rejected h s type change rejected
  | deleteUser user => exact removeTogether_rejected h _ rejected
  | deleteRole role => exact removeTogether_rejected h _ rejected
  | clearPolicy => exact clearPolicy_rejected h rejected

/-- A batch with a row that is there already, behind two that are new. -/
def lateDuplicate : Mutation := .rows .policy "p" (.addMany [["carol"], ["dave"], ["bob"]])

/-- The rows before the one that is there already are not added. -/
theorem mutate_rejected_lateDuplicate :
    rejects (twoGuests.enforcer.mutate lateDuplicate).1 = true ∧
      (twoGuests.enforcer.mutate lateDuplicate).2 = twoGuests.enforcer ∧
      twoGuests.enforcer.model.rows "p" "p" = [["alice"], ["bob"]] := by
  have built : twoGuests.build = .ok twoGuests.enforcer :=
    Setup.build_eq_enforcer (by decide +kernel)
  have rejected : rejects (twoGuests.enforcer.mutate lateDuplicate).1 = true := by decide +kernel
  exact ⟨rejected, mutate_rejected (.built Model.prepared_guestList built) lateDuplicate rejected,
    by decide +kernel⟩

end Enforcer

end AccessControl

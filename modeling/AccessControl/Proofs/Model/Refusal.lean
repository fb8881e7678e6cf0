import AccessControl.Enforcer.Control
import AccessControl.Proofs.Model.Tables

/-! # Refused changes

A model refuses changes and lines for reasons of its own, which are never errors of a store.
-/

namespace AccessControl

/-- The error of a store that an error passes on. -/
def Error.store? : Error → Option StoreError
  | .store error => some error
  | _ => none

namespace RowTable

variable {table : RowTable} {error : Error}

theorem store?_of_checkArity {row : Row} (failed : table.checkArity row = .error error) :
    error.store? = none := by
  unfold checkArity at failed
  split at failed
  · simp at failed
  · exact Except.error.inj failed ▸ rfl

theorem store?_of_checkArities {rows : List Row} (failed : table.checkArities rows = .error error) :
    error.store? = none := by
  induction rows with
  | nil => simp [checkArities] at failed
  | cons row rest ih =>
      rcases Except.bind_eq_error_iff.mp failed with first | ⟨_, _, others⟩
      · exact store?_of_checkArity first
      · exact ih others

theorem store?_of_allNew {seen rows : List Row} (failed : table.allNew seen rows = .error error) :
    error.store? = none := by
  induction rows generalizing seen with
  | nil => simp [allNew] at failed
  | cons row rest ih =>
      rcases Except.bind_eq_error_iff.mp failed with first | ⟨_, _, others⟩
      · exact store?_of_checkArity first
      · split at others
        · simp at others
        · exact ih others

/-- Only the check of its rows refuses a change. -/
theorem store?_of_apply {change : RowChange} (failed : table.apply change = .error error) :
    error.store? = none := by
  cases change with
  | add row => exact store?_of_checkArity (Except.map_bind_ok_eq_error_iff.mp failed)
  | addMany rows => exact store?_of_allNew (Except.map_bind_ok_eq_error_iff.mp failed)
  | remove | removeMany | removeFiltered => simp [apply] at failed
  | update old new => exact store?_of_checkArity (Except.map_bind_ok_eq_error_iff.mp failed)
  | updateMany old new => exact store?_of_checkArities (Except.map_bind_ok_eq_error_iff.mp failed)

end RowTable

namespace Model

variable {model : Model} {error : Error}

theorem store?_of_section {key : String} (failed : Section.ofKey key = .error error) :
    error.store? = none := by
  unfold Section.ofKey at failed
  split at failed
  · simp at failed
  · exact Except.error.inj failed ▸ rfl

theorem store?_of_table {sec type : String} (failed : model.table sec type = .error error) :
    error.store? = none := by
  unfold Model.table RowSection.ofKey at failed
  rcases Except.bind_eq_error_iff.mp failed with unnamed | ⟨s, _, missing⟩
  · rcases Except.bind_eq_error_iff.mp unnamed with unknown | ⟨s, _, rowless⟩
    · exact store?_of_section unknown
    · cases s <;> first | exact Except.error.inj rowless ▸ rfl | simp at rowless
  · split at missing
    · simp at missing
    · exact Except.error.inj missing ▸ rfl

theorem store?_of_role {type : String} (failed : model.role type = .error error) :
    error.store? = none := by
  unfold Model.role named at failed
  split at failed
  · simp at failed
  · exact Except.error.inj failed ▸ rfl

theorem store?_of_apply {s : RowSection} {type : String} {change : RowChange}
    (failed : model.apply s.key type change = .error error) : error.store? = none := by
  cases paired : change.paired with
  | true =>
      rw [apply_eq paired] at failed
      rcases Except.bind_eq_error_iff.mp failed with unnamed | ⟨s', _, failed⟩
      · simp [s.ofKey_key] at unnamed
      · rcases Except.bind_eq_error_iff.mp failed with missing | ⟨table, _, failed⟩
        · exact store?_of_table missing
        · rcases Except.bind_eq_error_iff.mp failed with refused | ⟨outcome, _, done⟩
          · exact RowTable.store?_of_apply refused
          · simp at done
  | false =>
      cases change with
      | updateMany old new =>
          have lengths : old.length ≠ new.length := of_decide_eq_false paired
          simp only [apply, updateMany, if_neg lengths] at failed
          exact Except.error.inj failed ▸ rfl
      | add | addMany | remove | removeMany | removeFiltered | update => cases paired

theorem store?_of_checkLines {lines : List PolicyLine}
    (failed : model.checkLines lines = .error error) : error.store? = none := by
  induction lines with
  | nil => simp [checkLines] at failed
  | cons line rest ih =>
      rcases Except.bind_eq_error_iff.mp failed with unnamed | ⟨s, _, failed⟩
      · exact store?_of_section unnamed
      · rcases Except.bind_eq_error_iff.mp failed with refused | ⟨_, _, others⟩
        · rcases Except.bind_eq_error_iff.mp refused with missing | ⟨table, _, refused⟩
          · exact store?_of_table missing
          · exact RowTable.store?_of_checkArities refused
        · exact ih others

end Model

end AccessControl

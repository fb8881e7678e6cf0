import AccessControl.Proofs.Enforcer.Apart
import AccessControl.Proofs.Policy.Touched

/-! # What mutations do to rows

Several removals take exactly the rows that one of them picks. Of all other mutations it is enough to
say which rows they touch, for among the rest nothing moves.
-/

namespace AccessControl

/-! ## The rows of a type -/

namespace Model

variable {model model' : Model}

theorem rows_clear (model : Model) (s : RowSection) (type : String) :
    model.clear.rows s.key type = [] := by
  rw [rows_eq, table?_clear]
  cases model.table? s type <;> rfl

theorem filter_rows_apply {s : RowSection} {type : String} {change : RowChange}
    {delta? : Option RowDelta} (made : model.apply s.key type change = .ok (delta?, model'))
    {P : Row → Bool} {s' : RowSection} {type' : String}
    (apart : s' = s → type' = type →
      ∀ row ∈ change.touched (model.rows s.key type), P row = false) :
    (model'.rows s'.key type').filter P = (model.rows s'.key type').filter P := by
  obtain ⟨table, table', found, changed, rfl⟩ := apply_eq_ok made
  rw [rows_of_table? found] at apart
  rw [rows_setTable found]
  split
  · rename_i here
    obtain ⟨rfl, rfl⟩ := here
    rw [rows_of_table? found]
    exact RowTable.filter_apply changed (apart rfl rfl)
  · rfl

end Model

/-! ## Removals -/

/-- Whether a removal takes a row of a type. -/
def Removal.takes (removal : Removal) (s : RowSection) (type : String) (row : Row) : Bool :=
  decide (s = removal.table ∧ type = removal.type) && removal.filter.picks row

/-- The removals that remove a user. -/
def Removal.ofUser (user : String) : List Removal :=
  [{ table := .role, type := plainRole, filter := ⟨0, [user]⟩ },
    { table := .policy, type := plainPolicy, filter := ⟨0, [user]⟩ }]

/-- The removals that remove a role. -/
def Removal.ofRole (role : String) : List Removal :=
  [{ table := .role, type := plainRole, filter := ⟨1, [role]⟩ },
    { table := .policy, type := plainPolicy, filter := ⟨0, [role]⟩ }]

/-- What several removals leave of the rows of a type. -/
def Removal.remaining (removals : List Removal) (s : RowSection) (type : String)
    (rows : List Row) : List Row :=
  rows.filter fun row => removals.all fun removal => !removal.takes s type row

theorem Removal.not_mem_remaining {removals : List Removal} {removal : Removal}
    (made : removal ∈ removals) {s : RowSection} {type : String} {row : Row}
    (takes : removal.takes s type row = true) (rows : List Row) :
    row ∉ remaining removals s type rows := by
  intro stored
  have kept := List.all_eq_true.mp (List.mem_filter.mp stored).2 removal made
  simp [takes] at kept

theorem Removal.rows_of_removeFiltered {model model' : Model} {removal : Removal}
    {removed : List Row}
    (made : model.removeFiltered removal.table.key removal.type removal.filter =
      .ok (removed, model')) (s : RowSection) (type : String) :
    model'.rows s.key type =
      (model.rows s.key type).filter fun row => !removal.takes s type row := by
  obtain ⟨s', table, table', key, found, taken, rfl⟩ := Model.change_eq_ok_iff.mp made
  obtain rfl := Except.ok.inj (key.symm.trans removal.table.ofKey_key)
  obtain ⟨_, rfl⟩ := Prod.mk.inj (Except.ok.inj taken)
  rw [Model.rows_setTable found]
  unfold takes
  split
  · rename_i here
    obtain ⟨rfl, rfl⟩ := here
    simp [Model.rows_of_table? found]
  · rename_i other
    simp [other]

/-- Whether an answer tells that removals have been made, though the store may have failed. -/
def tellsMade : Except Error Bool → Bool
  | .ok _ => true
  | .error error => error.store?.isSome

namespace Enforcer

variable {σ κ : Type} [PolicyStore σ] {e : Enforcer σ κ} (h : e.model.WellFormed)
include h

theorem rows_applyRemovals {removals : List Removal} (declares : Declares e.model removals)
    (s : RowSection) (type : String) :
    (e.applyRemovals removals).2.model.rows s.key type =
      Removal.remaining removals s type (e.model.rows s.key type) := by
  induction removals generalizing e with
  | nil => exact (List.filter_true _).symm
  | cons removal rest ih =>
      obtain ⟨⟨table, found⟩, others⟩ := List.forall_mem_cons.mp declares
      obtain ⟨removed, model, made⟩ := removeFiltered_eq_ok found removal.filter
      obtain ⟨table, table', changed⟩ := h.apply (apply_of_removeFiltered made)
      have first := Removal.rows_of_removeFiltered made s type
      have both : Removal.remaining rest s type (model.rows s.key type) =
          Removal.remaining (removal :: rest) s type (e.model.rows s.key type) := by
        rw [first]
        simp only [Removal.remaining, List.filter_filter, List.all_cons]
        exact List.filter_congr fun row _ => Bool.and_comm _ _
      rw [applyRemovals_cons h, made, ← both]
      cases none : removed.isEmpty with
      | true =>
          simp only [none, Bool.not_true] at changed
          simp only [none, if_true]
          rw [changed.unchanged rfl]
          exact ih h others
      | false =>
          simp only [none, Bool.not_false, if_true] at changed
          have moved := moved_carryOut (.removeFiltered removal.filter) changed
          have later := ih (moved.wellFormed h) (Declares.congr others (moved.shapes h))
          have followed : (e.carryOut model removal.table removal.type
              (.removeFiltered removal.filter) { removed }).2.model.rows s.key type =
              model.rows s.key type := by
            rw [carryOut_eq]
            exact (Model.tables_follow model _ _ _ _).rows_key s type
          rw [followed] at later
          simp only [none, Bool.false_eq_true, if_false]
          split
          · rename_i failed
            rwa [failed] at later
          · rename_i done
            rwa [done] at later

omit [PolicyStore σ] h in
theorem afterChanges_model (e : Enforcer σ κ) (changes : List PolicyChange) :
    (changes.foldl afterChange e).model = e.model := by
  induction changes generalizing e with
  | nil => rfl
  | cons change rest ih => exact (ih _).trans (afterChange_model e change)

/-- Removals are refused, with an error that does not come from the store, or they take all rows that
    one of them picks, and no other. -/
theorem rows_removeTogether (removals : List Removal) :
    ((∃ error, (e.removeTogether removals).1 = .error error ∧ error.store? = none) ∧
        (e.removeTogether removals).2 = e) ∨
      ∀ s type, (e.removeTogether removals).2.model.rows s.key type =
        Removal.remaining removals s type (e.model.rows s.key type) := by
  unfold removeTogether
  cases refused : e.access with
  | error error => exact .inl ⟨⟨error, rfl, store?_of_access refused⟩, rfl⟩
  | ok _ =>
      cases checked : e.checkRemovals removals with
      | error error => exact .inl ⟨⟨error, rfl, store?_of_checkRemovals checked⟩, rfl⟩
      | ok _ =>
          refine .inr fun s type => ?_
          have rows := rows_applyRemovals h (declares_of_checkRemovals checked) s type
          simp only
          split
          · rename_i failed
            rwa [failed] at rows
          · rename_i done
            rw [done] at rows
            rwa [afterChanges_model]

theorem rows_removeTogether_of_made (removals : List Removal)
    (made : tellsMade (e.removeTogether removals).1 = true) (s : RowSection) (type : String) :
    (e.removeTogether removals).2.model.rows s.key type =
      Removal.remaining removals s type (e.model.rows s.key type) := by
  rcases rows_removeTogether h removals with ⟨⟨error, refused, none⟩, _⟩ | rows
  · simp [refused, tellsMade, none] at made
  · exact rows s type

end Enforcer

/-! ## Mutations -/

/-- A mutation touches a row of a type: the row is named by it, or stored and picked. -/
def Mutation.Touches (model : Model) (mutation : Mutation) (s : RowSection) (type : String)
    (row : Row) : Prop :=
  match mutation with
  | .rows s' type' change =>
    s = s' ∧ type = type' ∧ row ∈ change.touched (model.rows s'.key type')
  | .deleteUser user =>
    row ∈ model.rows s.key type ∧ ∃ removal ∈ Removal.ofUser user, removal.takes s type row
  | .deleteRole role =>
    row ∈ model.rows s.key type ∧ ∃ removal ∈ Removal.ofRole role, removal.takes s type row
  | .clearPolicy => row ∈ model.rows s.key type

namespace Enforcer

variable {σ κ : Type} [PolicyStore σ] {e : Enforcer σ κ} {P : Row → Bool} {s : RowSection}
  {type : String}

theorem filter_rows_removeTogether (h : e.model.WellFormed) (removals : List Removal)
    (apart : ∀ row ∈ e.model.rows s.key type,
      (∃ removal ∈ removals, removal.takes s type row) → P row = false) :
    ((e.removeTogether removals).2.model.rows s.key type).filter P =
      (e.model.rows s.key type).filter P := by
  rcases rows_removeTogether h removals with ⟨_, same⟩ | rows
  · rw [same]
  · rw [rows, Removal.remaining, List.filter_filter]
    refine List.filter_congr fun row stored => ?_
    cases wanted : P row with
    | false => rfl
    | true =>
        rw [Bool.true_and, List.all_eq_true]
        intro removal member
        rw [Bool.not_eq_true']
        by_contra takes
        rw [Bool.not_eq_false] at takes
        exact absurd (apart row stored ⟨removal, member, takes⟩) (by simp [wanted])

/-- Among rows that it does not touch, a mutation leaves everything as it is. -/
theorem filter_rows_mutate (h : e.model.WellFormed) {mutation : Mutation}
    (apart : ∀ row, mutation.Touches e.model s type row → P row = false) :
    ((e.mutate mutation).2.model.rows s.key type).filter P =
      (e.model.rows s.key type).filter P := by
  cases mutation with
  | rows s' type' change =>
      have untouched : s = s' → type = type' →
          ∀ row ∈ change.touched (e.model.rows s'.key type'), P row = false :=
        fun here here' row touched => apart row ⟨here, here', touched⟩
      show ((e.change s' type' change).2.model.rows s.key type).filter P = _
      unfold Enforcer.change
      split
      · rfl
      · rw [applyChange_eq h]
        split
        · rfl
        · rfl
        · rename_i model made
          simp only [carryOut_eq, afterChange_model]
          rw [(Model.tables_follow model _ _ _ _).rows_key]
          exact Model.filter_rows_apply made untouched
  | deleteUser user =>
      exact filter_rows_removeTogether h (Removal.ofUser user)
        fun row stored taken => apart row ⟨stored, taken⟩
  | deleteRole role =>
      exact filter_rows_removeTogether h (Removal.ofRole role)
        fun row stored taken => apart row ⟨stored, taken⟩
  | clearPolicy =>
      have none : (e.model.rows s.key type).filter P = [] := by
        rw [List.filter_eq_nil_iff]
        intro row stored
        simp [apart row stored]
      have cleared : (e.model.clear.buildLinks.2).rows s.key type = [] :=
        ((Model.tables_buildLinks _).rows_key s type).trans (e.model.rows_clear s type)
      show (e.clearPolicy.2.model.rows s.key type).filter P = _
      rw [clearPolicy_eq h]
      split
      · rfl
      · rw [persist_eq]
        split
        · rename_i failed
          obtain ⟨_, rfl⟩ := Prod.mk.inj failed
          rw [cleared, none, List.filter_nil]
        · rename_i done
          obtain ⟨_, rfl⟩ := Prod.mk.inj done
          rw [afterChange_model, cleared, none, List.filter_nil]

end Enforcer

end AccessControl

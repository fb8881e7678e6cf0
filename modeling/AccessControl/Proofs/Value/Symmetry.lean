import AccessControl.Value.Equality

/-! # Equality of values has two equal sides

Neither of the two equalities of values depends on which value stands on the left. Only floats that
are no numbers keep a value from being equal to itself, wherever they stand within it.
-/

namespace AccessControl

namespace Binary64

theorem equals_comm (x y : Binary64) : x.equals y = y.equals x := by
  rw [equals, equals, Bool.and_comm (!x.isNaN), BEq.comm (a := x.rank)]

theorem equals_self (x : Binary64) : x.equals x = !x.isNaN := by
  rw [equals, beq_self_eq_true, Bool.and_true, Bool.and_self]

end Binary64

namespace Value

/-! ## Both sides -/

mutual

theorem same_comm (a b : Value) : a.same b = b.same a := by
  cases a with
  | bool | int | str => cases b <;> simp only [same, BEq.comm]
  | float => cases b <;> simp only [same, Binary64.equals_comm]
  | list as =>
      cases b with
      | list bs => exact sameItems_comm as bs
      | _ => simp only [same]
  | map as =>
      cases b with
      | map bs => exact sameMembers_comm as bs
      | _ => simp only [same]

theorem sameItems_comm (as bs : List Value) : sameItems as bs = sameItems bs as := by
  cases as <;> cases bs
  case cons.cons a as b bs => rw [sameItems, sameItems, same_comm a b, sameItems_comm as bs]
  all_goals simp only [sameItems]

theorem sameMembers_comm (as bs : List (String × Value)) :
    sameMembers as bs = sameMembers bs as := by
  cases as <;> cases bs
  case cons.cons a as b bs =>
    rw [sameMembers, sameMembers, BEq.comm, same_comm a.2 b.2, sameMembers_comm as bs]
  all_goals simp only [sameMembers]

end

theorem numericallyEqual_comm (a b : Value) : numericallyEqual a b = numericallyEqual b a := by
  unfold numericallyEqual
  cases a.number? <;> cases b.number? <;>
    simp only [Bool.or_comm a.isNumeric, Binary64.equals_comm]

mutual

theorem looselyEqual_comm (a b : Value) : a.looselyEqual b = b.looselyEqual a := by
  cases a with
  | bool | int | str =>
      cases b <;> simp only [looselyEqual, BEq.comm, numericallyEqual_comm]
  | float => cases b <;> simp only [looselyEqual, numericallyEqual_comm]
  | list as =>
      cases b with
      | list bs => exact looselyEqualItems_comm as bs
      | _ => simp only [looselyEqual, numericallyEqual_comm]
  | map as =>
      cases b with
      | map bs => exact sameMembers_comm as bs
      | _ => simp only [looselyEqual, numericallyEqual_comm]

theorem looselyEqualItems_comm (as bs : List Value) :
    looselyEqualItems as bs = looselyEqualItems bs as := by
  cases as <;> cases bs
  case cons.cons a as b bs =>
    rw [looselyEqualItems, looselyEqualItems, looselyEqual_comm a b, looselyEqualItems_comm as bs]
  all_goals simp only [looselyEqualItems]

end

/-! ## Values that are equal to themselves -/

/-- Somewhere within a value there is a float that is no number. -/
inductive HoldsNaN : Value → Prop where
  | float {x : Binary64} (nan : x.isNaN = true) : HoldsNaN (.float x)
  | item {v : Value} {items : List Value} (member : v ∈ items) (within : HoldsNaN v) :
      HoldsNaN (.list items)
  | entry {key : String} {v : Value} {members : List (String × Value)}
      (member : (key, v) ∈ members) (within : HoldsNaN v) : HoldsNaN (.map members)

theorem holdsNaN_float_iff {x : Binary64} : (Value.float x).HoldsNaN ↔ x.isNaN = true :=
  ⟨fun | .float nan => nan, .float⟩

theorem holdsNaN_list_iff {items : List Value} :
    (Value.list items).HoldsNaN ↔ ∃ v ∈ items, v.HoldsNaN :=
  ⟨fun | .item member within => ⟨_, member, within⟩, fun ⟨_, member, within⟩ => .item member within⟩

theorem holdsNaN_map_iff {members : List (String × Value)} :
    (Value.map members).HoldsNaN ↔ ∃ entry ∈ members, entry.2.HoldsNaN :=
  ⟨fun | .entry member within => ⟨_, member, within⟩,
    fun ⟨_, member, within⟩ => .entry member within⟩

mutual

theorem same_self_iff (a : Value) : a.same a = true ↔ ¬a.HoldsNaN := by
  cases a with
  | bool | int | str => exact iff_of_true (by simp [same]) nofun
  | float x => simp [same, Binary64.equals_self, holdsNaN_float_iff]
  | list items => rw [same, sameItems_self_iff, holdsNaN_list_iff]; simp
  | map members => rw [same, sameMembers_self_iff, holdsNaN_map_iff]; simp

theorem sameItems_self_iff (items : List Value) :
    sameItems items items = true ↔ ∀ v ∈ items, ¬v.HoldsNaN := by
  cases items with
  | nil => simp [sameItems]
  | cons v rest => simp [sameItems, same_self_iff v, sameItems_self_iff rest]

theorem sameMembers_self_iff (members : List (String × Value)) :
    sameMembers members members = true ↔ ∀ entry ∈ members, ¬entry.2.HoldsNaN := by
  cases members with
  | nil => simp [sameMembers]
  | cons entry rest => simp [sameMembers, same_self_iff entry.2, sameMembers_self_iff rest]

end

mutual

/-- Within maps it is `same` that compares, with the same answer here. -/
theorem looselyEqual_self_iff (a : Value) : a.looselyEqual a = true ↔ ¬a.HoldsNaN := by
  cases a with
  | bool | int | str => exact iff_of_true (by simp [looselyEqual]) nofun
  | float x =>
      simp [looselyEqual, numericallyEqual, number?, isNumeric, Binary64.equals_self,
        holdsNaN_float_iff]
  | list items => rw [looselyEqual, looselyEqualItems_self_iff, holdsNaN_list_iff]; simp
  | map members => rw [looselyEqual, sameMembers_self_iff, holdsNaN_map_iff]; simp

theorem looselyEqualItems_self_iff (items : List Value) :
    looselyEqualItems items items = true ↔ ∀ v ∈ items, ¬v.HoldsNaN := by
  cases items with
  | nil => simp [looselyEqualItems]
  | cons v rest =>
      simp [looselyEqualItems, looselyEqual_self_iff v, looselyEqualItems_self_iff rest]

end

end Value

end AccessControl

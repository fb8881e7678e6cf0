import AccessControl.Proofs.NameMap
import AccessControl.Value.Equality

/-! # What loose equality makes of lists and maps

Lists are loosely equal item by item. Maps are not loosely equal key by key: their values have to be
the same, which two values are just if they are loosely equal and of the same kinds throughout. So
an integer equals the float of its value behind any number of lists, but behind a map it does not.
-/

namespace AccessControl.Value

/-! ## Members in order -/

theorem lookup_eq_get? (key : String) (members : List (String × Value)) :
    lookup key members = NameMap.get? members key := by
  induction members with
  | nil => rfl
  | cons member rest ih =>
      obtain ⟨other, v⟩ := member
      rw [NameMap.get?_cons, ← ih, lookup, List.find?_cons]
      by_cases same : key = other
      · subst same
        simp
      · rw [if_neg same, beq_eq_false_iff_ne.mpr (Ne.symm same)]
        rfl

/-- Every map within a value is in order. Only such values are made (`ordered_ofMembers`), but the
    members of a map are a list, which could hold them in any order. -/
inductive Ordered : Value → Prop where
  | bool (b : Bool) : Ordered (.bool b)
  | int (n : Int64) : Ordered (.int n)
  | float (x : Binary64) : Ordered (.float x)
  | str (text : String) : Ordered (.str text)
  | list {items : List Value} (within : ∀ v ∈ items, Ordered v) : Ordered (.list items)
  | map {members : List (String × Value)} (ascending : NameMap.Ascending members)
      (within : ∀ entry ∈ members, Ordered entry.2) : Ordered (.map members)

namespace Ordered

theorem item {items : List Value} (ordered : (Value.list items).Ordered) {i : Nat} {v : Value}
    (found : items[i]? = some v) : v.Ordered := by
  cases ordered with
  | list within => exact within v (List.mem_of_getElem? found)

theorem ascending {members : List (String × Value)} (ordered : (Value.map members).Ordered) :
    NameMap.Ascending members := by
  cases ordered with
  | map ascending => exact ascending

theorem member {members : List (String × Value)} (ordered : (Value.map members).Ordered)
    {key : String} {v : Value} (found : lookup key members = some v) : v.Ordered := by
  cases ordered with
  | map _ within =>
      rw [lookup_eq_get?] at found
      exact within (key, v) (NameMap.mem_of_get? found)

end Ordered

theorem ordered_ofInteger (n : Int) : (ofInteger n).Ordered := by
  unfold ofInteger
  split
  · exact .int _
  · exact .float _

theorem ordered_ofMembers {members : List (String × Value)}
    (within : ∀ entry ∈ members, entry.2.Ordered) : (ofMembers members).Ordered := by
  -- whatever has been put in ascends, and all of it is ordered
  have kept (sorted : List (String × Value)) (ascending : NameMap.Ascending sorted)
      (all : NameMap.All Ordered sorted) : (Value.map (members.foldl
        (fun sorted entry => NameMap.insert entry.1 entry.2 sorted) sorted)).Ordered := by
    induction members generalizing sorted with
    | nil => exact .map ascending all
    | cons entry rest ih =>
        obtain ⟨here, others⟩ := List.forall_mem_cons.mp within
        exact ih others _ (ascending.insert entry.1 entry.2) (all.insert here)
  exact kept [] List.Pairwise.nil (by simp [NameMap.All])

mutual

theorem ordered_ofJson (j : Json) : (ofJson j).Ordered := by
  cases j with
  | null => exact .str ""
  | bool b => exact .bool b
  | integer n => exact ordered_ofInteger n
  | real x => exact .float x
  | string text => exact .str text
  | array items => exact .list (ordered_itemsOfJson items)
  | object members => exact ordered_ofMembers (ordered_membersOfJson members)

theorem ordered_itemsOfJson (items : List Json) : ∀ v ∈ itemsOfJson items, v.Ordered := by
  cases items with
  | nil => simp [itemsOfJson]
  | cons item rest =>
      exact List.forall_mem_cons.mpr ⟨ordered_ofJson item, ordered_itemsOfJson rest⟩

theorem ordered_membersOfJson (members : List (String × Json)) :
    ∀ entry ∈ membersOfJson members, entry.2.Ordered := by
  cases members with
  | nil => simp [membersOfJson]
  | cons member rest =>
      exact List.forall_mem_cons.mpr ⟨ordered_ofJson member.2, ordered_membersOfJson rest⟩

end

/-! ## Places -/

/-- A place in a list or in a map. -/
inductive Place where
  | item (index : Nat)
  | member (key : String)

/-- What stands at a place of a value. -/
def part? : Value → Place → Option Value
  | .list items, .item index => items[index]?
  | .map members, .member key => lookup key members
  | _, _ => none

/-- Values of different kinds meet at one place of two values, at whatever depth. -/
inductive Crossed : Value → Value → Prop where
  | here {a b : Value} (differ : a.kind ≠ b.kind) : Crossed a b
  | within {a b x y : Value} (place : Place) (left : a.part? place = some x)
      (right : b.part? place = some y) (crossed : Crossed x y) : Crossed a b

/-- Maps meet at one place of two values, and values of different kinds within them. -/
inductive CrossedInMap : Value → Value → Prop where
  | map {ms ns : List (String × Value)} (crossed : (Value.map ms).Crossed (.map ns)) :
      CrossedInMap (.map ms) (.map ns)
  | within {a b x y : Value} (place : Place) (left : a.part? place = some x)
      (right : b.part? place = some y) (crossed : CrossedInMap x y) : CrossedInMap a b

/-- Loose equality carried through lists and maps alike: lists of one length agree item by item,
    maps with the same keys agree key by key, and all else is loosely equal. -/
inductive StructurallyEqual : Value → Value → Prop where
  | flat {a b : Value} (list : a.kind ≠ .list) (map : a.kind ≠ .map)
      (equal : a.looselyEqual b = true) : StructurallyEqual a b
  | list {as bs : List Value} (length : as.length = bs.length)
      (items : ∀ (i : Nat) (x y : Value), as[i]? = some x → bs[i]? = some y →
        StructurallyEqual x y) : StructurallyEqual (.list as) (.list bs)
  | map {ms ns : List (String × Value)}
      (keys : ∀ key, (lookup key ms).isSome = (lookup key ns).isSome)
      (values : ∀ (key : String) (x y : Value), lookup key ms = some x → lookup key ns = some y →
        StructurallyEqual x y) : StructurallyEqual (.map ms) (.map ns)

theorem CrossedInMap.crossed {a b : Value} (inMap : a.CrossedInMap b) : a.Crossed b := by
  induction inMap with
  | map crossed => exact crossed
  | within place left right _ ih => exact .within place left right ih

/-! ## Lists and maps -/

section

variable {as bs : List Value}

theorem crossed_list_iff : (Value.list as).Crossed (.list bs) ↔
    ∃ (i : Nat) (x y : Value), as[i]? = some x ∧ bs[i]? = some y ∧ x.Crossed y := by
  constructor
  · rintro (differ | ⟨place, left, right, crossed⟩)
    · exact absurd rfl differ
    · cases place with
      | item i => exact ⟨i, _, _, left, right, crossed⟩
      | member => cases left
  · rintro ⟨i, x, y, left, right, crossed⟩
    exact .within (.item i) left right crossed

theorem crossedInMap_list_iff : (Value.list as).CrossedInMap (.list bs) ↔
    ∃ (i : Nat) (x y : Value), as[i]? = some x ∧ bs[i]? = some y ∧ x.CrossedInMap y := by
  constructor
  · rintro (_ | ⟨place, left, right, crossed⟩)
    cases place with
    | item i => exact ⟨i, _, _, left, right, crossed⟩
    | member => cases left
  · rintro ⟨i, x, y, left, right, crossed⟩
    exact .within (.item i) left right crossed

theorem structurallyEqual_list_iff : (Value.list as).StructurallyEqual (.list bs) ↔
    as.length = bs.length ∧
      ∀ (i : Nat) (x y : Value), as[i]? = some x → bs[i]? = some y → x.StructurallyEqual y := by
  constructor
  · rintro (⟨list, -, -⟩ | ⟨length, items⟩)
    · exact absurd rfl list
    · exact ⟨length, items⟩
  · rintro ⟨length, items⟩
    exact .list length items

end

section

variable {ms ns : List (String × Value)}

theorem crossed_map_iff : (Value.map ms).Crossed (.map ns) ↔
    ∃ (key : String) (x y : Value),
      lookup key ms = some x ∧ lookup key ns = some y ∧ x.Crossed y := by
  constructor
  · rintro (differ | ⟨place, left, right, crossed⟩)
    · exact absurd rfl differ
    · cases place with
      | item => cases left
      | member key => exact ⟨key, _, _, left, right, crossed⟩
  · rintro ⟨key, x, y, left, right, crossed⟩
    exact .within (.member key) left right crossed

theorem crossedInMap_map_iff :
    (Value.map ms).CrossedInMap (.map ns) ↔ (Value.map ms).Crossed (.map ns) :=
  ⟨CrossedInMap.crossed, .map⟩

theorem structurallyEqual_map_iff : (Value.map ms).StructurallyEqual (.map ns) ↔
    (∀ key, (lookup key ms).isSome = (lookup key ns).isSome) ∧
      ∀ (key : String) (x y : Value), lookup key ms = some x → lookup key ns = some y →
        x.StructurallyEqual y := by
  constructor
  · rintro (⟨-, map, -⟩ | _ | ⟨keys, values⟩)
    · exact absurd rfl map
    · exact ⟨keys, values⟩
  · rintro ⟨keys, values⟩
    exact .map keys values

end

/-! ## Values without parts -/

section

variable {a b : Value} (list : a.kind ≠ .list) (map : a.kind ≠ .map)
include list map

theorem part?_eq_none_of_flat (place : Place) : a.part? place = none := by
  cases a with
  | bool | int | float | str => rfl
  | list => exact absurd rfl list
  | map => exact absurd rfl map

theorem crossed_iff_of_flat : a.Crossed b ↔ a.kind ≠ b.kind := by
  constructor
  · rintro (differ | ⟨place, left, _, _⟩)
    · exact differ
    · rw [part?_eq_none_of_flat list map] at left
      cases left
  · exact .here

theorem looselyEqual_iff_of_flat :
    a.looselyEqual b = true ↔ a.StructurallyEqual b ∧ ¬a.CrossedInMap b := by
  constructor
  · intro equal
    refine ⟨.flat list map equal, ?_⟩
    rintro (_ | ⟨place, left, _, _⟩)
    · exact map rfl
    · rw [part?_eq_none_of_flat list map] at left
      cases left
  · rintro ⟨⟨-, -, equal⟩ | _ | _, -⟩
    · exact equal
    · exact absurd rfl list
    · exact absurd rfl map

/-- Without parts, the two equalities differ only in what they make of different kinds. -/
theorem same_iff_of_flat : a.same b = true ↔ a.looselyEqual b = true ∧ ¬a.Crossed b := by
  rw [crossed_iff_of_flat list map, not_not]
  cases a with
  | bool | int | str => cases b <;> simp [same, looselyEqual, kind]
  | float x =>
      cases b <;> simp [same, looselyEqual, kind, numericallyEqual, number?, isNumeric]
  | list => exact absurd rfl list
  | map => exact absurd rfl map

end

/-! ## Part by part -/

theorem looselyEqualItems_iff {as bs : List Value} : looselyEqualItems as bs = true ↔
    List.Forall₂ (fun x y => x.looselyEqual y = true) as bs := by
  induction as generalizing bs with
  | nil => cases bs <;> simp [looselyEqualItems]
  | cons a as ih => cases bs <;> simp [looselyEqualItems, ih]

theorem sameItems_iff {as bs : List Value} : sameItems as bs = true ↔
    List.Forall₂ (fun x y => x.same y = true) as bs := by
  induction as generalizing bs with
  | nil => cases bs <;> simp [sameItems]
  | cons a as ih => cases bs <;> simp [sameItems, ih]

theorem sameMembers_iff {ms ns : List (String × Value)} : sameMembers ms ns = true ↔
    List.Forall₂ (fun m n => m.1 = n.1 ∧ m.2.same n.2 = true) ms ns := by
  induction ms generalizing ns with
  | nil => cases ns <;> simp [sameMembers]
  | cons m ms ih => cases ns <;> simp [sameMembers, ih]

theorem forall₂_iff_getElem? {R : Value → Value → Prop} {as bs : List Value} :
    List.Forall₂ R as bs ↔ as.length = bs.length ∧
      ∀ (i : Nat) (x y : Value), as[i]? = some x → bs[i]? = some y → R x y := by
  rw [List.forall₂_iff_get]
  refine and_congr_right fun _ => ⟨fun items i x y left right => ?_, fun items i low low' => ?_⟩
  · obtain ⟨low, rfl⟩ := List.getElem?_eq_some_iff.mp left
    obtain ⟨low', rfl⟩ := List.getElem?_eq_some_iff.mp right
    exact items i low low'
  · exact items i _ _ (List.getElem?_eq_getElem low) (List.getElem?_eq_getElem low')

theorem looselyEqual_list_iff {as bs : List Value} :
    (Value.list as).looselyEqual (.list bs) = true ↔ as.length = bs.length ∧
      ∀ (i : Nat) (x y : Value), as[i]? = some x → bs[i]? = some y → x.looselyEqual y = true := by
  rw [looselyEqual, looselyEqualItems_iff, forall₂_iff_getElem?]

theorem same_list_iff {as bs : List Value} :
    (Value.list as).same (.list bs) = true ↔ as.length = bs.length ∧
      ∀ (i : Nat) (x y : Value), as[i]? = some x → bs[i]? = some y → x.same y = true := by
  rw [same, sameItems_iff, forall₂_iff_getElem?]

theorem same_map_iff {ms ns : List (String × Value)} (ascending : NameMap.Ascending ms)
    (ascending' : NameMap.Ascending ns) :
    (Value.map ms).same (.map ns) = true ↔
      (∀ key, (lookup key ms).isSome = (lookup key ns).isSome) ∧
        ∀ (key : String) (x y : Value), lookup key ms = some x → lookup key ns = some y →
          x.same y = true := by
  simp only [same, sameMembers_iff, lookup_eq_get?]
  exact NameMap.forall₂_iff_get? (R := fun x y => x.same y = true) ascending ascending'

theorem looselyEqual_map (ms ns : List (String × Value)) :
    (Value.map ms).looselyEqual (.map ns) = (Value.map ms).same (.map ns) := by
  rw [looselyEqual, same]

/-- What holds of two parts where one thing does and another does not, holds of all parts where the
    one does throughout and the other nowhere. -/
theorem partwise_iff {ι : Type} {outline : Prop} {left right : ι → Value → Prop}
    {P Q C : Value → Value → Prop}
    (part : ∀ i x y, left i x → right i y → (P x y ↔ Q x y ∧ ¬C x y)) :
    (outline ∧ ∀ i x y, left i x → right i y → P x y) ↔
      (outline ∧ ∀ i x y, left i x → right i y → Q x y) ∧
        ¬∃ i x y, left i x ∧ right i y ∧ C x y := by
  constructor
  · rintro ⟨shape, all⟩
    refine ⟨⟨shape, fun i x y l r => ((part i x y l r).mp (all i x y l r)).1⟩, ?_⟩
    rintro ⟨i, x, y, l, r, holds⟩
    exact ((part i x y l r).mp (all i x y l r)).2 holds
  · rintro ⟨⟨shape, all⟩, nowhere⟩
    refine ⟨shape, fun i x y l r => (part i x y l r).mpr ⟨all i x y l r, fun holds => ?_⟩⟩
    exact nowhere ⟨i, x, y, l, r, holds⟩

/-! ## The whole of a value -/

section

variable {a b : Value} (ordered : a.Ordered) (ordered' : b.Ordered)
include ordered ordered'

/-- Values are the same exactly if they are loosely equal and of the same kinds throughout. -/
theorem same_iff_not_crossed : a.same b = true ↔ a.looselyEqual b = true ∧ ¬a.Crossed b := by
  induction ordered generalizing b with
  | bool | int | float | str => exact same_iff_of_flat nofun nofun
  | @list as within ih =>
      cases b with
      | list bs =>
          rw [same_list_iff, looselyEqual_list_iff, crossed_list_iff]
          exact partwise_iff fun i x y left right =>
            ih x (List.mem_of_getElem? left) (ordered'.item right)
      | _ => simp [same, looselyEqual, numericallyEqual, number?]
  | @map ms ascending within ih =>
      cases b with
      | map ns =>
          -- maps are loosely equal if they are the same: nothing is crossed then
          rw [looselyEqual_map, same_map_iff ascending ordered'.ascending, crossed_map_iff]
          refine partwise_iff fun key x y left right => ?_
          rw [lookup_eq_get?] at left
          have part := ih (key, x) (NameMap.mem_of_get? left) (ordered'.member right)
          exact ⟨fun equal => ⟨equal, (part.mp equal).2⟩, And.left⟩
      | _ => simp [same, looselyEqual, numericallyEqual, number?]

theorem looselyEqual_iff_structurallyEqual :
    a.looselyEqual b = true ↔ a.StructurallyEqual b ∧ ¬a.CrossedInMap b := by
  induction ordered generalizing b with
  | bool | int | float | str => exact looselyEqual_iff_of_flat nofun nofun
  | @list as within ih =>
      cases b with
      | list bs =>
          rw [looselyEqual_list_iff, structurallyEqual_list_iff, crossedInMap_list_iff]
          exact partwise_iff fun i x y left right =>
            ih x (List.mem_of_getElem? left) (ordered'.item right)
      | _ =>
          refine iff_of_false (by simp [looselyEqual, numericallyEqual, number?]) ?_
          rintro ⟨⟨list, map, -⟩, -⟩
          exact list rfl
  | @map ms ascending within ih =>
      cases b with
      | map ns =>
          rw [looselyEqual_map, same_map_iff ascending ordered'.ascending,
            structurallyEqual_map_iff, crossedInMap_map_iff, crossed_map_iff]
          refine partwise_iff fun key x y left right => ?_
          have inner' := ordered'.member right
          rw [lookup_eq_get?] at left
          have member := NameMap.mem_of_get? left
          have inner : x.Ordered := within (key, x) member
          have part : x.looselyEqual y = true ↔ x.StructurallyEqual y ∧ ¬x.CrossedInMap y :=
            ih (key, x) member inner'
          rw [same_iff_not_crossed inner inner', part, and_assoc]
          exact and_congr_right fun _ =>
            and_iff_right_of_imp fun apart inMap => apart inMap.crossed
      | _ =>
          refine iff_of_false (by simp [looselyEqual, numericallyEqual, number?]) ?_
          rintro ⟨⟨list, map, -⟩, -⟩
          exact map rfl

end

theorem looselyEqual_map_iff {ms ns : List (String × Value)} (ordered : (Value.map ms).Ordered)
    (ordered' : (Value.map ns).Ordered) :
    (Value.map ms).looselyEqual (.map ns) = true ↔
      (∀ key, (lookup key ms).isSome = (lookup key ns).isSome) ∧
        ∀ (key : String) (x y : Value), lookup key ms = some x → lookup key ns = some y →
          x.looselyEqual y = true ∧ ¬x.Crossed y := by
  rw [looselyEqual_map, same_map_iff ordered.ascending ordered'.ascending]
  refine and_congr_right fun _ => forall₃_congr fun key x y => forall₂_congr fun left right => ?_
  exact same_iff_not_crossed (ordered.member left) (ordered'.member right)

/-- Lists are loosely equal exactly if they have one length and their items are loosely equal. Maps
    are so exactly if they have the same keys and the values under each are loosely equal, without
    different kinds that meet in them. So at every depth loose equality is what goes through lists
    and maps alike, unless different kinds meet within maps: then the values are unequal. -/
theorem looselyEqual_structural {a b : Value} (ordered : a.Ordered) (ordered' : b.Ordered) :
    (∀ as bs : List Value, a = .list as → b = .list bs →
      (a.looselyEqual b = true ↔ as.length = bs.length ∧
        ∀ (i : Nat) (x y : Value), as[i]? = some x → bs[i]? = some y →
          x.looselyEqual y = true)) ∧
    (∀ ms ns : List (String × Value), a = .map ms → b = .map ns →
      (a.looselyEqual b = true ↔
        (∀ key, (lookup key ms).isSome = (lookup key ns).isSome) ∧
        ∀ (key : String) (x y : Value), lookup key ms = some x → lookup key ns = some y →
          x.looselyEqual y = true ∧ ¬x.Crossed y)) ∧
    (a.looselyEqual b = true ↔ a.StructurallyEqual b ∧ ¬a.CrossedInMap b) := by
  refine ⟨?_, ?_, looselyEqual_iff_structurallyEqual ordered ordered'⟩
  · rintro as bs rfl rfl
    exact looselyEqual_list_iff
  · rintro ms ns rfl rfl
    exact looselyEqual_map_iff ordered ordered'

/-- An integer and a float of one value, in lists around a map with an integer in both. -/
theorem looselyEqual_structural_aroundMap :
    (Value.list [.int 1, .map [("level", .int 2)]]).Ordered ∧
    (Value.list [.float (Binary64.ofInt 1), .map [("level", .int 2)]]).Ordered ∧
    (Value.list [.int 1, .map [("level", .int 2)]]).StructurallyEqual
      (.list [.float (Binary64.ofInt 1), .map [("level", .int 2)]]) ∧
    ¬(Value.list [.int 1, .map [("level", .int 2)]]).CrossedInMap
      (.list [.float (Binary64.ofInt 1), .map [("level", .int 2)]]) ∧
    ¬(Value.map [("level", .int 2)]).looselyEqual
      (.map [("level", .float (Binary64.ofInt 2))]) = true := by
  have whole : (Value.list [.int 1, .map [("level", .int 2)]]).Ordered :=
    ordered_ofJson (.array [.integer 1, .object [("level", .integer 2)]])
  have whole' : (Value.list [.float (Binary64.ofInt 1), .map [("level", .int 2)]]).Ordered :=
    ordered_ofJson (.array [.real (Binary64.ofInt 1), .object [("level", .integer 2)]])
  have map : (Value.map [("level", .int 2)]).Ordered :=
    ordered_ofJson (.object [("level", .integer 2)])
  have map' : (Value.map [("level", .float (Binary64.ofInt 2))]).Ordered :=
    ordered_ofJson (.object [("level", .real (Binary64.ofInt 2))])
  obtain ⟨equal, apart⟩ := (looselyEqual_structural whole whole').2.2.mp rfl
  refine ⟨whole, whole', equal, apart, fun equal => ?_⟩
  obtain ⟨-, values⟩ := ((looselyEqual_structural map map').2.1 _ _ rfl rfl).mp equal
  exact (values "level" _ _ rfl rfl).2 (.here nofun)

/-- Under one key, the integer 1 and the float 1 make maps unequal that have the same keys and
    loosely equal values. -/
theorem integer_apart_from_float_in_map :
    (Value.map [("level", .int 1)]).Ordered ∧
    (Value.map [("level", .float (Binary64.ofInt 1))]).Ordered ∧
    (∀ key, (lookup key [("level", .int 1)]).isSome =
      (lookup key [("level", .float (Binary64.ofInt 1))]).isSome) ∧
    (∀ (key : String) (x y : Value), lookup key [("level", .int 1)] = some x →
      lookup key [("level", .float (Binary64.ofInt 1))] = some y → x.looselyEqual y = true) ∧
    (Value.map [("level", .int 1)]).looselyEqual
      (.map [("level", .float (Binary64.ofInt 1))]) = false := by
  refine ⟨ordered_ofJson (.object [("level", .integer 1)]),
    ordered_ofJson (.object [("level", .real (Binary64.ofInt 1))]), fun key => ?_,
    fun key x y left right => ?_, rfl⟩
  · by_cases level : "level" = key <;> simp [lookup, level]
  · by_cases level : "level" = key
    · simp only [lookup, level, List.find?_cons, beq_self_eq_true, Option.map_some,
        Option.some.injEq] at left right
      subst left right
      rfl
    · simp [lookup, level] at left

end AccessControl.Value

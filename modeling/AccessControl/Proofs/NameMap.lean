import AccessControl.NameMap
import Mathlib.Data.List.Basic
import Mathlib.Data.List.Sort
import Mathlib.Data.String.Basic

/-! # Maps in the order of their keys: what the operations do to look-ups -/

namespace AccessControl.NameMap

variable {α : Type}

/-- Every entry of a map has a property. -/
def All (P : α → Prop) (map : NameMap α) : Prop := ∀ entry ∈ map, P entry.2

theorem get?_cons (other : String) (entry : α) (rest : NameMap α) (name : String) :
    get? ((other, entry) :: rest) name = if name = other then some entry else get? rest name := by
  unfold get?
  rw [List.lookup_cons]
  by_cases same : name = other
  · simp [same]
  · rw [if_neg same, beq_eq_false_iff_ne.mpr same]

theorem mem_of_get? {map : NameMap α} {name : String} {entry : α}
    (found : map.get? name = some entry) : (name, entry) ∈ map := by
  obtain ⟨before, after, rfl, _⟩ := List.lookup_eq_some_iff.mp found
  exact List.mem_append_right before List.mem_cons_self

theorem get?_eq_some_iff {map : NameMap α} (distinct : (map.map (·.1)).Nodup) {name : String}
    {entry : α} : map.get? name = some entry ↔ (name, entry) ∈ map := by
  refine ⟨mem_of_get?, fun member => ?_⟩
  induction map with
  | nil => simp at member
  | cons head rest ih =>
      obtain ⟨other, present⟩ := head
      obtain ⟨fresh, distinct⟩ := List.nodup_cons.mp distinct
      rw [get?_cons]
      rcases List.mem_cons.mp member with same | member
      · obtain ⟨rfl, rfl⟩ := Prod.mk.inj same
        rw [if_pos rfl]
      · have differ : name ≠ other := fun same =>
          fresh (same ▸ List.mem_map_of_mem (f := (·.1)) member)
        rw [if_neg differ, ih distinct member]

theorem isSome_get?_iff {map : NameMap α} {name : String} :
    (map.get? name).isSome = true ↔ name ∈ map.map (·.1) := by
  unfold get?
  rw [List.lookup_isSome_iff]
  simp

theorem get?_filter_ne (map : NameMap α) (name other : String) :
    get? (map.filter (·.1 != name)) other = if other = name then none else map.get? other := by
  induction map with
  | nil => simp [get?]
  | cons head rest ih =>
      obtain ⟨key, entry⟩ := head
      rw [List.filter_cons]
      by_cases here : key = name
      · subst here
        simp only [bne_self_eq_false, Bool.false_eq_true, if_false, ih, get?_cons]
        split <;> rfl
      · simp only [bne_iff_ne.mpr here, if_true, get?_cons, ih]
        by_cases same : other = key
        · subst same
          rw [if_pos rfl, if_neg here, if_pos rfl]
        · simp only [if_neg same]

theorem All.get? {P : α → Prop} {map : NameMap α} (all : All P map) {name : String} {entry : α}
    (found : map.get? name = some entry) : P entry :=
  all (name, entry) (mem_of_get? found)

theorem get?_modify (map : NameMap α) (name : String) (change : α → α) (other : String) :
    (map.modify name change).get? other =
      if other = name then (map.get? name).map change else map.get? other := by
  induction map with
  | nil => simp [modify, NameMap.get?]
  | cons head rest ih =>
      obtain ⟨key, entry⟩ := head
      simp only [modify]
      by_cases here : key = name
      · subst here
        simp only [if_true, get?_cons]
        split <;> rfl
      · simp only [if_neg here, get?_cons, ih]
        by_cases wanted : other = name
        · subst wanted
          simp only [if_neg (Ne.symm here), if_true]
        · simp only [if_neg wanted]

theorem map_modify_congr {β : Type} (f : String × α → β) {map : NameMap α} {name : String}
    {change change' : α → α}
    (same : ∀ entry, map.get? name = some entry →
      f (name, change entry) = f (name, change' entry)) :
    (map.modify name change).map f = (map.modify name change').map f := by
  induction map with
  | nil => rfl
  | cons head rest ih =>
      obtain ⟨key, entry⟩ := head
      simp only [modify]
      by_cases here : key = name
      · subst here
        simp only [if_true, List.map_cons]
        rw [same entry (by simp [get?_cons])]
      · simp only [if_neg here, List.map_cons]
        rw [ih fun entry found => same entry (by simp [get?_cons, Ne.symm here, found])]

theorem modify_congr {map : NameMap α} {name : String} {change change' : α → α}
    (same : ∀ entry, map.get? name = some entry → change entry = change' entry) :
    map.modify name change = map.modify name change' := by
  simpa using map_modify_congr id fun entry found => congrArg (name, ·) (same entry found)

theorem modify_id (map : NameMap α) (name : String) : map.modify name id = map := by
  induction map with
  | nil => rfl
  | cons head rest ih =>
      simp only [modify, ih]
      split <;> rfl

theorem modify_eq_self {map : NameMap α} {name : String} {change : α → α}
    (same : ∀ entry, map.get? name = some entry → change entry = entry) :
    map.modify name change = map :=
  (modify_congr same).trans (map.modify_id name)

theorem map_modify {β : Type} (f : String × α → β) (map : NameMap α) (name : String)
    (change : α → α)
    (same : ∀ entry, map.get? name = some entry → f (name, change entry) = f (name, entry)) :
    (map.modify name change).map f = map.map f := by
  have seen : (map.modify name change).map f = (map.modify name id).map f :=
    map_modify_congr f same
  rwa [modify_id] at seen

theorem modify_modify (map : NameMap α) (name : String) (change change' : α → α) :
    (map.modify name change).modify name change' = map.modify name (change' ∘ change) := by
  induction map with
  | nil => rfl
  | cons head rest ih =>
      obtain ⟨key, entry⟩ := head
      simp only [modify]
      by_cases here : key = name
      · simp only [if_pos here, modify, Function.comp_apply]
      · simp only [if_neg here, modify, ih]

theorem get?_insert (name : String) (entry : α) (map : NameMap α) (other : String) :
    get? (insert name entry map) other = if other = name then some entry else map.get? other := by
  induction map with
  | nil => exact get?_cons name entry [] other
  | cons head rest ih =>
      obtain ⟨key, present⟩ := head
      simp only [insert]
      by_cases here : name = key
      · subst here
        simp only [if_true, get?_cons]
        split <;> rfl
      · rw [if_neg here]
        split
        · rw [get?_cons]
        · simp only [get?_cons, ih]
          by_cases wanted : other = key
          · subst wanted
            rw [if_pos rfl, if_neg (Ne.symm here)]
            simp
          · simp only [if_neg wanted]

theorem mem_names_insert (name : String) (entry : α) (map : NameMap α) (other : String) :
    other ∈ (insert name entry map).map (·.1) ↔ other = name ∨ other ∈ map.map (·.1) := by
  induction map with
  | nil => simp [insert]
  | cons head rest ih =>
      obtain ⟨key, present⟩ := head
      simp only [insert]
      split
      · rename_i here
        simp [here]
      · split
        · simp
        · rw [List.map_cons, List.mem_cons, ih, List.map_cons, List.mem_cons]
          tauto

theorem All.insert {P : α → Prop} {map : NameMap α} (all : All P map) {name : String} {entry : α}
    (holds : P entry) : All P (NameMap.insert name entry map) := by
  induction map with
  | nil => simpa [NameMap.insert, All] using holds
  | cons head rest ih =>
      obtain ⟨first, others⟩ := List.forall_mem_cons.mp all
      simp only [NameMap.insert]
      split
      · exact List.forall_mem_cons.mpr ⟨holds, others⟩
      · split
        · exact List.forall_mem_cons.mpr ⟨holds, all⟩
        · exact List.forall_mem_cons.mpr ⟨first, ih others⟩

/-- The names of a map ascend. -/
def Ascending (map : NameMap α) : Prop := (map.map (·.1)).Pairwise (· < ·)

theorem Ascending.nodup {map : NameMap α} (ascending : Ascending map) :
    (map.map (·.1)).Nodup := ascending.imp ne_of_lt

theorem Ascending.insert {map : NameMap α} (ascending : Ascending map) (name : String)
    (entry : α) : Ascending (insert name entry map) := by
  induction map with
  | nil => exact List.pairwise_singleton _ _
  | cons head rest ih =>
      obtain ⟨key, present⟩ := head
      obtain ⟨first, others⟩ := List.pairwise_cons.mp ascending
      simp only [NameMap.insert]
      split
      · rename_i here
        exact List.pairwise_cons.mpr ⟨here ▸ first, others⟩
      · rename_i differ
        split
        · rename_i before
          refine List.pairwise_cons.mpr ⟨fun other member => ?_, ascending⟩
          rcases List.mem_cons.mp member with rfl | member
          · exact before
          · exact before.trans (first other member)
        · rename_i behind
          refine List.pairwise_cons.mpr ⟨fun other member => ?_, ih others⟩
          rcases (mem_names_insert name entry rest other).mp member with rfl | member
          · exact lt_of_le_of_ne (not_lt.mp behind) (Ne.symm differ)
          · exact first other member

theorem forall₂_of_names {R : α → α → Prop} {map map' : NameMap α}
    (distinct : (map.map (·.1)).Nodup) (names : map.map (·.1) = map'.map (·.1))
    (entries : ∀ name x y, map.get? name = some x → map'.get? name = some y → R x y) :
    List.Forall₂ (fun m n => m.1 = n.1 ∧ R m.2 n.2) map map' := by
  induction map generalizing map' with
  | nil =>
      obtain rfl := List.map_eq_nil_iff.mp names.symm
      exact .nil
  | cons head rest ih =>
      obtain ⟨key, x⟩ := head
      obtain ⟨⟨key', y⟩, rest', rfl, rfl, others⟩ := List.map_eq_cons_iff.mp names.symm
      obtain ⟨fresh, distinct⟩ := List.nodup_cons.mp distinct
      refine .cons ⟨rfl, entries key' x y ?_ ?_⟩ (ih distinct others.symm ?_)
      · rw [get?_cons, if_pos rfl]
      · rw [get?_cons, if_pos rfl]
      · intro name x' y' found found'
        have differ : name ≠ key' := by
          rintro rfl
          exact fresh (isSome_get?_iff.mp (found ▸ rfl))
        refine entries name x' y' ?_ ?_
        · rw [get?_cons, if_neg differ, found]
        · rw [get?_cons, if_neg differ, found']

/-- Ascending maps agree entry by entry exactly if they have the same names and agree at each. -/
theorem forall₂_iff_get? {R : α → α → Prop} {map map' : NameMap α} (ascending : Ascending map)
    (ascending' : Ascending map') :
    List.Forall₂ (fun m n => m.1 = n.1 ∧ R m.2 n.2) map map' ↔
      (∀ name, (map.get? name).isSome = (map'.get? name).isSome) ∧
        ∀ name x y, map.get? name = some x → map'.get? name = some y → R x y := by
  constructor
  · intro agree
    clear ascending ascending'
    induction agree with
    | nil => exact ⟨fun _ => rfl, nofun⟩
    | @cons m n rest rest' here _ ih =>
        obtain ⟨key, x⟩ := m
        obtain ⟨key', y⟩ := n
        obtain ⟨rfl, related⟩ := here
        obtain ⟨names, entries⟩ := ih
        refine ⟨fun name => ?_, fun name x' y' found found' => ?_⟩
        · rw [get?_cons, get?_cons]
          split
          · rfl
          · exact names name
        · rw [get?_cons] at found found'
          split at found
          next same =>
            rw [if_pos same] at found'
            cases found
            cases found'
            exact related
          next differ =>
            rw [if_neg differ] at found'
            exact entries name x' y' found found'
  · rintro ⟨names, entries⟩
    refine forall₂_of_names ascending.nodup ?_ entries
    refine List.Pairwise.eq_of_mem_iff ascending ascending' fun name => ?_
    rw [← isSome_get?_iff, ← isSome_get?_iff, names]

theorem get?_map {β : Type} (f : α → β) (map : NameMap α) (name : String) :
    get? (map.map fun entry => (entry.1, f entry.2)) name = (map.get? name).map f := by
  induction map with
  | nil => rfl
  | cons head rest ih =>
      obtain ⟨key, entry⟩ := head
      simp only [List.map_cons, get?_cons, ih]
      split <;> rfl

theorem modify_map {β : Type} (f : α → β) (change : α → α) (change' : β → β)
    (same : ∀ entry, change' (f entry) = f (change entry)) (map : NameMap α) (name : String) :
    modify (map.map fun entry => (entry.1, f entry.2)) name change' =
      (map.modify name change).map fun entry => (entry.1, f entry.2) := by
  induction map with
  | nil => rfl
  | cons head rest ih =>
      obtain ⟨key, entry⟩ := head
      simp only [List.map_cons, modify]
      split
      · rw [List.map_cons, same]
      · rw [List.map_cons, ih]

theorem map_modify_map (f change : α → α) (idempotent : ∀ entry, f (f entry) = f entry)
    (lost : ∀ entry, f (change (f entry)) = f (change entry)) (map : NameMap α) (name : String) :
    (modify (map.map fun entry => (entry.1, f entry.2)) name change).map
        (fun entry => (entry.1, f entry.2)) =
      (map.modify name change).map fun entry => (entry.1, f entry.2) := by
  have trade := modify_map f change (f ∘ change) lost
  rw [← trade, ← trade, List.map_map]
  simp only [Function.comp_def, idempotent]

end AccessControl.NameMap

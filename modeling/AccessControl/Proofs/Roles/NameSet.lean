import AccessControl.Proofs.NameMap
import AccessControl.Roles.Index
import Mathlib.Data.List.Sort
import Mathlib.Data.String.Basic

/-! # Sorted sets of names, and indices of them

Two sets with the same members are the same list. So whatever is put together from the members of
sets does not depend on how the sets came about. An index is regular if it has no name twice and
leads from every name to a set that is not empty.
-/

namespace AccessControl

namespace NameSet

/-- The names of a set ascend. -/
def Sorted (set : NameSet) : Prop := set.Pairwise (· < ·)

theorem mem_insert (name : String) (set : NameSet) (other : String) :
    other ∈ insert name set ↔ other = name ∨ other ∈ set := by
  induction set with
  | nil => simp [insert]
  | cons first rest ih =>
      simp only [insert]
      split
      · rename_i same
        subst same
        simp
      · split
        · rw [List.mem_cons]
        · rw [List.mem_cons, ih, List.mem_cons]
          exact or_left_comm

theorem Sorted.insert {set : NameSet} (sorted : set.Sorted) (name : String) :
    (NameSet.insert name set).Sorted := by
  induction set with
  | nil => exact List.pairwise_singleton _ name
  | cons first rest ih =>
      obtain ⟨least, others⟩ := List.pairwise_cons.mp sorted
      simp only [NameSet.insert]
      split
      · exact sorted
      · rename_i differ
        split
        · rename_i before
          refine List.pairwise_cons.mpr ⟨fun other member => ?_, sorted⟩
          rcases List.mem_cons.mp member with rfl | member
          · exact before
          · exact before.trans (least other member)
        · rename_i notBefore
          have after : first < name := lt_of_le_of_ne (not_lt.mp notBefore) (Ne.symm differ)
          refine List.pairwise_cons.mpr ⟨fun other member => ?_, ih others⟩
          rcases (mem_insert name rest other).mp member with rfl | member
          · exact after
          · exact least other member

theorem Sorted.nodup {set : NameSet} (sorted : set.Sorted) : set.Nodup :=
  sorted.imp fun before => ne_of_lt before

theorem mem_ofList (names : List String) (name : String) : name ∈ ofList names ↔ name ∈ names := by
  have general : ∀ set : NameSet,
      name ∈ names.foldl (fun set name => insert name set) set ↔ name ∈ set ∨ name ∈ names := by
    induction names with
    | nil => simp
    | cons first rest ih =>
        intro set
        rw [List.foldl_cons, ih, mem_insert, List.mem_cons]
        tauto
  simpa [ofList] using general []

theorem sorted_ofList (names : List String) : (ofList names).Sorted := by
  have general : ∀ set : NameSet, set.Sorted →
      (names.foldl (fun set name => insert name set) set).Sorted := by
    induction names with
    | nil => exact fun _ sorted => sorted
    | cons first rest ih => exact fun _ sorted => ih _ (sorted.insert first)
  exact general [] List.Pairwise.nil

theorem Sorted.ext {set set' : NameSet} (sorted : set.Sorted) (sorted' : set'.Sorted)
    (same : ∀ name, name ∈ set ↔ name ∈ set') : set = set' :=
  List.Pairwise.eq_of_mem_iff sorted sorted' same

theorem ofList_congr {names names' : List String} (same : ∀ name, name ∈ names ↔ name ∈ names') :
    ofList names = ofList names' := by
  refine (sorted_ofList names).ext (sorted_ofList names') fun name => ?_
  rw [mem_ofList, mem_ofList, same]

end NameSet

namespace NameIndex

/-- What all operations of an index keep. -/
structure Regular (index : NameIndex) : Prop where
  keys : (index.map (·.1)).Nodup
  sets : ∀ entry ∈ index, entry.2 ≠ [] ∧ entry.2.Sorted

theorem regular_nil : Regular [] := ⟨List.nodup_nil, by simp⟩

theorem linked_cons (key : String) (set : NameSet) (rest : NameIndex) (name : String) :
    linked ((key, set) :: rest) name = if name = key then set else linked rest name := by
  have found := NameMap.get?_cons key set rest name
  unfold NameMap.get? at found
  unfold linked
  rw [found]
  split <;> rfl

theorem Regular.tail {entry : String × NameSet} {rest : NameIndex}
    (regular : Regular (entry :: rest)) : Regular rest :=
  ⟨(List.nodup_cons.mp regular.keys).2, fun other member =>
    regular.sets other (List.mem_cons_of_mem entry member)⟩

theorem Regular.mem_linked_iff {index : NameIndex} (regular : Regular index)
    (name other : String) :
    other ∈ linked index name ↔ ∃ set, (name, set) ∈ index ∧ other ∈ set := by
  induction index with
  | nil => simp [linked]
  | cons entry rest ih =>
      obtain ⟨key, set⟩ := entry
      rw [linked_cons]
      by_cases here : name = key
      · subst here
        have absent : ∀ set', (name, set') ∉ rest := fun set' member =>
          (List.nodup_cons.mp regular.keys).1 (List.mem_map_of_mem (f := (·.1)) member)
        simp [absent]
      · rw [if_neg here, ih regular.tail]
        simp [here]

theorem mem_linked_link (name other : String) (index : NameIndex) (name' other' : String) :
    other' ∈ linked (link name other index) name' ↔
      name' = name ∧ other' = other ∨ other' ∈ linked index name' := by
  induction index with
  | nil =>
      simp only [link, linked_cons]
      split <;> simp_all [linked]
  | cons entry rest ih =>
      obtain ⟨key, set⟩ := entry
      simp only [link]
      by_cases here : key = name
      · subst here
        rw [if_pos rfl, linked_cons, linked_cons]
        split
        · rename_i same
          rw [NameSet.mem_insert]
          simp [same]
        · rename_i differ
          simp [differ]
      · rw [if_neg here, linked_cons, linked_cons]
        split
        · rename_i same
          subst same
          simp [here]
        · exact ih

theorem keys_link (name other : String) (index : NameIndex) (key : String) :
    key ∈ (link name other index).map (·.1) ↔ key = name ∨ key ∈ index.map (·.1) := by
  induction index with
  | nil => simp [link]
  | cons entry rest ih =>
      obtain ⟨key', set⟩ := entry
      simp only [link]
      split
      · rename_i here
        simp [here]
      · rw [List.map_cons, List.mem_cons, ih, List.map_cons, List.mem_cons]
        exact or_left_comm

theorem Regular.link {index : NameIndex} (regular : Regular index) (name other : String) :
    Regular (NameIndex.link name other index) := by
  induction index with
  | nil =>
      refine ⟨by simp [NameIndex.link], fun entry member => ?_⟩
      obtain rfl := List.mem_singleton.mp member
      exact ⟨by simp, List.pairwise_singleton _ other⟩
  | cons entry rest ih =>
      obtain ⟨key, set⟩ := entry
      have tail := regular.tail
      obtain ⟨fresh, distinct⟩ := List.nodup_cons.mp regular.keys
      obtain ⟨_, sorted⟩ := regular.sets (key, set) List.mem_cons_self
      simp only [NameIndex.link]
      split
      · refine ⟨regular.keys, fun entry member => ?_⟩
        rcases List.mem_cons.mp member with rfl | member
        · exact ⟨List.ne_nil_of_mem ((NameSet.mem_insert other set other).mpr (.inl rfl)),
            sorted.insert other⟩
        · exact tail.sets entry member
      · rename_i differ
        have linked := ih tail
        refine ⟨List.nodup_cons.mpr ⟨fun member => ?_, linked.keys⟩, fun entry member => ?_⟩
        · rcases (keys_link name other rest key).mp member with same | member
          · exact differ same
          · exact fresh member
        · rcases List.mem_cons.mp member with rfl | member
          · exact regular.sets (key, set) List.mem_cons_self
          · exact linked.sets entry member

theorem mem_unlink {name other : String} {index : NameIndex} {entry : String × NameSet}
    (member : entry ∈ unlink name other index) :
    entry ∈ index ∨ ∃ set, (entry.1, set) ∈ index ∧ entry.2 = set.erase other ∧ entry.2 ≠ [] := by
  induction index with
  | nil => simp [unlink] at member
  | cons head rest ih =>
      obtain ⟨key, set⟩ := head
      simp only [unlink] at member
      split at member
      · split at member
        · exact .inl (List.mem_cons_of_mem _ member)
        · rename_i nonempty
          rcases List.mem_cons.mp member with rfl | member
          · exact .inr ⟨set, List.mem_cons_self, rfl, nonempty⟩
          · exact .inl (List.mem_cons_of_mem _ member)
      · rcases List.mem_cons.mp member with rfl | member
        · exact .inl List.mem_cons_self
        · rcases ih member with member | ⟨set', member, erased, nonempty⟩
          · exact .inl (List.mem_cons_of_mem _ member)
          · exact .inr ⟨set', List.mem_cons_of_mem _ member, erased, nonempty⟩

theorem keys_unlink (name other : String) (index : NameIndex) :
    ((unlink name other index).map (·.1)).Sublist (index.map (·.1)) := by
  induction index with
  | nil => exact .slnil
  | cons head rest ih =>
      obtain ⟨key, set⟩ := head
      simp only [unlink]
      split
      · split
        · exact .cons _ (.refl _)
        · exact .refl _
      · exact .cons_cons _ ih

theorem Regular.unlink {index : NameIndex} (regular : Regular index) (name other : String) :
    Regular (NameIndex.unlink name other index) := by
  refine ⟨regular.keys.sublist (keys_unlink name other index), fun entry member => ?_⟩
  rcases mem_unlink member with member | ⟨set, member, erased, nonempty⟩
  · exact regular.sets entry member
  · have sorted := (regular.sets (entry.1, set) member).2
    exact ⟨nonempty, erased ▸ List.Pairwise.sublist List.erase_sublist sorted⟩

theorem Regular.mem_linked_unlink {index : NameIndex} (regular : Regular index)
    (name other name' other' : String) :
    other' ∈ linked (NameIndex.unlink name other index) name' ↔
      ¬(name' = name ∧ other' = other) ∧ other' ∈ linked index name' := by
  induction index with
  | nil => simp [NameIndex.unlink, linked]
  | cons head rest ih =>
      obtain ⟨key, set⟩ := head
      have distinct := (regular.sets (key, set) List.mem_cons_self).2.nodup
      have absent : linked rest key = [] := by
        refine List.eq_nil_iff_forall_not_mem.mpr fun found member => ?_
        obtain ⟨set', member, _⟩ := (regular.tail.mem_linked_iff key found).mp member
        exact (List.nodup_cons.mp regular.keys).1 (List.mem_map_of_mem (f := (·.1)) member)
      simp only [NameIndex.unlink]
      by_cases here : key = name
      · subst here
        rw [if_pos rfl, linked_cons]
        split
        · rename_i erased
          split
          · rename_i same
            subst same
            have member := distinct.mem_erase_iff (a := other') (b := other)
            rw [erased] at member
            simpa [absent] using member
          · rename_i differ
            simp [differ]
        · rw [linked_cons]
          split
          · rename_i same
            rw [distinct.mem_erase_iff]
            simp [same]
          · rename_i differ
            simp [differ]
      · rw [if_neg here, linked_cons, linked_cons]
        split
        · rename_i same
          subst same
          simp [here]
        · exact ih regular.tail

theorem Regular.mem_linkedWhere {index : NameIndex} (regular : Regular index)
    (test : String → Bool) (other : String) :
    other ∈ linkedWhere index test ↔ ∃ name, test name = true ∧ other ∈ linked index name := by
  simp only [linkedWhere, List.mem_flatMap, List.mem_filter, regular.mem_linked_iff]
  constructor
  · rintro ⟨⟨name, set⟩, ⟨member, passes⟩, found⟩
    exact ⟨name, passes, set, member, found⟩
  · rintro ⟨name, passes, set, member, found⟩
    exact ⟨(name, set), ⟨member, passes⟩, found⟩

theorem Regular.hasEntry_iff {index : NameIndex} (regular : Regular index) (name : String) :
    hasEntry index name = true ↔ ∃ other, other ∈ linked index name := by
  unfold hasEntry linked
  cases found : index.lookup name with
  | none => simp
  | some set =>
      have nonempty := (regular.sets (name, set) (NameMap.mem_of_get? found)).1
      simpa using List.exists_mem_of_ne_nil set nonempty

end NameIndex

end AccessControl

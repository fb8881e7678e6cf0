import AccessControl.Proofs.Regex.Run
import AccessControl.Regex.Parse
import Mathlib.Data.List.Forall2

/-! # Expressions in a row

Parts that stand side by side keep their meaning, and a way through all of them is a way through each
in turn. A repeated set takes a text of its members.
-/

namespace AccessControl

/-! ## Sets -/

namespace CodePointSet

@[simp]
theorem contains_single (d c : Char) : (single d).contains c = (c == d) := by
  simp only [contains, single, ofRange, List.any_cons, List.any_nil, Bool.or_false]
  rw [Bool.eq_iff_iff]
  simp only [Bool.and_eq_true, decide_eq_true_eq, beq_iff_eq]
  constructor
  · rintro ⟨low, high⟩
    exact Char.toNat_inj.mp (Nat.le_antisymm high low)
  · rintro rfl
    exact ⟨Nat.le_refl _, Nat.le_refl _⟩

theorem contains_complement_single {d : Char} (first : 0 < d.toNat) (below : d.toNat < 0xD7FF)
    (c : Char) : (single d).complement.contains c = (c != d) := by
  have last : c.toNat ≤ lastCode := by
    have valid := c.valid
    simp only [UInt32.isValidChar, Nat.isValidChar] at valid
    have : c.toNat = c.val.toNat := rfl
    simp only [lastCode]
    omega
  have differ : c = d ↔ c.toNat = d.toNat := Char.toNat_inj.symm
  have next : next d.toNat = d.toNat + 1 := if_neg (by simp; omega)
  have previous : previous d.toNat = d.toNat - 1 := if_neg (by simp; omega)
  have some : d.toNat < lastCode := by simp only [lastCode]; omega
  simp only [complement, single, ofRange, contains, if_pos first, gapsFrom, if_pos some, next, previous,
    List.any_cons, List.any_nil, Bool.or_false]
  rw [Bool.eq_iff_iff]
  simp only [Bool.or_eq_true, Bool.and_eq_true, decide_eq_true_eq, bne_iff_ne, ne_eq, differ]
  omega

end CodePointSet

namespace Regex

/-! ## Rows -/

/-- Expressions side by side. -/
def catOf : List Regex → Regex
  | [] => .empty
  | [a] => a
  | a :: rest => .cat a (catOf rest)

theorem carries_catOf_cons {a : Regex} {rest : List Regex} {t u : Thread} :
    (catOf (a :: rest)).Carries t u ↔ ∃ m, a.Carries t m ∧ (catOf rest).Carries m u := by
  cases rest with
  | nil => simp [catOf, Carries]
  | cons b rest => rfl

theorem carries_catOf_append {row : List Regex} {a : Regex} {t u : Thread} :
    (catOf (row ++ [a])).Carries t u ↔ ∃ m, (catOf row).Carries t m ∧ a.Carries m u := by
  induction row generalizing t with
  | nil => simp [catOf, Carries]
  | cons b row ih =>
      rw [List.cons_append]
      simp only [carries_catOf_cons, ih]
      constructor
      · rintro ⟨m, first, n, others, last⟩
        exact ⟨n, ⟨m, first, others⟩, last⟩
      · rintro ⟨n, ⟨m, first, others⟩, last⟩
        exact ⟨m, first, n, others, last⟩

theorem repeatsReluctantly_catOf {row : List Regex}
    (each : ∀ a ∈ row, a.repeatsReluctantly = false) : (catOf row).repeatsReluctantly = false := by
  induction row with
  | nil => rfl
  | cons a rest ih =>
      have first := each a List.mem_cons_self
      have others := ih fun b member => each b (List.mem_cons_of_mem _ member)
      cases rest with
      | nil => exact first
      | cons b rest => simp only [catOf, repeatsReluctantly, first, others, Bool.or_false]

namespace Tree

/-- Parts that set no flags mean in a row what they mean alone. -/
theorem meaning?_catOf {f : Flags} {trees : List Tree} {row : List Regex}
    (each : List.Forall₂ (fun tree a => tree.meaning? f = some (a, f)) trees row) :
    (catOf trees).meaning? f = some (Regex.catOf row, f) := by
  induction each with
  | nil => rfl
  | @cons tree a trees row first others ih =>
      cases others with
      | nil => exact first
      | cons second others =>
          simp only [catOf] at ih ⊢
          simp only [meaning?, first, ih, Option.bind_eq_bind, Option.bind_some, Regex.catOf]

theorem depth_none_le (tree : Tree) : tree.depth .none ≤ tree.depth .cat + 1 := by
  cases tree <;> simp only [depth, reduceIte, reduceCtorEq] <;> omega

theorem depth_catOf_le {trees : List Tree} {n : Nat}
    (each : ∀ tree ∈ trees, ∀ chain, tree.depth chain ≤ n) : (catOf trees).depth .cat ≤ n := by
  induction trees with
  | nil => exact Nat.zero_le n
  | cons tree rest ih =>
      have others := ih fun other member => each other (List.mem_cons_of_mem _ member)
      cases rest with
      | nil => exact each tree List.mem_cons_self .cat
      | cons second rest =>
          have first := each tree List.mem_cons_self .none
          simp only [catOf, depth, reduceIte]
          omega

end Tree

/-! ## Texts of one set -/

namespace Thread

/-- Go past a text that stands before the rest. -/
def past (t : Thread) (taken rest : List Char) : Thread :=
  { t with position := t.position + taken.length, previous := taken.getLast?.or t.previous, rest }

@[simp]
theorem past_nil (t : Thread) : t.past [] t.rest = t := rfl

theorem past_past (t : Thread) (taken more rest rest' : List Char) :
    (t.past taken rest').past more rest = t.past (taken ++ more) rest := by
  simp [past, List.getLast?_append, Nat.add_assoc, Option.or_assoc]

end Thread

theorem carries_set_iff {s : CodePointSet} {t u : Thread} :
    (Regex.set s).Carries t u ↔
      ∃ c rest, s.contains c = true ∧ t.rest = c :: rest ∧ u = t.past [c] rest := by
  constructor
  · rintro ⟨c, step, inside⟩
    obtain ⟨found, after⟩ := Thread.advance_eq_some step
    exact ⟨c, u.rest, inside, found, after⟩
  · rintro ⟨c, rest, inside, found, rfl⟩
    refine ⟨c, ?_, inside⟩
    rw [Thread.advance, found]
    rfl

theorem turned_set_iff {s : CodePointSet} {n : Nat} {t u : Thread} :
    Turned (Regex.set s).Carries n t u ↔
      ∃ taken rest, taken.length = n ∧ (∀ c ∈ taken, s.contains c = true) ∧
        t.rest = taken ++ rest ∧ u = t.past taken rest := by
  induction n generalizing t with
  | zero =>
      constructor
      · rintro rfl
        exact ⟨[], t.rest, rfl, nofun, rfl, rfl⟩
      · rintro ⟨taken, rest, none, _, split, rfl⟩
        obtain rfl := List.length_eq_zero_iff.mp none
        rw [List.nil_append] at split
        exact split ▸ t.past_nil.symm
  | succ n ih =>
      constructor
      · rintro ⟨m, step, others⟩
        obtain ⟨c, behind, inside, found, rfl⟩ := carries_set_iff.mp step
        obtain ⟨taken, rest, length, members, split, rfl⟩ := ih.mp others
        obtain rfl : behind = taken ++ rest := split
        exact ⟨c :: taken, rest, congrArg (· + 1) length, List.forall_mem_cons.mpr ⟨inside, members⟩,
          found, t.past_past [c] taken rest _⟩
      · rintro ⟨_ | ⟨c, taken⟩, rest, length, members, split, rfl⟩
        · cases length
        · obtain ⟨inside, members⟩ := List.forall_mem_cons.mp members
          refine ⟨t.past [c] (taken ++ rest), ?_, ih.mpr ⟨taken, rest, ?_⟩⟩
          · exact carries_set_iff.mpr ⟨c, taken ++ rest, inside, split, rfl⟩
          · exact ⟨Nat.succ.inj length, members, rfl, (t.past_past [c] taken rest _).symm⟩

theorem carries_rep_set_iff {s : CodePointSet} {least : Nat} {greedy : Bool} {t u : Thread} :
    (Regex.rep (.set s) least none greedy).Carries t u ↔
      ∃ taken rest, least ≤ taken.length ∧ (∀ c ∈ taken, s.contains c = true) ∧
        t.rest = taken ++ rest ∧ u = t.past taken rest := by
  constructor
  · rintro ⟨more, _, turned⟩
    obtain ⟨taken, rest, length, found⟩ := turned_set_iff.mp turned
    exact ⟨taken, rest, length ▸ Nat.le_add_right least more, found⟩
  · rintro ⟨taken, rest, enough, found⟩
    exact ⟨taken.length - least, nofun, turned_set_iff.mpr ⟨taken, rest, by omega, found⟩⟩

end Regex

end AccessControl

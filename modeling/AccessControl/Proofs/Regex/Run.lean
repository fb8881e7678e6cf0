import AccessControl.Proofs.Regex.Follows
import AccessControl.Regex.Search

/-! # Matching goes every way

A list of threads that is carried through an expression holds ways through it only, and stands at
each place to which there is a way. So an expression matches just if there is a way through it.
-/

namespace AccessControl.Regex

variable {text : List Char}

/-! ## Whole expressions -/

theorem step_eq_some_iff {s : CodePointSet} {t u : Thread} :
    (t.advance.bind fun (c, next) => if s.contains c then some next else none) = some u ↔
      (Regex.set s).Carries t u := by
  simp only [Option.bind_eq_some_iff, Carries]
  constructor
  · rintro ⟨⟨c, after⟩, step, found⟩
    split at found
    next inside =>
      cases found
      exact ⟨c, step, inside⟩
    · cases found
  · rintro ⟨c, step, inside⟩
    exact ⟨(c, u), step, if_pos inside⟩

theorem follows_set (text : List Char) (s : CodePointSet) :
    Follows text (Regex.set s).run (Regex.set s).Carries where
  onward := onward_carries text (.set s)
  sound member := by
    obtain ⟨t, member, step⟩ := List.mem_filterMap.mp member
    exact ⟨t, member, step_eq_some_iff.mp step⟩
  complete on t member q between := by
    obtain ⟨t', u, on', ⟨c, step, inside⟩, place, rfl⟩ := between
    obtain ⟨rest, after⟩ := Thread.advance_eq_some step
    have ahead : t.rest = c :: u.rest := ((on t member).same on' place.symm).1.trans rest
    have step : t.advance = some (c, ⟨t.position + 1, some c, u.rest, t.entered, t.groups⟩) := by
      rw [Thread.advance, ahead]
    refine List.mem_map.mpr ⟨_, List.mem_filterMap.mpr
      ⟨t, member, step_eq_some_iff.mpr ⟨c, step, inside⟩⟩, ?_⟩
    rw [after, place]

theorem follows_anchor (text : List Char) (a : Anchor) :
    Follows text (Regex.anchor a).run (Regex.anchor a).Carries where
  onward := onward_carries text (.anchor a)
  sound member := by
    obtain ⟨member, holds⟩ := List.mem_filter.mp member
    exact ⟨_, member, rfl, holds⟩
  complete on t member q between := by
    obtain ⟨t', _, on', ⟨rfl, there⟩, place, rfl⟩ := between
    obtain ⟨rest, previous⟩ := (on t member).same on' place.symm
    have here : holds a t = true := (holds_congr a place.symm previous rest).trans there
    exact List.mem_map.mpr ⟨t, List.mem_filter.mpr ⟨member, here⟩, place.symm⟩

theorem Follows.group {a : Regex} (follows : Follows text a.run a.Carries) (index : Nat) :
    Follows text (Regex.group (some index) a).run (Regex.group (some index) a).Carries where
  onward := onward_carries text (.group (some index) a)
  sound member := by
    obtain ⟨m, inside, rfl⟩ := List.mem_map.mp member
    obtain ⟨_, entered, step⟩ := follows.sound inside
    obtain ⟨t, member, rfl⟩ := List.mem_map.mp entered
    exact ⟨t, member, m, step, rfl⟩
  complete {threads} on t member q between := by
    obtain ⟨t', _, on', ⟨m, step, rfl⟩, place, rfl⟩ := between
    have entered : ∀ t ∈ threads.map (·.enter index), t.On text := by
      intro _ entered
      obtain ⟨t, member, rfl⟩ := List.mem_map.mp entered
      exact (on t member).enter index
    obtain ⟨m', inside, same⟩ := List.mem_map.mp <| follows.complete entered (t.enter index)
      (List.mem_map_of_mem member) ⟨t'.enter index, m, on'.enter index, step, place, rfl⟩
    refine List.mem_map.mpr ⟨m'.leave index, List.mem_map_of_mem inside, ?_⟩
    rw [Thread.position_leave, Thread.position_leave, same]

theorem Follows.rep {a : Regex} (follows : Follows text a.run a.Carries) (least : Nat)
    (most : Option Nat) (greedy : Bool) :
    Follows text (Regex.rep a least most greedy).run (Regex.rep a least most greedy).Carries := by
  match least, most with
  | 0, none =>
      refine (follows.zeroOrMore greedy).firsts.congr fun t u => ?_
      simp [Carries]
  | least + 1, none =>
      refine ((follows.exactly least).seq (follows.oneOrMore greedy)).congr fun t u => ?_
      have count more : least + 1 + more = least + (more + 1) := by omega
      simp only [Carries, count, turned_add]
      constructor
      · rintro ⟨m, first, more, last⟩
        exact ⟨more, nofun, m, first, last⟩
      · rintro ⟨more, _, m, first, last⟩
        exact ⟨m, first, more, last⟩
  | least, some most =>
      refine ((follows.exactly least).seq (follows.atMost greedy (most - least))).firsts.congr
        fun t u => ?_
      simp only [Carries, turned_add]
      constructor
      · rintro ⟨m, first, more, le, last⟩
        exact ⟨more, fun _ same => Option.mem_some.mp same ▸ le, m, first, last⟩
      · rintro ⟨more, bound, m, first, last⟩
        exact ⟨m, first, more, bound most rfl, last⟩

/-- Carrying threads through an expression goes its ways, and to every place that they lead to. -/
theorem follows_run (text : List Char) (r : Regex) : Follows text r.run r.Carries := by
  induction r with
  | empty => exact .id
  | set s => exact follows_set text s
  | anchor a => exact follows_anchor text a
  | cat a b iha ihb => exact iha.seq ihb
  | alt a b iha ihb => exact (iha.either ihb).firsts
  | rep a least most greedy ih => exact ih.rep least most greedy
  | group index a ih =>
      cases index with
      | none => exact ih
      | some index => exact ih.group index

/-! ## Matches -/

/-- There is a match in a text just if there is a way through the expression from some place of it. -/
theorem isMatch_iff {r : Regex} :
    r.isMatch text = true ↔ ∃ t u, t.On text ∧ r.Carries t u := by
  have on : ∀ t ∈ Thread.startsFrom 0 none text, t.On text := fun t member =>
    (Thread.On.of_mem_starts member).1
  rw [isMatch, Bool.not_eq_true', List.isEmpty_eq_false_iff_exists_mem]
  constructor
  · rintro ⟨u, member⟩
    obtain ⟨t, start, way⟩ := (follows_run text r).sound member
    exact ⟨t, u, on t start, way⟩
  · rintro ⟨t, u, here, way⟩
    obtain ⟨start, member, place⟩ := here.exists_start
    obtain ⟨v, found, _⟩ := List.mem_map.mp <| (follows_run text r).complete on start member
      ⟨t, u, here, way, place.symm, rfl⟩
    exact ⟨v, found⟩

/-- The preferred match is a way through the expression, from a start with no groups. -/
theorem carries_of_find? {r : Regex} (plain : r.repeatsReluctantly = false) {u : Thread}
    (found : r.find? text = some u) :
    ∃ t, t.On text ∧ t.entered = [] ∧ t.groups = [] ∧ r.Carries t u := by
  rw [find?, plain, if_neg (by decide)] at found
  obtain ⟨t, start, way⟩ := (follows_run text r).sound (List.mem_of_mem_head? found)
  obtain ⟨on, entered, groups⟩ := Thread.On.of_mem_starts start
  exact ⟨t, on, entered, groups, way⟩

theorem isSome_find? {r : Regex} (plain : r.repeatsReluctantly = false) :
    (r.find? text).isSome = r.isMatch text := by
  rw [find?, plain, if_neg (by decide), isMatch]
  cases r.run (Thread.startsFrom 0 none text) <;> rfl

end AccessControl.Regex

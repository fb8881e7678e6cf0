import AccessControl.Regex.Matching

/-! # The ways through an expression

Matching goes all ways at once and keeps one thread at each place. Here every way stands for itself:
an expression carries a thread from one place of a text to another, and the groups that it enters and
leaves are written down on the way.
-/

namespace AccessControl.Regex

/-! ## Threads on a text -/

namespace Thread

variable {text : List Char} {t u : Thread}

/-- The thread stands at a place of the text. -/
def On (text : List Char) (t : Thread) : Prop :=
  ∃ before, text = before ++ t.rest ∧ t.position = before.length ∧ t.previous = before.getLast?

theorem On.position_add (on : t.On text) : t.position + t.rest.length = text.length := by
  obtain ⟨before, split, position, _⟩ := on
  rw [split, position, List.length_append]

theorem On.same (on : t.On text) (on' : u.On text) (position : t.position = u.position) :
    t.rest = u.rest ∧ t.previous = u.previous := by
  obtain ⟨before, split, length, previous⟩ := on
  obtain ⟨before', split', length', previous'⟩ := on'
  obtain ⟨rfl, rest⟩ := List.append_inj (split.symm.trans split') (by omega)
  exact ⟨rest, previous.trans previous'.symm⟩

theorem advance_eq_some {c : Char} (step : t.advance = some (c, u)) :
    t.rest = c :: u.rest ∧
      u = ⟨t.position + 1, some c, u.rest, t.entered, t.groups⟩ := by
  unfold advance at step
  split at step
  · cases step
  next rest found =>
    cases step
    exact ⟨found, rfl⟩

theorem On.advance (on : t.On text) {c : Char} (step : t.advance = some (c, u)) : u.On text := by
  obtain ⟨before, split, position, _⟩ := on
  obtain ⟨rest, after⟩ := advance_eq_some step
  rw [after]
  refine ⟨before ++ [c], ?_, ?_, ?_⟩
  · rw [split, rest, List.append_assoc, List.singleton_append]
  · simp [position]
  · simp

theorem On.of_place (on : t.On text) (position : u.position = t.position)
    (previous : u.previous = t.previous) (rest : u.rest = t.rest) : u.On text := by
  obtain ⟨before, split, length, last⟩ := on
  exact ⟨before, by rw [rest, split], by rw [position, length], by rw [previous, last]⟩

@[simp]
theorem position_enter (index : Nat) (t : Thread) : (t.enter index).position = t.position := rfl

@[simp]
theorem position_leave (index : Nat) (t : Thread) : (t.leave index).position = t.position := by
  unfold leave
  split <;> rfl

theorem On.enter (on : t.On text) (index : Nat) : (t.enter index).On text :=
  on.of_place rfl rfl rfl

theorem On.leave (on : t.On text) (index : Nat) : (t.leave index).On text := by
  unfold Thread.leave
  split
  · exact on.of_place rfl rfl rfl
  · exact on

theorem mem_startsFrom {position : Nat} {previous : Option Char} {rest : List Char} :
    t ∈ startsFrom position previous rest →
      ∃ before behind, rest = before ++ behind ∧
        t = ⟨position + before.length, (before.getLast?).or previous, behind, [], []⟩ := by
  induction rest generalizing position previous with
  | nil =>
      intro member
      cases List.mem_singleton.mp member
      exact ⟨[], [], rfl, rfl⟩
  | cons c rest ih =>
      intro member
      obtain rfl | later := List.mem_cons.mp member
      · exact ⟨[], c :: rest, rfl, rfl⟩
      · obtain ⟨before, behind, rfl, rfl⟩ := ih later
        refine ⟨c :: before, behind, rfl, ?_⟩
        rw [List.length_cons, List.getLast?_cons, Nat.add_assoc, Nat.add_comm 1]
        cases before.getLast? <;> rfl

theorem exists_start (before behind : List Char) (position : Nat) (previous : Option Char) :
    ∃ t ∈ startsFrom position previous (before ++ behind),
      t.position = position + before.length := by
  induction before generalizing position previous with
  | nil => cases behind <;> exact ⟨_, List.mem_cons_self, rfl⟩
  | cons c before ih =>
      obtain ⟨t, member, place⟩ := ih (position + 1) (some c)
      refine ⟨t, List.mem_cons_of_mem _ member, ?_⟩
      rw [place, List.length_cons]
      omega

theorem On.of_mem_starts (member : t ∈ startsFrom 0 none text) :
    t.On text ∧ t.entered = [] ∧ t.groups = [] := by
  obtain ⟨before, behind, rfl, rfl⟩ := mem_startsFrom member
  exact ⟨⟨before, rfl, by simp, by simp⟩, rfl, rfl⟩

theorem On.exists_start (on : t.On text) :
    ∃ start ∈ startsFrom 0 none text, start.position = t.position := by
  obtain ⟨before, split, position, _⟩ := on
  obtain ⟨start, member, place⟩ := Thread.exists_start before t.rest 0 none
  refine ⟨start, split ▸ member, ?_⟩
  omega

end Thread

theorem holds_congr (a : Anchor) {t u : Thread} (position : t.position = u.position)
    (previous : t.previous = u.previous) (rest : t.rest = u.rest) : holds a t = holds a u := by
  cases a <;> simp [holds, boundaryHolds, position, previous, rest]

/-! ## Ways -/

/-- So many steps of a relation. -/
def Turned (leads : Thread → Thread → Prop) : Nat → Thread → Thread → Prop
  | 0, t, u => t = u
  | n + 1, t, u => ∃ m, leads t m ∧ Turned leads n m u

/-- Where an expression can carry a thread. -/
def Carries : Regex → Thread → Thread → Prop
  | .empty, t, u => t = u
  | .set s, t, u => ∃ c, t.advance = some (c, u) ∧ s.contains c = true
  | .anchor a, t, u => t = u ∧ holds a t = true
  | .cat a b, t, u => ∃ m, a.Carries t m ∧ b.Carries m u
  | .alt a b, t, u => a.Carries t u ∨ b.Carries t u
  | .group none a, t, u => a.Carries t u
  | .group (some index) a, t, u => ∃ m, a.Carries (t.enter index) m ∧ u = m.leave index
  | .rep a least most _, t, u =>
    ∃ more, (∀ bound ∈ most, more ≤ bound - least) ∧ Turned a.Carries (least + more) t u

/-- A relation goes on in a text, and never back. -/
def Onward (text : List Char) (leads : Thread → Thread → Prop) : Prop :=
  ∀ ⦃t u⦄, leads t u → t.On text → u.On text ∧ t.position ≤ u.position

variable {text : List Char} {leads next : Thread → Thread → Prop}

theorem Onward.turned (onward : Onward text leads) (n : Nat) : Onward text (Turned leads n) := by
  induction n with
  | zero =>
      rintro t _ rfl on
      exact ⟨on, Nat.le_refl _⟩
  | succ n ih =>
      rintro t u ⟨m, first, others⟩ on
      obtain ⟨on, le⟩ := onward first on
      obtain ⟨on, le'⟩ := ih others on
      exact ⟨on, Nat.le_trans le le'⟩

theorem turned_add {m n : Nat} {t u : Thread} :
    Turned leads (m + n) t u ↔ ∃ v, Turned leads m t v ∧ Turned leads n v u := by
  induction m generalizing t with
  | zero => simp [Turned]
  | succ m ih =>
      rw [Nat.succ_add]
      simp only [Turned, ih]
      constructor
      · rintro ⟨w, step, v, first, last⟩
        exact ⟨v, ⟨w, step, first⟩, last⟩
      · rintro ⟨v, ⟨w, step, first⟩, last⟩
        exact ⟨w, step, v, first, last⟩

theorem onward_carries (text : List Char) (r : Regex) : Onward text r.Carries := by
  induction r with
  | empty =>
      rintro t _ rfl on
      exact ⟨on, Nat.le_refl _⟩
  | set s =>
      rintro t u ⟨c, step, _⟩ on
      have position : u.position = t.position + 1 :=
        congrArg Thread.position (Thread.advance_eq_some step).2
      exact ⟨on.advance step, by omega⟩
  | anchor a =>
      rintro t _ ⟨rfl, _⟩ on
      exact ⟨on, Nat.le_refl _⟩
  | cat a b iha ihb =>
      rintro t u ⟨m, first, last⟩ on
      obtain ⟨on, le⟩ := iha first on
      obtain ⟨on, le'⟩ := ihb last on
      exact ⟨on, Nat.le_trans le le'⟩
  | alt a b iha ihb =>
      rintro t u (left | right) on
      · exact iha left on
      · exact ihb right on
  | rep a least most greedy ih =>
      rintro t u ⟨more, _, turned⟩ on
      exact ih.turned _ turned on
  | group index a ih =>
      cases index with
      | none => exact ih
      | some index =>
          rintro t u ⟨m, inner, rfl⟩ on
          obtain ⟨on, le⟩ := ih inner (on.enter index)
          exact ⟨on.leave index, by simpa using le⟩

end AccessControl.Regex

import AccessControl.Proofs.Roles.Closure

/-! # Names in a queue

A loop takes names off a queue. It appends those that a single step leads to and that it has not met
before, to the queue and to what it collects, until the queue is empty. It meets the names level by
level, so a search by levels collects the same names in the same order, as soon as it may take so many
steps that one more would collect nothing else.
-/

namespace AccessControl

/-! ## Distances -/

namespace Walk

variable {step : String → String → Prop} {hops : Nat} {name last : String}

theorem snoc (walk : Walk step hops name last) {next : String} (leads : step last next) :
    Walk step (hops + 1) name next := by
  induction walk with
  | stay name => exact .on leads (.stay next)
  | on first _ ih => exact .on first (ih leads)

theorem exists_snoc (walk : Walk step (hops + 1) name last) :
    ∃ before, Walk step hops name before ∧ step before last := by
  induction hops generalizing name with
  | zero =>
      cases walk with
      | on first rest =>
          cases rest
          exact ⟨name, .stay name, first⟩
  | succ hops ih =>
      cases walk with
      | on first rest =>
          obtain ⟨before, walk, leads⟩ := ih rest
          exact ⟨before, .on first walk, leads⟩

end Walk

/-- The number of steps of the shortest walk from a name to another. -/
structure Distance (step : String → String → Prop) (hops : Nat) (start last : String) : Prop where
  walk : Walk step hops start last
  least : ∀ fewer, Walk step fewer start last → hops ≤ fewer

namespace Distance

variable {step : String → String → Prop} {hops hops' : Nat} {start last : String}

theorem unique (far : Distance step hops start last) (far' : Distance step hops' start last) :
    hops = hops' :=
  Nat.le_antisymm (far.least _ far'.walk) (far'.least _ far.walk)

theorem exists_before (far : Distance step (hops + 1) start last) :
    ∃ before, Distance step hops start before ∧ step before last := by
  obtain ⟨before, walk, leads⟩ := far.walk.exists_snoc
  refine ⟨before, ⟨walk, fun fewer walk' => ?_⟩, leads⟩
  exact Nat.le_of_succ_le_succ (far.least _ (walk'.snoc leads))

end Distance

namespace Search

/-! ## Levels hold the names of one distance -/

/-- What a search has come to after a number of steps: it has visited the names that are no farther,
    and its level holds those that are exactly as far. -/
structure At (step : String → List String) (start : String) (depth : Nat)
    (visited frontier : List String) : Prop where
  visited_iff : ∀ name, name ∈ visited ↔ ∃ hops ≤ depth, Walk (Leads step) hops start name
  frontier_iff : ∀ name, name ∈ frontier ↔ Distance (Leads step) depth start name

theorem at_start (step : String → List String) (start : String) : At step start 0 [start] [start] where
  visited_iff name := by
    rw [List.mem_singleton]
    constructor
    · rintro rfl
      exact ⟨0, Nat.le_refl _, .stay _⟩
    · rintro ⟨hops, none, walk⟩
      obtain rfl := Nat.le_zero.mp none
      cases walk
      rfl
  frontier_iff name := by
    rw [List.mem_singleton]
    constructor
    · rintro rfl
      exact ⟨.stay _, fun _ _ => Nat.zero_le _⟩
    · rintro ⟨walk, _⟩
      cases walk
      rfl

namespace At

variable {step : String → List String} {start : String} {depth : Nat}
  {visited frontier : List String}

theorem lt_of_unvisited (stands : At step start depth visited frontier) {name : String}
    (unseen : name ∉ visited) {hops : Nat} (walk : Walk (Leads step) hops start name) :
    depth < hops := by
  by_contra near
  exact unseen ((stands.visited_iff name).mpr ⟨hops, Nat.le_of_not_lt near, walk⟩)

/-- The next level holds the names that are one step farther. -/
theorem mem_nextLevel_iff (stands : At step start depth visited frontier) (name : String) :
    name ∈ nextLevel step visited frontier ↔ Distance (Leads step) (depth + 1) start name := by
  rw [mem_nextLevel]
  constructor
  · rintro ⟨⟨before, here, leads⟩, unseen⟩
    have near := (stands.frontier_iff before).mp here
    exact ⟨near.walk.snoc leads, fun fewer walk => stands.lt_of_unvisited unseen walk⟩
  · intro far
    obtain ⟨before, near, leads⟩ := far.exists_before
    refine ⟨⟨before, (stands.frontier_iff before).mpr near, leads⟩, fun seen => ?_⟩
    obtain ⟨hops, bound, walk⟩ := (stands.visited_iff name).mp seen
    exact Nat.not_succ_le_self depth ((far.least hops walk).trans bound)

theorem next (stands : At step start depth visited frontier) :
    At step start (depth + 1) (visited ++ nextLevel step visited frontier)
      (nextLevel step visited frontier) where
  visited_iff name := by
    rw [List.mem_append, stands.mem_nextLevel_iff]
    constructor
    · rintro (seen | far)
      · obtain ⟨hops, bound, walk⟩ := (stands.visited_iff name).mp seen
        exact ⟨hops, by omega, walk⟩
      · exact ⟨depth + 1, Nat.le_refl _, far.walk⟩
    · rintro ⟨hops, bound, walk⟩
      by_cases seen : name ∈ visited
      · exact .inl seen
      · obtain rfl : hops = depth + 1 :=
          Nat.le_antisymm bound (stands.lt_of_unvisited seen walk)
        exact .inr ⟨walk, fun fewer => stands.lt_of_unvisited seen⟩
  frontier_iff := stands.mem_nextLevel_iff

/-- A search collects nearer names before those that are farther away. -/
theorem pairwise_collect (stands : At step start depth visited frontier) (hops : Nat) :
    (collect step hops visited frontier).Pairwise fun earlier later =>
      ∀ near far, Distance (Leads step) near start earlier →
        Distance (Leads step) far start later → near ≤ far := by
  induction hops generalizing depth visited frontier with
  | zero => exact .nil
  | succ hops ih =>
      rw [collect_succ]
      refine List.pairwise_append.mpr ⟨?_, ih stands.next, ?_⟩
      · -- names of one level are equally far
        refine List.pairwise_of_forall_mem_list fun earlier member later member' near far => ?_
        intro at_near at_far
        have same := at_near.unique ((stands.mem_nextLevel_iff earlier).mp member)
        have same' := at_far.unique ((stands.mem_nextLevel_iff later).mp member')
        omega
      · intro earlier member later member' near far at_near at_far
        have same := at_near.unique ((stands.mem_nextLevel_iff earlier).mp member)
        have unseen := ((mem_collect step hops _ _ later).mp member').1
        have farther := stands.next.lt_of_unvisited unseen at_far.walk
        omega

end At

/-! ## Each name once -/

variable (step : String → List String)

theorem nodup_collect (hops : Nat) (visited frontier : List String) :
    (collect step hops visited frontier).Nodup := by
  induction hops generalizing visited frontier with
  | zero => exact .nil
  | succ hops ih =>
      rw [collect_succ]
      refine List.nodup_append.mpr ⟨nodup_eraseDups _, ih _ _, ?_⟩
      rintro name here _ later rfl
      exact ((mem_collect step hops _ _ name).mp later).1 (List.mem_append_right visited here)

/-! ## The loop -/

/-- A loop that has met some names works off its queue, and meets further names on the way. -/
inductive WorksOff : List String → List String → List String → Prop where
  | done (visited : List String) : WorksOff visited [] []
  | next {visited : List String} {name : String} {queue met : List String}
      (rest : WorksOff (visited ++ nextLevel step visited [name])
        (queue ++ nextLevel step visited [name]) met) :
      WorksOff visited (name :: queue) (nextLevel step visited [name] ++ met)

variable {step}

theorem WorksOff.unique {visited queue met met' : List String}
    (works : WorksOff step visited queue met) (works' : WorksOff step visited queue met') :
    met = met' := by
  induction works generalizing met' with
  | done =>
      cases works'
      rfl
  | next _ ih =>
      cases works' with
      | next rest' => rw [ih rest']

theorem nextLevel_cons (visited : List String) (name : String) (frontier : List String) :
    nextLevel step visited (name :: frontier) = nextLevel step visited [name] ++
      nextLevel step (visited ++ nextLevel step visited [name]) frontier := by
  simp only [nextLevel, List.flatMap_cons, List.flatMap_nil, List.append_nil, List.filter_append,
    List.eraseDups_append]
  rw [List.removeAll, List.filter_filter]
  congr 2
  refine List.filter_congr fun next _ => Bool.eq_iff_iff.mpr ?_
  simp only [List.elem_eq_contains, List.contains_iff_mem, List.mem_append, List.mem_filter,
    List.mem_eraseDups, Bool.and_eq_true, Bool.not_eq_true', ← Bool.not_eq_true]
  tauto

/-- When the loop has worked off a level, the next level is at the end of its queue. -/
theorem WorksOff.level {visited queue met : List String} (frontier : List String)
    (rest : WorksOff step (visited ++ nextLevel step visited frontier)
      (queue ++ nextLevel step visited frontier) met) :
    WorksOff step visited (frontier ++ queue) (nextLevel step visited frontier ++ met) := by
  induction frontier generalizing visited queue with
  | nil => simpa [nextLevel] using rest
  | cons name frontier ih =>
      rw [nextLevel_cons] at rest ⊢
      rw [← List.append_assoc, ← List.append_assoc] at rest
      have later := ih rest
      rw [← List.append_assoc] at later
      rw [List.append_assoc]
      exact .next later

/-- Where one more step collects nothing else, the loop meets what the search collects. -/
theorem worksOff_collect {hops : Nat} {visited frontier : List String}
    (all : ∀ name ∈ collect step (hops + 1) visited frontier,
      name ∈ collect step hops visited frontier) :
    WorksOff step visited frontier (collect step hops visited frontier) := by
  induction hops generalizing visited frontier with
  | zero =>
      have last : nextLevel step visited frontier = [] := by
        rw [collect_succ, collect, List.append_nil] at all
        exact List.eq_nil_iff_forall_not_mem.mpr fun name member => by cases all name member
      have level : WorksOff step visited (frontier ++ []) (nextLevel step visited frontier ++ []) :=
        .level frontier (by rw [last]; exact .done _)
      simpa [last, collect] using level
  | succ hops ih =>
      have level : WorksOff step visited (frontier ++ [])
          (nextLevel step visited frontier ++ collect step hops
            (visited ++ nextLevel step visited frontier) (nextLevel step visited frontier)) := by
        refine .level frontier (ih fun name later => ?_)
        have unseen := ((mem_collect step _ _ _ name).mp later).1
        have member := all name (by rw [collect_succ]; exact List.mem_append_right _ later)
        rw [collect_succ, List.mem_append] at member
        exact member.resolve_left fun here => unseen (List.mem_append_right visited here)
      rw [collect_succ]
      simpa using level

end Search

end AccessControl

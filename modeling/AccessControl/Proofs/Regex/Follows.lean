import AccessControl.Proofs.Regex.Carries

/-! # Lists of threads that follow a relation

A list of threads is led as a relation says if it comes to every place that the relation leads to, and
no other way than it says. Repetitions of what follows a relation follow its turns: they are searched
depth first with a record of the places begun and ended at, and what has been begun is either still
open or closed under turns.
-/

namespace AccessControl.Regex

variable {text : List Char} {leads next : Thread → Thread → Prop}
  {body : List Thread → List Thread}

/-- A relation leads from one position of a text to another. -/
def Between (text : List Char) (leads : Thread → Thread → Prop) (p q : Nat) : Prop :=
  ∃ t u, t.On text ∧ leads t u ∧ t.position = p ∧ u.position = q

theorem Between.seq (onward : Onward text leads) {p q : Nat}
    (between : Between text (fun t u => ∃ m, leads t m ∧ next m u) p q) :
    ∃ m, Between text leads p m ∧ Between text next m q := by
  obtain ⟨t, u, on, ⟨m, first, last⟩, rfl, rfl⟩ := between
  exact ⟨m.position, ⟨t, m, on, first, rfl, rfl⟩, m, u, (onward first on).1, last, rfl, rfl⟩

/-- Threads are carried as a relation says, and to each position that it leads to. -/
structure Follows (text : List Char) (body : List Thread → List Thread)
    (leads : Thread → Thread → Prop) : Prop where
  onward : Onward text leads
  sound : ∀ {threads u}, u ∈ body threads → ∃ t ∈ threads, leads t u
  complete : ∀ {threads}, (∀ t ∈ threads, t.On text) → ∀ t ∈ threads, ∀ {q},
    Between text leads t.position q → q ∈ (body threads).map (·.position)

namespace Follows

theorem on (follows : Follows text body leads) {threads : List Thread}
    (on : ∀ t ∈ threads, t.On text) : ∀ u ∈ body threads, u.On text := by
  intro u member
  obtain ⟨t, first, step⟩ := follows.sound member
  exact (follows.onward step (on t first)).1

theorem leads_of_mem (follows : Follows text body leads) {t u : Thread} (member : u ∈ body [t]) :
    leads t u := by
  obtain ⟨_, single, step⟩ := follows.sound member
  exact List.mem_singleton.mp single ▸ step

theorem mem_of_between (follows : Follows text body leads) {t : Thread} (on : t.On text) {q : Nat}
    (between : Between text leads t.position q) : q ∈ (body [t]).map (·.position) := by
  refine follows.complete ?_ t List.mem_cons_self between
  rintro t' single
  exact List.mem_singleton.mp single ▸ on

theorem congr (follows : Follows text body leads) (same : ∀ t u, leads t u ↔ next t u) :
    Follows text body next := by
  obtain rfl : leads = next := funext fun t => funext fun u => propext (same t u)
  exact follows

theorem id : Follows text (fun threads => threads) (fun t u => t = u) where
  onward := by
    rintro t _ rfl on
    exact ⟨on, Nat.le_refl _⟩
  sound member := ⟨_, member, rfl⟩
  complete _ t member q between := by
    obtain ⟨t', _, _, rfl, place, rfl⟩ := between
    exact List.mem_map.mpr ⟨t, member, place.symm⟩

theorem seq {others : List Thread → List Thread} (follows : Follows text body leads)
    (follows' : Follows text others next) :
    Follows text (fun threads => others (body threads))
      (fun t u => ∃ m, leads t m ∧ next m u) where
  onward := by
    rintro t u ⟨m, first, last⟩ on
    obtain ⟨on, le⟩ := follows.onward first on
    obtain ⟨on, le'⟩ := follows'.onward last on
    exact ⟨on, Nat.le_trans le le'⟩
  sound member := by
    obtain ⟨m, middle, last⟩ := follows'.sound member
    obtain ⟨t, first, step⟩ := follows.sound middle
    exact ⟨t, first, m, step, last⟩
  complete on t member q between := by
    obtain ⟨p, first, last⟩ := between.seq follows.onward
    obtain ⟨m, middle, rfl⟩ := List.mem_map.mp (follows.complete on t member first)
    exact follows'.complete (follows.on on) m middle last

theorem either {others : List Thread → List Thread} (follows : Follows text body leads)
    (follows' : Follows text others next) :
    Follows text (fun threads => threads.flatMap fun t => body [t] ++ others [t])
      (fun t u => leads t u ∨ next t u) where
  onward := by
    rintro t u (left | right)
    · exact follows.onward left
    · exact follows'.onward right
  sound member := by
    obtain ⟨t, member, found⟩ := List.mem_flatMap.mp member
    refine ⟨t, member, ?_⟩
    exact (List.mem_append.mp found).imp follows.leads_of_mem follows'.leads_of_mem
  complete on t member q between := by
    rw [List.map_flatMap, List.mem_flatMap]
    refine ⟨t, member, ?_⟩
    rw [List.map_append, List.mem_append]
    obtain ⟨t', u, here, left | right, place, rfl⟩ := between
    · exact .inl (follows.mem_of_between (on t member) ⟨t', u, here, left, place, rfl⟩)
    · exact .inr (follows'.mem_of_between (on t member) ⟨t', u, here, right, place, rfl⟩)

end Follows

theorem mem_ordered {greedy : Bool} {found : List Thread} {t u : Thread} :
    u ∈ (if greedy then found ++ [t] else t :: found) ↔ u = t ∨ u ∈ found := by
  cases greedy <;> simp [or_comm]

/-! ## One thread at each place -/

theorem mem_of_mem_firsts {seen : List Nat} {threads : List Thread} {u : Thread}
    (member : u ∈ firsts seen threads) : u ∈ threads := by
  induction threads generalizing seen with
  | nil => exact member
  | cons t rest ih =>
      unfold firsts at member
      split at member
      · exact List.mem_cons_of_mem _ (ih member)
      · obtain rfl | later := List.mem_cons.mp member
        · exact List.mem_cons_self
        · exact List.mem_cons_of_mem _ (ih later)

theorem position_mem_firsts (seen : List Nat) {threads : List Thread} {q : Nat}
    (member : q ∈ threads.map (·.position)) :
    q ∈ seen ∨ q ∈ (firsts seen threads).map (·.position) := by
  induction threads generalizing seen with
  | nil => cases member
  | cons t rest ih =>
      rw [List.map_cons, List.mem_cons] at member
      unfold firsts
      split
      next already =>
        obtain rfl | later := member
        · exact .inl (List.contains_iff_mem.mp already)
        · exact ih seen later
      next =>
        rw [List.map_cons, List.mem_cons]
        obtain rfl | later := member
        · exact .inr (.inl rfl)
        · obtain first | found := ih (t.position :: seen) later
          · obtain rfl | seen := List.mem_cons.mp first
            · exact .inr (.inl rfl)
            · exact .inl seen
          · exact .inr (.inr found)

theorem Follows.firsts (follows : Follows text body leads) :
    Follows text (fun threads => firsts [] (body threads)) leads where
  onward := follows.onward
  sound member := follows.sound (mem_of_mem_firsts member)
  complete on t member _ between :=
    (position_mem_firsts [] (follows.complete on t member between)).resolve_left List.not_mem_nil

/-! ## A fixed number of turns -/

theorem Follows.exactly (follows : Follows text body leads) (n : Nat) :
    Follows text (exactly body n) (Turned leads n) := by
  induction n with
  | zero => exact .id
  | succ n ih => exact follows.seq ih

/-! ## Any number of turns -/

/-- What a search has done: the places that it has newly begun are closed under turns, and the places
    where a turn has newly ended are found and begun. -/
structure Explored (text : List Char) (leads : Thread → Thread → Prop) (before after : Turns)
    (found : List Thread) : Prop where
  begun : before.begun ⊆ after.begun
  ended : before.ended ⊆ after.ended
  reported : ∀ p ∈ after.ended, p ∈ before.ended ∨ p ∈ found.map (·.position)
  continued : ∀ p ∈ after.ended, p ∈ before.ended ∨ p ∈ after.begun
  closed : ∀ p ∈ after.begun, p ∈ before.begun ∨ ∀ q, Between text leads p q → q ∈ after.ended

namespace Explored

variable {before middle after : Turns} {found more : List Thread}

theorem refl (seen : Turns) : Explored text leads seen seen [] where
  begun := List.Subset.refl _
  ended := List.Subset.refl _
  reported _ := .inl
  continued _ := .inl
  closed _ := .inl

theorem mono (explored : Explored text leads before after found) (le : found ⊆ more) :
    Explored text leads before after more :=
  { explored with
    reported := fun p ended => (explored.reported p ended).imp_right fun reported =>
      List.map_subset _ le reported }

theorem trans (first : Explored text leads before middle found)
    (last : Explored text leads middle after more) :
    Explored text leads before after (found ++ more) where
  begun := List.Subset.trans first.begun last.begun
  ended := List.Subset.trans first.ended last.ended
  reported p ended := by
    rw [List.map_append, List.mem_append]
    obtain earlier | later := last.reported p ended
    · exact (first.reported p earlier).imp_right .inl
    · exact .inr (.inr later)
  continued p ended := by
    obtain earlier | later := last.continued p ended
    · exact (first.continued p earlier).imp_right fun begun => last.begun begun
    · exact .inr later
  closed p begun := by
    obtain earlier | closed := last.closed p begun
    · exact (first.closed p earlier).imp_right fun closed q between =>
        last.ended (closed q between)
    · exact .inr closed

theorem afterEnd {t : Thread}
    (explored : Explored text leads
      { before with ended := t.position :: before.ended } after found)
    (begun : t.position ∈ after.begun) : Explored text leads before after (t :: found) where
  begun := explored.begun
  ended := List.Subset.trans (List.subset_cons_self _ _) explored.ended
  reported p ended := by
    rw [List.map_cons, List.mem_cons]
    obtain earlier | found := explored.reported p ended
    · exact (List.mem_cons.mp earlier).symm.imp_right .inl
    · exact .inr (.inr found)
  continued p ended := by
    obtain earlier | begun := explored.continued p ended
    · obtain rfl | earlier := List.mem_cons.mp earlier
      · exact .inr begun
      · exact .inl earlier
    · exact .inr begun
  closed := explored.closed

theorem afterBegin {p : Nat}
    (explored : Explored text leads { before with begun := p :: before.begun } after found)
    (closed : ∀ q, Between text leads p q → q ∈ after.ended) :
    Explored text leads before after found where
  begun := List.Subset.trans (List.subset_cons_self _ _) explored.begun
  ended := explored.ended
  reported := explored.reported
  continued := explored.continued
  closed p' begun := by
    obtain earlier | closed' := explored.closed p' begun
    · obtain rfl | earlier := List.mem_cons.mp earlier
      · exact .inr closed
      · exact .inl earlier
    · exact .inr closed'

/-- A search that has begun nowhere before finds the ends of all turns from where it has begun. -/
theorem complete (explored : Explored text leads ⟨[], []⟩ after found)
    (onward : Onward text leads) {p : Nat} (begun : p ∈ after.begun) {n : Nat} {q : Nat}
    (between : Between text (Turned leads (n + 1)) p q) : q ∈ found.map (·.position) := by
  induction n generalizing p with
  | zero =>
      obtain ⟨t, u, on, ⟨_, step, rfl⟩, rfl, rfl⟩ := between
      have ended := (explored.closed _ begun).resolve_left List.not_mem_nil _
        ⟨t, _, on, step, rfl, rfl⟩
      exact (explored.reported _ ended).resolve_left List.not_mem_nil
  | succ n ih =>
      obtain ⟨m, step, others⟩ := between.seq onward
      have ended := (explored.closed _ begun).resolve_left List.not_mem_nil m step
      exact ih ((explored.continued m ended).resolve_left List.not_mem_nil) others

end Explored

theorem mem_continueTurns {again : Turns → Thread → List Thread × Turns} {greedy : Bool}
    {seen : Turns} {threads : List Thread} {u : Thread}
    (member : u ∈ (continueTurns again greedy seen threads).1) :
    ∃ t ∈ threads, u = t ∨ ∃ seen', u ∈ (again seen' t).1 := by
  induction threads generalizing seen with
  | nil => cases member
  | cons t rest ih =>
      unfold continueTurns at member
      split at member
      · obtain ⟨v, later, found⟩ := ih member
        exact ⟨v, List.mem_cons_of_mem _ later, found⟩
      · obtain here | later := List.mem_append.mp member
        · exact ⟨t, List.mem_cons_self, (mem_ordered.mp here).imp_right fun found => ⟨_, found⟩⟩
        · obtain ⟨v, later, found⟩ := ih later
          exact ⟨v, List.mem_cons_of_mem _ later, found⟩

theorem explored_continueTurns {again : Turns → Thread → List Thread × Turns} (greedy : Bool)
    (seen : Turns) {threads : List Thread}
    (explores : ∀ t ∈ threads, ∀ seen', seen.begun ⊆ seen'.begun →
      Explored text leads seen' (again seen' t).2 (again seen' t).1 ∧
        t.position ∈ (again seen' t).2.begun) :
    Explored text leads seen (continueTurns again greedy seen threads).2
        (continueTurns again greedy seen threads).1 ∧
      ∀ t ∈ threads, t.position ∈ (continueTurns again greedy seen threads).2.ended := by
  induction threads generalizing seen with
  | nil => exact ⟨.refl seen, nofun⟩
  | cons t rest ih =>
      unfold continueTurns
      split
      next already =>
        obtain ⟨explored, ended⟩ := ih seen fun u later => explores u (List.mem_cons_of_mem _ later)
        refine ⟨explored, fun u member => ?_⟩
        obtain rfl | later := List.mem_cons.mp member
        · exact explored.ended (List.contains_iff_mem.mp already)
        · exact ended u later
      next =>
        obtain ⟨here, begun⟩ := explores t List.mem_cons_self
          { seen with ended := t.position :: seen.ended } (List.Subset.refl _)
        have first := here.afterEnd begun
        obtain ⟨others, ended⟩ := ih (again _ t).2 fun u later seen' le =>
          explores u (List.mem_cons_of_mem _ later) seen' (List.Subset.trans first.begun le)
        refine ⟨(first.trans others).mono fun u found => ?_, fun u member => ?_⟩
        · rw [List.mem_append, List.mem_cons] at found
          exact List.mem_append.mpr (found.imp_left mem_ordered.mpr)
        · obtain rfl | later := List.mem_cons.mp member
          · exact others.ended (here.ended List.mem_cons_self)
          · exact ended u later

theorem mem_turns (follows : Follows text body leads) {greedy : Bool} {n : Nat} {seen : Turns}
    {t u : Thread} (member : u ∈ (turns body greedy n seen t).1) :
    ∃ more, Turned leads (more + 1) t u := by
  induction n generalizing seen t with
  | zero => cases member
  | succ n ih =>
      unfold turns at member
      split at member
      · cases member
      · obtain ⟨m, middle, found⟩ := mem_continueTurns member
        have step := follows.leads_of_mem middle
        obtain rfl | ⟨_, later⟩ := found
        · exact ⟨0, u, step, rfl⟩
        · obtain ⟨more, turned⟩ := ih later
          exact ⟨more + 1, m, step, turned⟩

/-- As many turns are enough as there are places from here on: a turn that consumes nothing comes to a
    place that was begun. -/
theorem explored_turns (follows : Follows text body leads) (greedy : Bool) (n : Nat)
    (seen : Turns) {t : Thread} (on : t.On text)
    (enough : text.length < t.position + n ∨ t.position ∈ seen.begun) :
    Explored text leads seen (turns body greedy n seen t).2 (turns body greedy n seen t).1 ∧
      t.position ∈ (turns body greedy n seen t).2.begun := by
  induction n generalizing seen t with
  | zero =>
      have length := on.position_add
      exact ⟨.refl seen, enough.resolve_left (by omega)⟩
  | succ n ih =>
      unfold turns
      split
      next already => exact ⟨.refl seen, List.contains_iff_mem.mp already⟩
      next fresh =>
        have enough := enough.resolve_right fun begun => fresh (List.contains_iff_mem.mpr begun)
        have explores : ∀ u ∈ body [t], ∀ seen', t.position :: seen.begun ⊆ seen'.begun →
            Explored text leads seen' (turns body greedy n seen' u).2
                (turns body greedy n seen' u).1 ∧
              u.position ∈ (turns body greedy n seen' u).2.begun := by
          intro u member seen' le
          obtain ⟨on, le'⟩ := follows.onward (follows.leads_of_mem member) on
          refine ih seen' on ?_
          obtain same | further := Nat.eq_or_lt_of_le le'
          · exact .inr (same ▸ le List.mem_cons_self)
          · exact .inl (by omega)
        obtain ⟨explored, ended⟩ := explored_continueTurns greedy
          { seen with begun := t.position :: seen.begun } explores
        refine ⟨explored.afterBegin fun q between => ?_, explored.begun List.mem_cons_self⟩
        obtain ⟨u, member, rfl⟩ := List.mem_map.mp (follows.mem_of_between on between)
        exact ended u member

/-! ### From a list of threads -/

theorem mem_oneOrMore (follows : Follows text body leads) {greedy : Bool} {seen : Turns}
    {threads : List Thread} {u : Thread} (member : u ∈ oneOrMore body greedy seen threads) :
    ∃ t ∈ threads, ∃ more, Turned leads (more + 1) t u := by
  induction threads generalizing seen with
  | nil => cases member
  | cons t rest ih =>
      rw [oneOrMore, List.mem_append] at member
      obtain here | later := member
      · exact ⟨t, List.mem_cons_self, mem_turns follows here⟩
      · obtain ⟨v, member, turned⟩ := ih later
        exact ⟨v, List.mem_cons_of_mem _ member, turned⟩

theorem explored_oneOrMore (follows : Follows text body leads) (greedy : Bool) (seen : Turns)
    {threads : List Thread} (on : ∀ t ∈ threads, t.On text) :
    ∃ after, Explored text leads seen after (oneOrMore body greedy seen threads) ∧
      ∀ t ∈ threads, t.position ∈ after.begun := by
  induction threads generalizing seen with
  | nil => exact ⟨seen, .refl seen, nofun⟩
  | cons t rest ih =>
      have here := on t List.mem_cons_self
      have length := here.position_add
      obtain ⟨first, begun⟩ := explored_turns follows greedy (t.rest.length + 1) seen here
        (.inl (by omega))
      obtain ⟨after, others, begun'⟩ := ih (turns body greedy (t.rest.length + 1) seen t).2
        fun u later => on u (List.mem_cons_of_mem _ later)
      refine ⟨after, first.trans others, fun u member => ?_⟩
      obtain rfl | later := List.mem_cons.mp member
      · exact others.begun begun
      · exact begun' u later

theorem Follows.oneOrMore (follows : Follows text body leads) (greedy : Bool) :
    Follows text (oneOrMore body greedy ⟨[], []⟩)
      (fun t u => ∃ more, Turned leads (more + 1) t u) where
  onward _ _ := fun ⟨more, turned⟩ => follows.onward.turned (more + 1) turned
  sound := mem_oneOrMore follows
  complete on t member q between := by
    obtain ⟨after, explored, begun⟩ := explored_oneOrMore follows greedy ⟨[], []⟩ on
    obtain ⟨t', u, on', ⟨more, turned⟩, place, rfl⟩ := between
    exact explored.complete follows.onward (begun t member) ⟨t', u, on', turned, place, rfl⟩

theorem mem_zeroOrMore {greedy : Bool} {seen : Turns} {threads : List Thread} {u : Thread} :
    u ∈ zeroOrMore body greedy seen threads ↔
      u ∈ threads ∨ u ∈ oneOrMore body greedy seen threads := by
  induction threads generalizing seen with
  | nil => simp [zeroOrMore, oneOrMore]
  | cons t rest ih =>
      unfold zeroOrMore oneOrMore
      cases greedy <;> simp [ih, or_assoc, or_left_comm]

theorem Follows.zeroOrMore (follows : Follows text body leads) (greedy : Bool) :
    Follows text (zeroOrMore body greedy ⟨[], []⟩) (fun t u => ∃ more, Turned leads more t u) where
  onward _ _ := fun ⟨more, turned⟩ => follows.onward.turned more turned
  sound {threads u} member := by
    obtain stays | found := mem_zeroOrMore.mp member
    · exact ⟨u, stays, 0, rfl⟩
    · obtain ⟨t, member, more, turned⟩ := mem_oneOrMore follows found
      exact ⟨t, member, more + 1, turned⟩
  complete on t member q between := by
    obtain ⟨t', u, on', ⟨more, turned⟩, place, rfl⟩ := between
    cases more with
    | zero =>
        cases turned
        exact List.mem_map.mpr ⟨t, mem_zeroOrMore.mpr (.inl member), place.symm⟩
    | succ more =>
        obtain ⟨v, found, same⟩ := List.mem_map.mp <| (follows.oneOrMore greedy).complete on t member
          ⟨t', u, on', ⟨more, turned⟩, place, rfl⟩
        exact List.mem_map.mpr ⟨v, mem_zeroOrMore.mpr (.inr found), same⟩

/-! ## A bounded number of turns -/

theorem mem_inOrder {step : List (Nat × Nat) → Thread → List Thread × List (Nat × Nat)}
    {seen : List (Nat × Nat)} {threads : List Thread} {u : Thread}
    (member : u ∈ (inOrder step seen threads).1) : ∃ t ∈ threads, ∃ seen', u ∈ (step seen' t).1 := by
  induction threads generalizing seen with
  | nil => cases member
  | cons t rest ih =>
      unfold inOrder at member
      obtain here | later := List.mem_append.mp member
      · exact ⟨t, List.mem_cons_self, seen, here⟩
      · obtain ⟨v, member, found⟩ := ih later
        exact ⟨v, List.mem_cons_of_mem _ member, found⟩

theorem mem_atMost (follows : Follows text body leads) {greedy : Bool} {n : Nat}
    {seen : List (Nat × Nat)} {t u : Thread} (member : u ∈ (atMost body greedy n seen t).1) :
    ∃ more ≤ n, Turned leads more t u := by
  induction n generalizing seen t with
  | zero => exact ⟨0, Nat.le_refl _, (List.mem_singleton.mp member).symm⟩
  | succ n ih =>
      unfold atMost at member
      split at member
      · cases member
      · obtain rfl | found := mem_ordered.mp member
        · exact ⟨0, Nat.zero_le _, rfl⟩
        · obtain ⟨m, middle, _, later⟩ := mem_inOrder found
          obtain ⟨more, le, turned⟩ := ih later
          exact ⟨more + 1, Nat.succ_le_succ le, m, follows.leads_of_mem middle, turned⟩

/-- All places that so many turns lead to are among those found. -/
def Spent (text : List Char) (leads : Thread → Thread → Prop) (found : List Nat) (n p : Nat) : Prop :=
  ∀ more ≤ n, ∀ q, Between text (Turned leads more) p q → q ∈ found

theorem Spent.mono {found found' : List Nat} {n p : Nat} (spent : Spent text leads found n p)
    (le : found ⊆ found') : Spent text leads found' n p :=
  fun more bound q between => le (spent more bound q between)

theorem spent_zero {found : List Nat} {p : Nat} (itself : p ∈ found) :
    Spent text leads found 0 p := by
  rintro more le q between
  obtain rfl := Nat.le_zero.mp le
  obtain ⟨t, _, _, rfl, rfl, rfl⟩ := between
  exact itself

theorem spent_succ (onward : Onward text leads) {found : List Nat} {n p : Nat} (itself : p ∈ found)
    (each : ∀ q, Between text leads p q → Spent text leads found n q) :
    Spent text leads found (n + 1) p := by
  rintro (_ | more) le q between
  · exact spent_zero itself 0 (Nat.le_refl 0) q between
  · obtain ⟨m, step, others⟩ := between.seq onward
    exact each m step more (Nat.le_of_succ_le_succ le) q others

/-- The places that were begun with fewer turns left are spent. -/
def SpentBelow (text : List Char) (leads : Thread → Thread → Prop) (n : Nat)
    (seen : List (Nat × Nat)) (found : List Nat) : Prop :=
  ∀ m p, (m, p) ∈ seen → m < n → Spent text leads found (m + 1) p

/-- What a search for at most `n` turns has done: all that it has newly begun is spent. -/
structure Limited (text : List Char) (leads : Thread → Thread → Prop) (n : Nat)
    (before after : List (Nat × Nat)) (found found' : List Nat) : Prop where
  more : found ⊆ found'
  spent : ∀ m p, (m, p) ∈ after → (m, p) ∈ before ∨ m < n ∧ Spent text leads found' (m + 1) p

namespace Limited

variable {n : Nat} {before middle after : List (Nat × Nat)} {found found' found'' : List Nat}

theorem refl : Limited text leads n before before found found where
  more := List.Subset.refl _
  spent _ _ := .inl

theorem trans (first : Limited text leads n before middle found found')
    (last : Limited text leads n middle after found' found'') :
    Limited text leads n before after found found'' where
  more := List.Subset.trans first.more last.more
  spent m p begun := by
    obtain earlier | later := last.spent m p begun
    · exact (first.spent m p earlier).imp_right fun ⟨less, spent⟩ => ⟨less, spent.mono last.more⟩
    · exact .inr later

theorem spentBelow (limited : Limited text leads n before after found found')
    (below : SpentBelow text leads n before found) : SpentBelow text leads n after found' := by
  intro m p begun less
  obtain earlier | ⟨_, spent⟩ := limited.spent m p begun
  · exact (below m p earlier less).mono limited.more
  · exact spent

theorem afterBegin {p : Nat} (limited : Limited text leads n ((n, p) :: before) after found found')
    (le : found' ⊆ found'') (spent : Spent text leads found'' (n + 1) p) :
    Limited text leads (n + 1) before after found found'' where
  more := List.Subset.trans limited.more le
  spent m p' begun := by
    obtain earlier | ⟨less, spent'⟩ := limited.spent m p' begun
    · obtain same | earlier := List.mem_cons.mp earlier
      · obtain ⟨rfl, rfl⟩ := Prod.mk.inj same
        exact .inr ⟨Nat.lt_succ_self _, spent⟩
      · exact .inl earlier
    · exact .inr ⟨Nat.lt_succ_of_lt less, spent'.mono le⟩

end Limited

theorem SpentBelow.begin {n p : Nat} {seen : List (Nat × Nat)} {found : List Nat}
    (below : SpentBelow text leads (n + 1) seen found) :
    SpentBelow text leads n ((n, p) :: seen) found := by
  intro m p' begun less
  obtain same | earlier := List.mem_cons.mp begun
  · obtain ⟨rfl, _⟩ := Prod.mk.inj same
    exact absurd less (Nat.lt_irrefl _)
  · exact below m p' earlier (Nat.lt_succ_of_lt less)

theorem limited_inOrder {step : List (Nat × Nat) → Thread → List Thread × List (Nat × Nat)}
    {n : Nat} (seen : List (Nat × Nat)) (found : List Nat) {threads : List Thread}
    (limits : ∀ t ∈ threads, ∀ seen' found', SpentBelow text leads n seen' found' →
      Limited text leads n seen' (step seen' t).2 found'
          (found' ++ (step seen' t).1.map (·.position)) ∧
        Spent text leads (found' ++ (step seen' t).1.map (·.position)) n t.position)
    (below : SpentBelow text leads n seen found) :
    Limited text leads n seen (inOrder step seen threads).2 found
        (found ++ (inOrder step seen threads).1.map (·.position)) ∧
      ∀ t ∈ threads,
        Spent text leads (found ++ (inOrder step seen threads).1.map (·.position)) n t.position := by
  induction threads generalizing seen found with
  | nil => exact ⟨by simpa [inOrder] using .refl, nofun⟩
  | cons t rest ih =>
      obtain ⟨first, spent⟩ := limits t List.mem_cons_self seen found below
      obtain ⟨others, spent'⟩ := ih _ _ (fun u later => limits u (List.mem_cons_of_mem _ later))
        (first.spentBelow below)
      rw [inOrder, List.map_append, ← List.append_assoc]
      refine ⟨first.trans others, fun u member => ?_⟩
      obtain rfl | later := List.mem_cons.mp member
      · exact spent.mono others.more
      · exact spent' u later

theorem limited_atMost (follows : Follows text body leads) (greedy : Bool) (n : Nat)
    (seen : List (Nat × Nat)) (found : List Nat) {t : Thread} (on : t.On text)
    (below : SpentBelow text leads n seen found) :
    Limited text leads n seen (atMost body greedy n seen t).2 found
        (found ++ (atMost body greedy n seen t).1.map (·.position)) ∧
      Spent text leads (found ++ (atMost body greedy n seen t).1.map (·.position)) n t.position := by
  induction n generalizing seen found t with
  | zero =>
      exact ⟨⟨List.subset_append_left _ _, fun _ _ => .inl⟩,
        spent_zero (List.mem_append_right _ List.mem_cons_self)⟩
  | succ n ih =>
      unfold atMost
      split
      next already =>
        rw [List.map_nil, List.append_nil]
        exact ⟨.refl, below n t.position (List.contains_iff_mem.mp already) (Nat.lt_succ_self n)⟩
      next fresh =>
        obtain ⟨limited, spent⟩ := limited_inOrder ((n, t.position) :: seen) found
          (fun u member seen' found' below =>
            ih seen' found' (follows.onward (follows.leads_of_mem member) on).1 below) below.begin
        generalize inOrder (Regex.atMost body greedy n) ((n, t.position) :: seen) (body [t]) = inner
          at limited spent
        have kept : found ++ inner.1.map (·.position) ⊆
            found ++ (if greedy then inner.1 ++ [t] else t :: inner.1).map (·.position) :=
          List.append_subset.mpr ⟨List.subset_append_left _ _, List.Subset.trans
            (List.map_subset _ fun u inside => mem_ordered.mpr (.inr inside))
            (List.subset_append_right _ _)⟩
        have all : Spent text leads
            (found ++ (if greedy then inner.1 ++ [t] else t :: inner.1).map (·.position)) (n + 1)
            t.position := by
          refine spent_succ follows.onward ?_ fun q between => ?_
          · exact List.mem_append_right _ (List.mem_map_of_mem (mem_ordered.mpr (.inl rfl)))
          · obtain ⟨u, member, rfl⟩ := List.mem_map.mp (follows.mem_of_between on between)
            exact (spent u member).mono kept
        exact ⟨limited.afterBegin kept all, all⟩

theorem Follows.atMost (follows : Follows text body leads) (greedy : Bool) (n : Nat) :
    Follows text (fun threads => (inOrder (atMost body greedy n) [] threads).1)
      (fun t u => ∃ more ≤ n, Turned leads more t u) where
  onward _ _ := fun ⟨more, _, turned⟩ => follows.onward.turned more turned
  sound member := by
    obtain ⟨t, member, _, found⟩ := mem_inOrder member
    exact ⟨t, member, mem_atMost follows found⟩
  complete {threads} on t member q between := by
    obtain ⟨_, spent⟩ := limited_inOrder [] []
      (fun t member seen found => limited_atMost follows greedy n seen found (on t member)) nofun
    obtain ⟨t', u, on', ⟨more, le, turned⟩, place, rfl⟩ := between
    exact spent t member more le u.position ⟨t', u, on', turned, place, rfl⟩

end AccessControl.Regex

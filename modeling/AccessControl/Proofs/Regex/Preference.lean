import AccessControl.Proofs.Regex.Row

/-! # Which way is preferred

The ways on from a thread have an order of preference. A list of threads that is carried through an
expression keeps, of the ways on from all its threads in order, the first one to each place. So the
first thread of the list takes the preferred way of all, which is seen here for anchors, sets, greedy
repetitions of a set, groups, and what stands in a row.
-/

namespace AccessControl.Regex

variable {text : List Char}

/-! ## The first thread at each place -/

theorem firsts_congr {seen seen' : List Nat} (same : ∀ p, p ∈ seen ↔ p ∈ seen')
    (threads : List Thread) : firsts seen threads = firsts seen' threads := by
  induction threads generalizing seen seen' with
  | nil => rfl
  | cons t rest ih =>
      have more : ∀ p, p ∈ t.position :: seen ↔ p ∈ t.position :: seen' := by simp [same]
      simp only [firsts, List.contains_iff_mem, same, ih same, ih more]

theorem firsts_append (seen : List Nat) (threads others : List Thread) :
    firsts seen (threads ++ others) =
      firsts seen threads ++ firsts (threads.map (·.position) ++ seen) others := by
  induction threads generalizing seen with
  | nil => rfl
  | cons t rest ih =>
      simp only [List.cons_append, firsts, ih, List.map_cons]
      split
      next already =>
        have already := List.contains_iff_mem.mp already
        refine congrArg _ (firsts_congr (fun p => ?_) others)
        simp only [List.mem_cons, List.mem_append]
        exact ⟨.inr, Or.rec (fun here => .inr (here ▸ already)) id⟩
      next =>
        refine congrArg (t :: _ ++ ·) (firsts_congr (fun p => ?_) others)
        simp only [List.mem_append, List.mem_cons]
        exact or_left_comm

theorem firsts_eq_nil {seen : List Nat} {threads : List Thread}
    (all : ∀ t ∈ threads, t.position ∈ seen) : firsts seen threads = [] := by
  induction threads with
  | nil => rfl
  | cons t rest ih =>
      obtain ⟨here, later⟩ := List.forall_mem_cons.mp all
      rw [firsts, if_pos (List.contains_iff_mem.mpr here), ih later]

theorem firsts_cons_seen {p : Nat} {threads : List Thread} (elsewhere : ∀ t ∈ threads, t.position ≠ p)
    (seen : List Nat) : firsts (p :: seen) threads = firsts seen threads := by
  induction threads generalizing seen with
  | nil => rfl
  | cons t rest ih =>
      obtain ⟨here, later⟩ := List.forall_mem_cons.mp elsewhere
      have swapped : firsts (t.position :: p :: seen) rest = firsts (p :: t.position :: seen) rest :=
        firsts_congr (fun q => by simp only [List.mem_cons]; exact or_left_comm) rest
      simp only [firsts, List.contains_iff_mem, List.mem_cons, here, false_or, ih later, swapped]

theorem position_mem_firsts_iff {seen : List Nat} {threads : List Thread} {q : Nat} :
    q ∈ (firsts seen threads).map (·.position) ∨ q ∈ seen ↔
      q ∈ threads.map (·.position) ∨ q ∈ seen := by
  constructor
  · refine Or.imp_left fun found => ?_
    obtain ⟨t, member, rfl⟩ := List.mem_map.mp found
    exact List.mem_map_of_mem (mem_of_mem_firsts member)
  · rintro (found | already)
    · exact (position_mem_firsts seen found).symm
    · exact .inr already

theorem firsts_firsts {seen seen' : List Nat} (less : seen ⊆ seen') (threads : List Thread) :
    firsts seen' (firsts seen threads) = firsts seen' threads := by
  induction threads generalizing seen seen' with
  | nil => rfl
  | cons t rest ih =>
      by_cases before : t.position ∈ seen
      · simp [firsts, before, less before, ih less]
      · by_cases before' : t.position ∈ seen'
        · simp [firsts, before, before', ih (List.cons_subset.mpr ⟨before', less⟩)]
        · simp [firsts, before, before', ih (List.cons_subset_cons _ less)]

theorem firsts_firsts_append {seen seen' : List Nat} (less : seen ⊆ seen')
    (threads others : List Thread) :
    firsts seen' (firsts seen threads ++ others) = firsts seen' (threads ++ others) := by
  rw [firsts_append, firsts_append, firsts_firsts less]
  refine congrArg _ (firsts_congr (fun q => ?_) others)
  have places : q ∈ (firsts seen threads).map (·.position) ∨ q ∈ seen ↔
      q ∈ threads.map (·.position) ∨ q ∈ seen := position_mem_firsts_iff
  have more : q ∈ seen → q ∈ seen' := fun member => less member
  simp only [List.mem_append]
  tauto

theorem head?_firsts (threads : List Thread) : (firsts [] threads).head? = threads.head? := by
  cases threads <;> rfl

theorem firsts_map {g : Thread → Thread} (still : ∀ t, (g t).position = t.position)
    (seen : List Nat) (threads : List Thread) :
    firsts seen (threads.map g) = (firsts seen threads).map g := by
  induction threads generalizing seen with
  | nil => rfl
  | cons t rest ih =>
      simp only [List.map_cons, firsts, still, ih]
      split <;> rfl

/-! ## Ways on in order -/

/-- The ways on lead from one place to the same places whatever groups there are. -/
def PlaceBound (text : List Char) (options : Thread → List Thread) : Prop :=
  ∀ {t u : Thread}, t.On text → u.On text → t.position = u.position →
    (options t).map (·.position) = (options u).map (·.position)

/-- Of threads at one place, the first one goes all the ways on that matter. -/
theorem firsts_flatMap_firsts {options : Thread → List Thread} (bound : PlaceBound text options)
    {seen seen' : List Nat} (done : ∀ t : Thread, t.On text → t.position ∈ seen →
      ∀ u ∈ options t, u.position ∈ seen')
    {threads : List Thread} (on : ∀ t ∈ threads, t.On text) :
    firsts seen' ((firsts seen threads).flatMap options) =
      firsts seen' (threads.flatMap options) := by
  induction threads generalizing seen seen' with
  | nil => rfl
  | cons t rest ih =>
      obtain ⟨here, later⟩ := List.forall_mem_cons.mp on
      rw [List.flatMap_cons, firsts_append]
      simp only [firsts]
      split
      next already =>
        have known := done t here (List.contains_iff_mem.mp already)
        rw [firsts_eq_nil known, ih done later, List.nil_append]
        refine firsts_congr (fun p => ?_) _
        rw [List.mem_append, List.mem_map]
        exact ⟨.inr, Or.rec (fun ⟨u, member, place⟩ => place ▸ known u member) id⟩
      next =>
        rw [List.flatMap_cons, firsts_append, ih _ later]
        intro u on place v member
        rw [List.mem_append]
        obtain same | earlier := List.mem_cons.mp place
        · exact .inl (bound on here same ▸ List.mem_map_of_mem member)
        · exact .inr (done u on earlier v member)

/-- The ways on from a thread through an expression, in order of preference. Of those from several
    threads, carrying them keeps the first one to each place. -/
structure Ranks (text : List Char) (r : Regex) (options : Thread → List Thread) : Prop where
  mem_iff : ∀ {t}, t.On text → ∀ {u}, u ∈ options t ↔ r.Carries t u
  bound : PlaceBound text options
  ranked : ∀ {threads}, (∀ t ∈ threads, t.On text) →
    firsts [] (r.run threads) = firsts [] (threads.flatMap options)

/-- The way past one member of a set. -/
def pastOne (s : CodePointSet) (t : Thread) : List Thread :=
  match t.rest with
  | [] => []
  | c :: rest => if s.contains c then [t.past [c] rest] else []

theorem step_toList (s : CodePointSet) (t : Thread) :
    (t.advance.bind fun (c, next) => if s.contains c then some next else none).toList =
      pastOne s t := by
  unfold Thread.advance pastOne
  cases t.rest with
  | nil => rfl
  | cons c rest =>
      simp only [Option.bind_some]
      split <;> rfl

namespace Ranks

variable {a b : Regex} {f g : Thread → List Thread}

theorem on (ranks : Ranks text a f) {t : Thread} (on : t.On text) : ∀ u ∈ f t, u.On text :=
  fun _ member => (onward_carries text a ((ranks.mem_iff on).mp member) on).1

/-- The first of the threads that are carried takes the preferred way of all. -/
theorem head?_run (ranks : Ranks text a f) {threads : List Thread} (on : ∀ t ∈ threads, t.On text) :
    (a.run threads).head? = threads.findSome? fun t => (f t).head? := by
  rw [← head?_firsts, ranks.ranked on, head?_firsts, List.head?_flatMap]

theorem anchor (a : Anchor) : Ranks text (.anchor a) fun t => if holds a t then [t] else [] where
  mem_iff {t} _ u := by
    by_cases there : holds a t = true
    · simp [there, Carries, eq_comm]
    · simp [there, Carries]
  bound {t u} on on' same := by
    obtain ⟨rest, previous⟩ := on.same on' same
    simp only [holds_congr a same previous rest]
    split
    · exact congrArg (fun p => [p]) same
    · rfl
  ranked {threads} _ := by
    rw [run, ← List.filterMap_eq_filter, List.filterMap_eq_flatMap_toList]
    refine congrArg _ (List.flatMap_congr fun t _ => ?_)
    by_cases there : holds a t = true
    · simp [Option.guard, there]
    · simp [Option.guard, there]

theorem set (s : CodePointSet) : Ranks text (.set s) (pastOne s) where
  mem_iff {t} _ u := by
    rw [← step_toList, Option.mem_toList]
    exact step_eq_some_iff
  bound {t u} on on' same := by
    obtain ⟨rest, _⟩ := on.same on' same
    simp only [pastOne, rest]
    split
    · rfl
    · split
      · exact congrArg (fun p => [p + 1]) same
      · rfl
  ranked _ := by
    rw [run, List.filterMap_eq_flatMap_toList]
    exact congrArg _ (List.flatMap_congr fun t _ => step_toList s t)

theorem cat (first : Ranks text a f) (second : Ranks text b g) :
    Ranks text (.cat a b) fun t => (f t).flatMap g where
  mem_iff {t} on u := by
    rw [List.mem_flatMap]
    refine exists_congr fun m => ?_
    rw [first.mem_iff on]
    exact and_congr_right fun step => second.mem_iff (onward_carries text a step on).1
  bound {t u} on on' same := by
    have places := first.bound on on' same
    have here := first.on on
    have there := first.on on'
    show ((f t).flatMap g).map (·.position) = ((f u).flatMap g).map (·.position)
    generalize f t = ts at places here ⊢
    generalize f u = us at places there ⊢
    clear on on'
    induction ts generalizing us with
    | nil =>
        obtain rfl := List.map_eq_nil_iff.mp places.symm
        rfl
    | cons m ts ih =>
        match us, places, there with
        | n :: us, places, there =>
            obtain ⟨place, places⟩ := List.cons.inj places
            obtain ⟨on, here⟩ := List.forall_mem_cons.mp here
            obtain ⟨on', there⟩ := List.forall_mem_cons.mp there
            simp only [List.flatMap_cons, List.map_append, ih here us places there,
              second.bound on on' place]
  ranked {threads} on := by
    have middle : ∀ m ∈ threads.flatMap f, m.On text := by
      intro m member
      obtain ⟨t, start, way⟩ := List.mem_flatMap.mp member
      exact first.on (on t start) m way
    have carried := (follows_run text a).on on
    have kept {threads : List Thread} (on : ∀ t ∈ threads, t.On text) :
        firsts [] ((firsts [] threads).flatMap g) = firsts [] (threads.flatMap g) :=
      firsts_flatMap_firsts second.bound (fun _ _ nowhere => absurd nowhere List.not_mem_nil) on
    calc firsts [] (b.run (a.run threads))
      _ = firsts [] ((a.run threads).flatMap g) := second.ranked carried
      _ = firsts [] ((firsts [] (threads.flatMap f)).flatMap g) := by
        rw [← kept carried, first.ranked on]
      _ = firsts [] (threads.flatMap fun t => (f t).flatMap g) := by
        rw [kept middle, List.flatMap_assoc]

theorem group (inner : Ranks text a f) (index : Nat) :
    Ranks text (.group (some index) a) fun t => (f (t.enter index)).map (·.leave index) where
  mem_iff {t} on u := by
    rw [List.mem_map]
    refine exists_congr fun m => ?_
    rw [inner.mem_iff (on.enter index), eq_comm (b := u)]
  bound {t u} on on' same := by
    simp only [List.map_map, Function.comp_def, Thread.position_leave]
    exact inner.bound (on.enter index) (on'.enter index) same
  ranked {threads} on := by
    have entered : ∀ t ∈ threads.map (·.enter index), t.On text := by
      intro _ member
      obtain ⟨t, start, rfl⟩ := List.mem_map.mp member
      exact (on t start).enter index
    have still (t : Thread) : (t.leave index).position = t.position := t.position_leave index
    rw [run, firsts_map still, inner.ranked entered, ← firsts_map still, List.flatMap_map,
      List.map_flatMap]

end Ranks

/-! ## Repetitions of a set -/

/-- The ways past one or more members of a set, the longest first. -/
def beyond (s : CodePointSet) : Thread → List Char → List Thread
  | _, [] => []
  | t, c :: rest =>
    if s.contains c then beyond s (t.past [c] rest) rest ++ [t.past [c] rest] else []

variable {s : CodePointSet}

theorem mem_beyond {t u : Thread} :
    u ∈ beyond s t t.rest ↔ ∃ taken rest, taken ≠ [] ∧ (∀ c ∈ taken, s.contains c = true) ∧
      t.rest = taken ++ rest ∧ u = t.past taken rest := by
  generalize whole : t.rest = behind
  induction behind generalizing t with
  | nil => simp +contextual [beyond]
  | cons c behind ih =>
      unfold beyond
      split
      next inside =>
        rw [List.mem_append, ih rfl, List.mem_singleton]
        constructor
        · rintro (⟨taken, rest, _, members, split, rfl⟩ | rfl)
          · exact ⟨c :: taken, rest, List.cons_ne_nil _ _, List.forall_mem_cons.mpr ⟨inside, members⟩,
              congrArg (c :: ·) split, t.past_past [c] taken rest _⟩
          · exact ⟨[c], behind, List.cons_ne_nil _ _, List.forall_mem_singleton.mpr inside, rfl, rfl⟩
        · rintro ⟨_ | ⟨d, taken⟩, rest, some, members, split, rfl⟩
          · exact absurd rfl some
          · obtain ⟨rfl, rfl⟩ := List.cons.inj split
            by_cases more : taken = []
            · subst more
              exact .inr rfl
            · exact .inl ⟨taken, rest, more, (List.forall_mem_cons.mp members).2, rfl,
                (t.past_past [c] taken rest _).symm⟩
      next outside =>
        refine iff_of_false List.not_mem_nil ?_
        rintro ⟨_ | ⟨d, taken⟩, rest, some, members, split, rfl⟩
        · exact some rfl
        · obtain ⟨rfl, _⟩ := List.cons.inj split
          exact outside (List.forall_mem_cons.mp members).1

theorem lt_position_beyond {t u : Thread} (member : u ∈ beyond s t t.rest) :
    t.position < u.position := by
  obtain ⟨taken, rest, some, _, _, rfl⟩ := mem_beyond.mp member
  exact Nat.lt_add_of_pos_right (List.length_pos_iff.mpr some)

theorem pairwise_beyond (t : Thread) :
    (beyond s t t.rest).Pairwise fun u v => v.position < u.position := by
  generalize whole : t.rest = behind
  induction behind generalizing t with
  | nil => exact .nil
  | cons c behind ih =>
      unfold beyond
      split
      · refine List.pairwise_append.mpr ⟨ih _ rfl, List.pairwise_singleton _ _, fun u member v last => ?_⟩
        obtain rfl := List.mem_singleton.mp last
        exact lt_position_beyond member
      · exact .nil

theorem placeBound_beyond (text : List Char) (s : CodePointSet) :
    PlaceBound text fun t => beyond s t t.rest := by
  intro t u on on' same
  show (beyond s t t.rest).map (·.position) = (beyond s u u.rest).map (·.position)
  rw [(on.same on' same).1]
  clear on on'
  generalize u.rest = behind
  induction behind generalizing t u with
  | nil => rfl
  | cons c behind ih =>
      have next : (t.past [c] behind).position = (u.past [c] behind).position := congrArg (· + 1) same
      simp only [beyond]
      split
      · simp only [List.map_append, ih next, List.map_cons, next]
      · rfl

theorem on_of_mem_beyond {t u : Thread} (on : t.On text) (member : u ∈ beyond s t t.rest) :
    u.On text := by
  obtain ⟨taken, rest, some, members, split, rfl⟩ := mem_beyond.mp member
  have way : (Regex.rep (.set s) 1 none true).Carries t (t.past taken rest) :=
    carries_rep_set_iff.mpr ⟨taken, rest, List.length_pos_iff.mpr some, members, split, rfl⟩
  exact (onward_carries text _ way on).1

theorem beyond_trans {t u v w : Thread} (on : t.On text) (first : u ∈ beyond s t t.rest)
    (on' : v.On text) (same : v.position = u.position) (second : w ∈ beyond s v v.rest) :
    w.position ∈ (beyond s t t.rest).map (·.position) := by
  have behind := (on'.same (on_of_mem_beyond on first) same).1
  obtain ⟨taken, rest, some, members, split, rfl⟩ := mem_beyond.mp first
  obtain ⟨more, rest', _, members', split', rfl⟩ := mem_beyond.mp second
  have behind : v.rest = rest := behind
  refine List.mem_map.mpr ⟨t.past (taken ++ more) rest', mem_beyond.mpr ⟨_, _, ?_, ?_, ?_, rfl⟩, ?_⟩
  · exact List.append_ne_nil_of_left_ne_nil some more
  · exact List.forall_mem_append.mpr ⟨members, members'⟩
  · rw [split, ← behind, split', List.append_assoc]
  · simp [Thread.past, same, Nat.add_assoc]

theorem pastOne_cases (s : CodePointSet) (t : Thread) :
    (pastOne s t = [] ∧ beyond s t t.rest = []) ∨
      ∃ u, pastOne s t = [u] ∧ beyond s t t.rest = beyond s u u.rest ++ [u] := by
  unfold pastOne
  split
  next none => exact .inl ⟨rfl, by rw [none, beyond]⟩
  next c rest some =>
    rw [some, beyond]
    split
    · exact .inr ⟨t.past [c] rest, rfl, rfl⟩
    · exact .inl ⟨rfl, rfl⟩

/-- What has been begun or has ended from a place on has been followed to the end. -/
def Closed (text : List Char) (s : CodePointSet) (p : Nat) (seen : Turns) : Prop :=
  ∀ v : Thread, v.On text →
    p ≤ v.position ∧ v.position ∈ seen.begun ∨ p < v.position ∧ v.position ∈ seen.ended →
    ∀ w ∈ beyond s v v.rest, w.position ∈ seen.ended

theorem Closed.forward {p q : Nat} {seen : Turns} (closed : Closed text s p seen) (further : p < q) :
    Closed text s q ⟨p :: seen.begun, q :: seen.ended⟩ := by
  intro v on met w member
  refine List.mem_cons_of_mem _ (closed v on ?_ w member)
  rcases met with ⟨le, begun⟩ | ⟨lt, ended⟩
  · exact .inl ⟨by omega, (List.mem_cons.mp begun).resolve_left (by omega)⟩
  · exact .inr ⟨by omega, (List.mem_cons.mp ended).resolve_left (by omega)⟩

theorem Closed.mono {p q : Nat} {seen : Turns} (closed : Closed text s p seen) (le : p ≤ q) :
    Closed text s q seen :=
  fun v on met => closed v on <| met.imp (And.imp_left (Nat.le_trans le))
    (And.imp_left (Nat.lt_of_le_of_lt le))

/-- What is found, and what has been seen, when the turns from a thread are searched. -/
structure Searched (s : CodePointSet) (seen : Turns) (t : Thread) (outcome : List Thread × Turns) :
    Prop where
  found : outcome.1 = firsts seen.ended (beyond s t t.rest)
  ended : ∀ q, q ∈ outcome.2.ended ↔ q ∈ (beyond s t t.rest).map (·.position) ∨ q ∈ seen.ended
  begun : ∀ q ∈ outcome.2.begun,
    q ∈ seen.begun ∨ q = t.position ∨ q ∈ (beyond s t t.rest).map (·.position)

theorem Searched.of_seen {seen : Turns} {t : Thread}
    (all : ∀ u ∈ beyond s t t.rest, u.position ∈ seen.ended) {begun : List Nat}
    (few : ∀ q ∈ begun, q ∈ seen.begun ∨ q = t.position) :
    Searched s seen t ([], ⟨begun, seen.ended⟩) where
  found := (firsts_eq_nil all).symm
  ended q := by
    refine ⟨.inr, Or.rec (fun found => ?_) id⟩
    obtain ⟨u, member, rfl⟩ := List.mem_map.mp found
    exact all u member
  begun q member := (few q member).imp_right .inl

theorem run_set_singleton (s : CodePointSet) (t : Thread) :
    (Regex.set s).run [t] = pastOne s t := by
  rw [run, List.filterMap_eq_flatMap_toList, List.flatMap_singleton, step_toList]

theorem searched_turns {n : Nat} {seen : Turns} {t : Thread} (on : t.On text)
    (enough : t.rest.length < n) (closed : Closed text s t.position seen) :
    Searched s seen t (turns (Regex.set s).run true n seen t) := by
  induction n generalizing seen t with
  | zero => exact absurd enough (Nat.not_lt_zero _)
  | succ n ih =>
      unfold turns
      split
      next already =>
        have begun := List.contains_iff_mem.mp already
        exact .of_seen (closed t on (.inl ⟨Nat.le_refl _, begun⟩)) fun _ => .inl
      next =>
        have begun (q : Nat) (member : q ∈ t.position :: seen.begun) :
            q ∈ seen.begun ∨ q = t.position := (List.mem_cons.mp member).symm
        rw [run_set_singleton]
        obtain nowhere | ⟨u, next, behind⟩ := pastOne_cases s t
        · rw [nowhere.1]
          exact .of_seen (by simp [nowhere.2]) begun
        · have further : t.position < u.position :=
            lt_position_beyond (behind ▸ List.mem_append_right _ List.mem_cons_self)
          have later : ∀ w ∈ beyond s u u.rest, w.position ≠ u.position :=
            fun w member => Nat.ne_of_gt (lt_position_beyond member)
          have on' := on_of_mem_beyond on (behind ▸ List.mem_append_right _ List.mem_cons_self)
          rw [next]
          simp only [continueTurns]
          split
          next already =>
            have ended := List.contains_iff_mem.mp already
            refine .of_seen (fun w member => ?_) begun
            rw [behind, List.mem_append, List.mem_singleton] at member
            obtain member | rfl := member
            · exact closed u on' (.inr ⟨further, ended⟩) w member
            · exact ended
          next fresh =>
            have place : u.position ∉ seen.ended := fun ended =>
              fresh (List.contains_iff_mem.mpr ended)
            have less : u.rest.length < n := by
              have := on.position_add
              have := on'.position_add
              omega
            have inner := ih on' less (closed.forward further)
            generalize turns (Regex.set s).run true n _ u = outcome at inner
            have last : firsts ((beyond s u u.rest).map (·.position) ++ seen.ended) [u] = [u] := by
              refine if_neg fun met => ?_
              obtain found | ended := List.mem_append.mp (List.contains_iff_mem.mp met)
              · obtain ⟨w, member, same⟩ := List.mem_map.mp found
                exact later w member same
              · exact place ended
            refine ⟨?_, fun q => ?_, fun q member => ?_⟩
            · rw [behind, firsts_append, last, ← firsts_cons_seen later, ← inner.found]
              exact List.append_nil _
            · simp [behind, inner.ended, or_assoc]
            · have met := inner.begun q member
              simp only [List.mem_cons] at met
              simp only [behind, List.map_append, List.mem_append, List.map_cons, List.map_nil,
                List.mem_singleton]
              tauto

/-- From then on, all that was met in the search has been followed to the end. -/
theorem Searched.closed {seen : Turns} {t : Thread} {outcome : List Thread × Turns}
    (searched : Searched s seen t outcome) (on : t.On text) (closed : Closed text s 0 seen) :
    Closed text s 0 outcome.2 := by
  intro v on' met w member
  rw [searched.ended]
  have follows (found : v.position ∈ (beyond s t t.rest).map (·.position)) :
      w.position ∈ (beyond s t t.rest).map (·.position) := by
    obtain ⟨u, way, same⟩ := List.mem_map.mp found
    exact beyond_trans on way on' same.symm member
  rcases met with ⟨_, begun⟩ | ⟨further, ended⟩
  · obtain earlier | same | found := searched.begun _ begun
    · exact .inr (closed v on' (.inl ⟨Nat.zero_le _, earlier⟩) w member)
    · exact .inl (placeBound_beyond text s on' on same ▸ List.mem_map_of_mem member)
    · exact .inl (follows found)
  · obtain found | earlier := (searched.ended _).mp ended
    · exact .inl (follows found)
    · exact .inr (closed v on' (.inr ⟨further, earlier⟩) w member)

theorem closed_start (text : List Char) (s : CodePointSet) : Closed text s 0 ⟨[], []⟩ := by
  rintro v _ (⟨_, nowhere⟩ | ⟨_, nowhere⟩) <;> cases nowhere

theorem oneOrMore_set {seen : Turns} (closed : Closed text s 0 seen) {threads : List Thread}
    (on : ∀ t ∈ threads, t.On text) :
    oneOrMore (Regex.set s).run true seen threads =
      firsts seen.ended (threads.flatMap fun t => beyond s t t.rest) := by
  induction threads generalizing seen with
  | nil => rfl
  | cons t rest ih =>
      obtain ⟨here, later⟩ := List.forall_mem_cons.mp on
      have searched := searched_turns here (Nat.lt_succ_self _) (closed.mono (Nat.zero_le _))
      have others := ih (searched.closed here closed) later
      rw [List.flatMap_cons, firsts_append, ← searched.found]
      refine congrArg _ (others.trans (firsts_congr (fun q => ?_) _))
      rw [searched.ended, List.mem_append]

theorem firsts_zeroOrMore_set {seen : Turns} (closed : Closed text s 0 seen) {seen' : List Nat}
    (less : seen.ended ⊆ seen') {threads : List Thread} (on : ∀ t ∈ threads, t.On text) :
    firsts seen' (zeroOrMore (Regex.set s).run true seen threads) =
      firsts seen' (threads.flatMap fun t => beyond s t t.rest ++ [t]) := by
  induction threads generalizing seen seen' with
  | nil => rfl
  | cons t rest ih =>
      obtain ⟨here, later⟩ := List.forall_mem_cons.mp on
      have searched := searched_turns here (Nat.lt_succ_self _) (closed.mono (Nat.zero_le _))
      have next : zeroOrMore (Regex.set s).run true seen (t :: rest) =
          firsts seen.ended (beyond s t t.rest) ++ ([t] ++ zeroOrMore (Regex.set s).run true
            (turns (Regex.set s).run true (t.rest.length + 1) seen t).2 rest) := by
        rw [← searched.found, ← List.append_assoc]
        rfl
      rw [next, firsts_firsts_append less, ← List.append_assoc, firsts_append _ (_ ++ [t]),
        List.flatMap_cons, firsts_append _ (_ ++ [t])]
      refine congrArg _ (ih (searched.closed here closed) (fun q member => ?_) later)
      rw [List.map_append, List.append_assoc, List.mem_append, List.mem_append]
      exact ((searched.ended q).mp member).imp_right fun earlier => .inr (less earlier)

namespace Ranks

/-- A set is repeated as often as the way behind it allows. -/
theorem zeroOrMore (s : CodePointSet) :
    Ranks text (.rep (.set s) 0 none true) fun t => beyond s t t.rest ++ [t] where
  mem_iff {t} _ u := by
    rw [List.mem_append, mem_beyond, List.mem_singleton, carries_rep_set_iff]
    constructor
    · rintro (⟨taken, rest, _, found⟩ | rfl)
      · exact ⟨taken, rest, Nat.zero_le _, found⟩
      · exact ⟨[], u.rest, Nat.zero_le _, nofun, rfl, u.past_nil.symm⟩
    · rintro ⟨taken, rest, _, members, split, rfl⟩
      by_cases none : taken = []
      · subst none
        obtain rfl : t.rest = rest := split
        exact .inr t.past_nil
      · exact .inl ⟨taken, rest, none, members, split, rfl⟩
  bound {t u} on on' same := by
    have places := placeBound_beyond text s on on' same
    simp only [List.map_append, List.map_cons, List.map_nil, same] at places ⊢
    rw [places]
  ranked on := by
    show firsts [] (firsts [] _) = _
    rw [firsts_firsts (List.Subset.refl _)]
    exact firsts_zeroOrMore_set (closed_start text s) (List.Subset.refl _) on

theorem oneOrMore (s : CodePointSet) :
    Ranks text (.rep (.set s) 1 none true) fun t => beyond s t t.rest where
  mem_iff {t} _ u := by
    simp only [mem_beyond, carries_rep_set_iff, Nat.one_le_iff_ne_zero, ne_eq,
      List.length_eq_zero_iff]
  bound := placeBound_beyond text s
  ranked {threads} on := by
    show firsts [] (Regex.oneOrMore (Regex.set s).run true ⟨[], []⟩ threads) = _
    rw [oneOrMore_set (closed_start text s) on, firsts_firsts (List.Subset.refl _)]

end Ranks

end AccessControl.Regex

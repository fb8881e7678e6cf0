import AccessControl.Proofs.Decision.Cache
import AccessControl.Settings

/-! # A decision cache is a bounded map

Entries leave a cache in four ways: they are found to be expired, a cleanup drops them, they have to
make room, or the cache is cleared. What stays is the last that was set for its key, and its
deadline tells when. All ways but the last one count as evictions, so that no entry goes unnoticed.
A call that breaks off, because it would have to keep a decision for longer than the clock can tell,
has made room and done nothing else.
-/

namespace AccessControl

theorem Variables.readNumber?_lt {text : String} {number : Nat}
    (read : readNumber? text = some number) : number < UInt64.size := by
  obtain ⟨integer, settled, rfl⟩ := Option.map_eq_some_iff.mp read
  unfold readInteger? at settled
  simp only [Option.ite_none_left_eq_some, Option.ite_none_right_eq_some, Bool.and_eq_true,
    decide_eq_true_eq, Option.some.injEq] at settled
  obtain ⟨_, ⟨_, most⟩, rfl⟩ := settled
  omega

/-- Something that is done to a cache, or that happens to it. -/
inductive CacheOperation (κ : Type) where
  | get (key : κ)
  | set (key : κ) (decision : Decision)
  | clear
  | cleanup
  | elapse (nanoseconds : Nat)
  /-- From now on a full cache chooses differently what it drops. -/
  | choose (victim : List κ → Nat)

namespace DecisionCache

variable {κ : Type}

/-! ## What is left of a cache -/

/-- A cache of which some entries have been dropped and counted. -/
structure Remains (cache rest : DecisionCache κ) : Prop where
  entries : rest.entries.Sublist cache.entries
  settings : rest.settings = cache.settings
  clock : rest.clock = cache.clock
  latest : rest.latest = cache.latest
  lookups : rest.hits + rest.misses = cache.hits + cache.misses
  counted : rest.size + rest.evictions = cache.size + cache.evictions

namespace Remains

variable {cache rest rest' : DecisionCache κ}

theorem refl (cache : DecisionCache κ) : Remains cache cache :=
  ⟨List.Sublist.refl _, rfl, rfl, rfl, rfl, rfl⟩

theorem trans (h : Remains cache rest) (h' : Remains rest rest') : Remains cache rest' :=
  ⟨h'.entries.trans h.entries, h'.settings.trans h.settings, h'.clock.trans h.clock,
    h'.latest.trans h.latest, h'.lookups.trans h.lookups, h'.counted.trans h.counted⟩

theorem keep {entries : List (κ × CachedDecision)} (fewer : entries.Sublist cache.entries) :
    Remains cache (cache.keep entries) := by
  refine ⟨fewer, rfl, rfl, rfl, rfl, ?_⟩
  have least := fewer.length_le
  simp only [DecisionCache.keep, size]
  omega

theorem cleanup (cache : DecisionCache κ) : Remains cache cache.cleanup :=
  keep List.filter_sublist

theorem makeRoom (cache : DecisionCache κ) (capacity : Nat) :
    Remains cache (cache.makeRoom capacity) := by
  unfold DecisionCache.makeRoom
  split
  · exact refl cache
  · exact (cleanup cache).trans (keep (Memo.dropVictims_sublist _ _ _))

theorem tellsDeadline (remains : Remains cache rest) :
    rest.tellsDeadline = cache.tellsDeadline := by
  unfold DecisionCache.tellsDeadline deadline?
  rw [remains.settings, remains.clock, remains.latest]

end Remains

theorem size_makeRoom_lt (cache : DecisionCache κ) {capacity : Nat} (some : capacity ≠ 0) :
    (cache.makeRoom capacity).size < capacity := by
  unfold DecisionCache.makeRoom
  split
  · assumption
  · exact Memo.length_shrink_lt _ some _

/-! ## Time -/

/-- A cache some time later. -/
structure Ages (passed : Nat) (cache later : DecisionCache κ) : Prop where
  settings : later.settings = cache.settings
  latest : later.latest = cache.latest
  clock : later.clock = cache.clock + passed

namespace Ages

variable {passed passed' : Nat} {cache later later' : DecisionCache κ}

theorem trans (h : Ages passed cache later) (h' : Ages passed' later later') :
    Ages (passed + passed') cache later' :=
  ⟨h'.settings.trans h.settings, h'.latest.trans h.latest, by rw [h'.clock, h.clock, Nat.add_assoc]⟩

theorem of_remains (remains : Remains cache later) : Ages 0 cache later :=
  ⟨remains.settings, remains.latest, remains.clock⟩

end Ages

/-- Where a cache keeps anything at all, its clock can tell for some time yet when that expires. -/
def Lasts (time : Nat) (cache : DecisionCache κ) : Prop :=
  cache.settings.capacity ≠ some 0 →
    ∀ lifetime ∈ cache.settings.lifetime?, cache.clock + time + lifetime ≤ cache.latest

theorem Ages.lasts_iff {passed time : Nat} {cache later : DecisionCache κ}
    (ages : Ages passed cache later) : later.Lasts time ↔ cache.Lasts (passed + time) := by
  unfold Lasts
  rw [ages.settings, ages.latest, ages.clock, Nat.add_assoc cache.clock]

theorem Lasts.mono {time time' : Nat} {cache : DecisionCache κ} (lasts : cache.Lasts time)
    (less : time' ≤ time) : cache.Lasts time' := by
  intro some lifetime limit
  have told := lasts some lifetime limit
  omega

/-- Milliseconds that fit a word are never too many for a clock of signed seconds, as long as it runs
    for no more than half of its time. -/
theorem lasts_of_milliseconds {time : Nat} {cache : DecisionCache κ}
    (word : ∀ ttl ∈ cache.settings.ttl, ttl < UInt64.size) (whole : cache.settings.ttlRest = 0)
    (early : cache.clock + time ≤ lastMoment / 2) (latest : cache.latest = lastMoment) :
    cache.Lasts time := by
  intro _ lifetime limit
  obtain ⟨ttl, given, rfl⟩ := Option.map_eq_some_iff.mp limit
  have most : ttl * nanosecondsPerMillisecond ≤ UInt64.size * nanosecondsPerMillisecond :=
    Nat.mul_le_mul_right _ (Nat.le_of_lt (word ttl given))
  have room : lastMoment / 2 + UInt64.size * nanosecondsPerMillisecond ≤ lastMoment := by decide
  omega

/-- So no lifetime that is read from variables is ever too long. -/
theorem lasts_ofVariables {time : Nat} {cache : DecisionCache κ} {environment : Variables}
    (read : cache.settings = .ofVariables environment)
    (early : cache.clock + time ≤ lastMoment / 2) (latest : cache.latest = lastMoment) :
    cache.Lasts time := by
  refine lasts_of_milliseconds (fun ttl given => ?_) (by rw [read]; rfl) early latest
  rw [read] at given
  obtain ⟨text, _, number⟩ := Option.bind_eq_some_iff.mp given
  exact Variables.readNumber?_lt number

/-! ## What entries tell -/

def keys (cache : DecisionCache κ) : List κ := cache.entries.map (·.1)

/-- Every entry is what was set last for its key, and expires a lifetime later. -/
structure Follows (last : κ → Option (Decision × Nat)) (cache : DecisionCache κ) : Prop where
  distinct : cache.keys.Nodup
  recorded : ∀ entry ∈ cache.entries, ∃ since age, since + age = cache.clock ∧
    last entry.1 = some (entry.2.decision, age) ∧
    entry.2.deadline = cache.settings.lifetime?.map (since + ·)
  bounded : ∀ capacity ∈ cache.settings.capacity, cache.size ≤ capacity

namespace Follows

variable {last : κ → Option (Decision × Nat)} {cache rest : DecisionCache κ}

theorem remains (follows : Follows last cache) (remains : Remains cache rest) :
    Follows last rest where
  distinct := follows.distinct.sublist (remains.entries.map _)
  recorded entry member := by
    rw [remains.clock, remains.settings]
    exact follows.recorded entry (remains.entries.subset member)
  bounded capacity limit :=
    Nat.le_trans remains.entries.length_le (follows.bounded capacity (remains.settings ▸ limit))

theorem congr (follows : Follows last cache) (entries : rest.entries = cache.entries)
    (clock : rest.clock = cache.clock) (settings : rest.settings = cache.settings) :
    Follows last rest where
  distinct := by simpa only [keys, entries] using follows.distinct
  recorded := by simpa only [entries, clock, settings] using follows.recorded
  bounded := by simpa only [size, entries, settings] using follows.bounded

theorem entries_eq_nil (follows : Follows last cache) (limit : cache.settings.capacity = some 0) :
    cache.entries = [] :=
  List.eq_nil_of_length_eq_zero (Nat.le_zero.mp (follows.bounded 0 limit))

end Follows

variable [BEq κ]

/-! ## Histories -/

/-- A cache after an operation. -/
def step (cache : DecisionCache κ) : CacheOperation κ → DecisionCache κ
  | .get key => (cache.get key).2
  | .set key decision => cache.afterSet key decision
  | .clear => cache.clear
  | .cleanup => cache.cleanup
  | .elapse nanoseconds => cache.elapse nanoseconds
  | .choose victim => { cache with victim }

def run (cache : DecisionCache κ) (operations : List (CacheOperation κ)) : DecisionCache κ :=
  operations.foldl step cache

/-- What an operation makes of what was set last for a key, and of how long ago. A call that breaks off
    sets nothing. -/
def follow (cache : DecisionCache κ) (key : κ) (last : Option (Decision × Nat)) :
    CacheOperation κ → Option (Decision × Nat)
  | .set key' decision =>
    if key == key' && (cache.set? key' decision).isSome then some (decision, 0) else last
  | .clear => none
  | .elapse nanoseconds => last.map fun entry => (entry.1, entry.2 + nanoseconds)
  | _ => last

/-- What was set last for a key since the cache was cleared, and how long ago. -/
def lastSet (cache : DecisionCache κ) (key : κ) (last : Option (Decision × Nat)) :
    List (CacheOperation κ) → Option (Decision × Nat)
  | [] => last
  | operation :: rest =>
    lastSet (cache.step operation) key (follow cache key last operation) rest

/-- How much time passes in an operation. -/
def duration : CacheOperation κ → Nat
  | .elapse nanoseconds => nanoseconds
  | _ => 0

/-- How much time passes in a history. -/
def elapsed : List (CacheOperation κ) → Nat
  | [] => 0
  | operation :: rest => duration operation + elapsed rest

/-- Add up what each operation does, in the state that it finds. -/
def total (measure : DecisionCache κ → CacheOperation κ → Nat) (cache : DecisionCache κ) :
    List (CacheOperation κ) → Nat
  | [] => 0
  | operation :: rest => measure cache operation + total measure (cache.step operation) rest

def isGet : CacheOperation κ → Bool
  | .get _ => true
  | _ => false

/-- Whether an operation stores a key that has not been there. -/
def entered (cache : DecisionCache κ) : CacheOperation κ → Nat
  | .set key decision =>
    if (cache.entry? key).isNone && (DecisionCache.entry? (cache.afterSet key decision) key).isSome
    then 1 else 0
  | _ => 0

/-- How many entries an operation drops without counting them as evicted. -/
def cleared (cache : DecisionCache κ) : CacheOperation κ → Nat
  | .clear => cache.size
  | _ => 0

variable {last : κ → Option (Decision × Nat)} {cache rest : DecisionCache κ} {key : κ}
  {decision : Decision}

theorem Follows.elapse (follows : Follows last cache) (nanoseconds : Nat) :
    Follows (fun other => follow cache other (last other) (.elapse nanoseconds))
      (cache.elapse nanoseconds) where
  distinct := follows.distinct
  recorded entry member := by
    obtain ⟨since, age, clock, set, deadline⟩ := follows.recorded entry member
    refine ⟨since, age + nanoseconds, ?_, by simp [follow, set], deadline⟩
    rw [← Nat.add_assoc, clock]
    rfl
  bounded := follows.bounded

/-! ## Look-ups and stores -/

variable [LawfulBEq κ]

theorem entry?_eq_none_iff : cache.entry? key = none ↔ key ∉ cache.keys := by
  unfold entry? keys
  rw [List.lookup_eq_none_iff, List.mem_map, not_exists]
  refine forall_congr' fun entry => ?_
  rw [not_and, bne_iff_ne]
  exact forall_congr' fun _ => ne_comm

/-- A look-up finds a valid entry, or it drops an expired one at most. -/
theorem get_cases (cache : DecisionCache κ) (key : κ) :
    (∃ entry, (key, entry) ∈ cache.entries ∧ cache.isExpired entry = false ∧
      cache.get key = (some entry.decision, { cache with hits := cache.hits + 1 })) ∨
    ∃ rest, Remains cache rest ∧
      cache.get key = (none, { rest with misses := rest.misses + 1 }) := by
  unfold DecisionCache.get
  cases found : cache.entry? key with
  | none => exact .inr ⟨cache, .refl cache, rfl⟩
  | some entry =>
      simp only
      split
      · exact .inr ⟨cache.drop key, .keep List.filter_sublist, rfl⟩
      · rename_i valid
        exact .inl ⟨entry, mem_of_found found, by simpa using valid, rfl⟩

theorem withRoom?_cases (cache : DecisionCache κ) (key : κ) :
    (cache.settings.capacity = some 0 ∧ cache.withRoom? key = none) ∨
    (cache.settings.capacity ≠ some 0 ∧ ∃ rest, Remains cache rest ∧
      cache.withRoom? key = some rest ∧
      (rest.entry? key).isSome = (cache.entry? key).isSome ∧
      ((cache.entry? key).isSome = false → ∀ capacity ∈ cache.settings.capacity,
        rest.size < capacity)) := by
  unfold withRoom?
  cases limit : cache.settings.capacity with
  | none => exact .inr ⟨by simp, cache, .refl cache, rfl, rfl, by simp⟩
  | some capacity =>
      simp only
      split
      · rename_i nothing
        exact .inl ⟨congrArg some nothing, rfl⟩
      · rename_i positive
        refine .inr ⟨by simpa using positive, ?_⟩
        split
        · rename_i present
          exact ⟨cache, .refl cache, rfl, rfl, by simp [present]⟩
        · rename_i absent
          have remains := Remains.makeRoom cache capacity
          refine ⟨_, remains, rfl, ?_, ?_⟩
          · have gone : DecisionCache.entry? (cache.makeRoom capacity) key = none := by
              rw [entry?_eq_none_iff]
              rw [Option.not_isSome_iff_eq_none, entry?_eq_none_iff] at absent
              exact fun member => absent ((remains.entries.map _).subset member)
            rw [gone]
            simpa using absent
          · intro _ limit same
            exact Option.some.inj same ▸ size_makeRoom_lt cache positive

/-- A set is in vain for want of capacity, or it stores, or it breaks off. Before that it makes room
    for a new key. -/
theorem set?_cases (cache : DecisionCache κ) (key : κ) (decision : Decision) :
    (cache.settings.capacity = some 0 ∧ cache.set? key decision = some cache) ∨
    (cache.settings.capacity ≠ some 0 ∧ cache.tellsDeadline = true ∧ ∃ rest, Remains cache rest ∧
      cache.set? key decision = some (rest.store key decision) ∧
      (rest.entry? key).isSome = (cache.entry? key).isSome ∧
      ((cache.entry? key).isSome = false → ∀ capacity ∈ cache.settings.capacity,
        rest.size < capacity)) ∨
    (cache.settings.capacity ≠ some 0 ∧ cache.tellsDeadline = false ∧ ∃ rest, Remains cache rest ∧
      cache.set? key decision = none ∧ cache.afterSet key decision = rest ∧
      (rest.entry? key).isSome = (cache.entry? key).isSome) := by
  rcases withRoom?_cases cache key with ⟨nothing, none⟩ | ⟨some, rest, remains, room, present, free⟩
  · exact .inl ⟨nothing, by simp [set?, none]⟩
  · have told := remains.tellsDeadline
    cases tells : cache.tellsDeadline with
    | true =>
        have stored : cache.set? key decision = Option.some (rest.store key decision) := by
          simp [set?, room, told, tells]
        exact .inr (.inl ⟨some, rfl, rest, remains, stored, present, free⟩)
    | false =>
        have broken : cache.set? key decision = none := by simp [set?, room, told, tells]
        exact .inr (.inr ⟨some, rfl, rest, remains, broken, by simp [afterSet, broken, room], present⟩)

omit [LawfulBEq κ] in
theorem afterSet_of_some {after : DecisionCache κ} (set : cache.set? key decision = some after) :
    cache.afterSet key decision = after := by simp [afterSet, set]

theorem size_store (distinct : cache.keys.Nodup) (key : κ) (decision : Decision) :
    (cache.store key decision).size =
      cache.size + if (cache.entry? key).isSome then 0 else 1 := by
  -- The entries of other keys stay, and no two entries have this one.
  have others : ((cache.entries.filter fun entry => !(entry.1 == key)).map (·.1)) =
      cache.keys.erase key := by
    rw [distinct.erase_eq_filter, keys, List.filter_map]
    rfl
  have length := congrArg List.length others
  rw [List.length_map] at length
  show (cache.entries.filter fun entry => !(entry.1 == key)).length + 1 = _
  rw [length]
  have whole : cache.keys.length = cache.size := by simp [keys, size]
  cases found : cache.entry? key with
  | none =>
      rw [List.erase_of_not_mem (entry?_eq_none_iff.mp found), whole]
      rfl
  | some entry =>
      have member : key ∈ cache.keys := List.mem_map_of_mem (f := (·.1)) (mem_of_found found)
      have some := List.length_pos_of_mem member
      rw [List.length_erase_of_mem member]
      simp only [Option.isSome_some, if_true]
      omega

namespace Follows

theorem get (follows : Follows last cache) (key : κ) : Follows last (cache.get key).2 := by
  rcases get_cases cache key with ⟨entry, _, _, eq⟩ | ⟨rest, remains, eq⟩
  · exact eq ▸ follows.congr rfl rfl rfl
  · exact eq ▸ (follows.remains remains).congr rfl rfl rfl

theorem store (follows : Follows last cache) (key : κ) (decision : Decision)
    (room : (cache.entry? key).isSome = false → ∀ capacity ∈ cache.settings.capacity,
      cache.size < capacity) :
    Follows (fun other => if other == key then some (decision, 0) else last other)
      (cache.store key decision) where
  distinct := by
    have others : ((cache.entries.filter fun entry => !(entry.1 == key)).map (·.1)).Nodup :=
      follows.distinct.sublist (List.filter_sublist.map _)
    refine List.nodup_cons.mpr ⟨?_, others⟩
    simp
  recorded entry member := by
    rcases List.mem_cons.mp member with rfl | member
    · exact ⟨cache.clock, 0, rfl, by simp, rfl⟩
    · obtain ⟨before, different⟩ := List.mem_filter.mp member
      obtain ⟨since, age, clock, set, deadline⟩ := follows.recorded entry before
      have different : ¬entry.1 = key := by simpa using different
      exact ⟨since, age, clock, by simpa [different] using set, deadline⟩
  bounded capacity limit := by
    rw [size_store follows.distinct]
    have before := follows.bounded capacity limit
    split
    · exact before
    · rename_i absent
      exact room (by simpa using absent) capacity limit

theorem set (follows : Follows last cache) (key : κ) (decision : Decision) :
    Follows (fun other => follow cache other (last other) (.set key decision))
      (cache.afterSet key decision) := by
  rcases set?_cases cache key decision with
    ⟨limit, set⟩ | ⟨_, _, rest, remains, set, present, room⟩ | ⟨_, _, rest, remains, set, after, _⟩
  -- Nothing is set, but then there is no entry either that would be out of date.
  · rw [afterSet_of_some set]
    have empty := follows.entries_eq_nil limit
    exact ⟨follows.distinct, by simp [empty], follows.bounded⟩
  · rw [afterSet_of_some set]
    simp only [follow, set, Option.isSome_some, Bool.and_true]
    refine (follows.remains remains).store key decision fun absent => ?_
    rw [remains.settings]
    exact room (present ▸ absent)
  · rw [after]
    simpa only [follow, set, Option.isSome_none, Bool.and_false, Bool.false_eq_true, if_false]
      using follows.remains remains

theorem step (follows : Follows last cache) (operation : CacheOperation κ) :
    Follows (fun key => follow cache key (last key) operation) (cache.step operation) := by
  cases operation with
  | get key => exact follows.get key
  | set key decision => exact follows.set key decision
  | clear => exact ⟨List.nodup_nil, by simp [DecisionCache.step, clear], fun _ _ => Nat.zero_le _⟩
  | cleanup => exact follows.remains (.cleanup cache)
  | elapse nanoseconds => exact follows.elapse nanoseconds
  | choose victim => exact follows.congr rfl rfl rfl

theorem run (follows : Follows last cache) (operations : List (CacheOperation κ)) :
    Follows (fun key => lastSet cache key (last key) operations) (cache.run operations) := by
  induction operations generalizing cache last with
  | nil => exact follows
  | cons operation rest ih => exact ih (follows.step operation)

end Follows

/-! ## What counts -/

theorem ages_get (cache : DecisionCache κ) (key : κ) : Ages 0 cache (cache.get key).2 := by
  rcases get_cases cache key with ⟨entry, _, _, eq⟩ | ⟨rest, remains, eq⟩
  · rw [eq]
    exact ⟨rfl, rfl, rfl⟩
  · rw [eq]
    exact ⟨remains.settings, remains.latest, remains.clock⟩

theorem ages_set (cache : DecisionCache κ) (key : κ) (decision : Decision) :
    Ages 0 cache (cache.set key decision) := by
  unfold DecisionCache.set
  rcases withRoom?_cases cache key with ⟨_, none⟩ | ⟨_, rest, remains, room, _⟩
  · rw [none]
    exact .of_remains (.refl cache)
  · rw [room]
    exact ⟨remains.settings, remains.latest, remains.clock⟩

omit [LawfulBEq κ] in
theorem set?_eq_some {after : DecisionCache κ} (set : cache.set? key decision = some after) :
    after = cache.set key decision := by
  unfold set? at set
  unfold DecisionCache.set
  cases room : cache.withRoom? key with
  | none =>
      rw [room] at set
      exact (Option.some.inj set).symm
  | some roomy =>
      rw [room] at set
      simp only [Option.ite_none_right_eq_some] at set
      exact (Option.some.inj set.2).symm

theorem ages_step (cache : DecisionCache κ) (operation : CacheOperation κ) :
    Ages (duration operation) cache (cache.step operation) := by
  cases operation with
  | get key => exact ages_get cache key
  | set key decision =>
      show Ages 0 cache (cache.afterSet key decision)
      rcases set?_cases cache key decision with
        ⟨_, set⟩ | ⟨_, _, _, _, set, _⟩ | ⟨_, _, rest, remains, _, after, _⟩
      · rw [afterSet_of_some set]
        exact .of_remains (.refl cache)
      · rw [afterSet_of_some set, set?_eq_some set]
        exact ages_set cache key decision
      · rw [after]
        exact .of_remains remains
  | clear | cleanup | elapse | choose => exact ⟨rfl, rfl, rfl⟩

theorem ages_run (cache : DecisionCache κ) (operations : List (CacheOperation κ)) :
    Ages (elapsed operations) cache (cache.run operations) := by
  induction operations generalizing cache with
  | nil => exact ⟨rfl, rfl, rfl⟩
  | cons operation rest ih => exact (ages_step cache operation).trans (ih _)

theorem lookups_step (cache : DecisionCache κ) (operation : CacheOperation κ) :
    (cache.step operation).hits + (cache.step operation).misses =
      cache.hits + cache.misses + if isGet operation then 1 else 0 := by
  cases operation with
  | get key =>
      rcases get_cases cache key with ⟨entry, _, _, eq⟩ | ⟨rest, remains, eq⟩
      · simp only [step, eq, isGet, if_true]
        omega
      · have before := remains.lookups
        simp only [step, eq, isGet, if_true]
        omega
  | set key decision =>
      rcases set?_cases cache key decision with
        ⟨_, set⟩ | ⟨_, _, rest, remains, set, _⟩ | ⟨_, _, rest, remains, _, after, _⟩
      · simp [step, afterSet_of_some set, isGet]
      · simp [step, afterSet_of_some set, store, remains.lookups, isGet]
      · simp [step, after, remains.lookups, isGet]
  | clear | cleanup | elapse | choose => rfl

theorem lookups_run (cache : DecisionCache κ) (operations : List (CacheOperation κ)) :
    (cache.run operations).hits + (cache.run operations).misses =
      cache.hits + cache.misses + operations.countP isGet := by
  induction operations generalizing cache with
  | nil => rfl
  | cons operation rest ih =>
      rw [run, List.foldl_cons]
      refine (ih (cache.step operation)).trans ?_
      rw [lookups_step, List.countP_cons]
      omega

theorem isSome_store (cache : DecisionCache κ) (key : κ) (decision : Decision) :
    (DecisionCache.entry? (cache.store key decision) key).isSome = true := by
  simp [ entry?, store]

/-- An entry that comes stays, or is counted when it goes. -/
theorem counted_step (distinct : cache.keys.Nodup) (operation : CacheOperation κ) :
    (cache.step operation).size + (cache.step operation).evictions + cleared cache operation =
      cache.size + cache.evictions + entered cache operation := by
  cases operation with
  | get key =>
      rcases get_cases cache key with ⟨entry, _, _, eq⟩ | ⟨rest, remains, eq⟩
      · simp [step, eq, cleared, entered, size]
      · simpa only [step, eq, cleared, entered, size, Nat.add_zero] using remains.counted
  | set key decision =>
      rcases set?_cases cache key decision with
        ⟨_, set⟩ | ⟨_, _, rest, remains, set, present, _⟩ | ⟨_, _, rest, remains, _, after, present⟩
      · have eq := afterSet_of_some set
        cases found : cache.entry? key <;> simp [step, eq, cleared, entered, found]
      · have eq := afterSet_of_some set
        have stored := size_store (distinct.sublist (remains.entries.map _)) key decision
        have counted := remains.counted
        have evictions : (rest.store key decision).evictions = rest.evictions := rfl
        rw [present] at stored
        simp only [step, cleared, entered, eq, isSome_store, stored, evictions]
        -- Room was made for a new key only, and what went for it has been counted.
        cases cache.entry? key with
        | none =>
            simp only [Option.isSome_none, Option.isNone_none, Bool.and_self, if_true,
              Bool.false_eq_true, if_false]
            omega
        | some entry =>
            simp only [Option.isSome_some, Option.isNone_some, Bool.false_and, Bool.false_eq_true,
              if_true, if_false]
            omega
      -- What has made room has been counted, and no key has come.
      · have none : entered cache (.set key decision) = 0 := by
          rw [entered, after, present]
          cases cache.entry? key <;> rfl
        simpa only [step, cleared, none, after, Nat.add_zero] using remains.counted
  | clear => simp [step, clear, cleared, entered, size, Nat.add_comm]
  | cleanup =>
      simpa only [step, cleared, entered, Nat.add_zero] using (Remains.cleanup cache).counted
  | elapse | choose => rfl

theorem counted_run (follows : Follows last cache) (operations : List (CacheOperation κ)) :
    (cache.run operations).size + (cache.run operations).evictions +
        total cleared cache operations =
      cache.size + cache.evictions + total entered cache operations := by
  induction operations generalizing cache last with
  | nil => rfl
  | cons operation rest ih =>
      have first := counted_step follows.distinct operation
      have others := ih (follows.step operation)
      simp only [total]
      rw [run, List.foldl_cons]
      rw [run] at others
      omega

/-! ## Bounded maps -/

theorem Follows.get_eq_some (follows : Follows last cache)
    (found : (cache.get key).1 = some decision) :
    cache.settings.capacity ≠ some 0 ∧ ∃ age, last key = some (decision, age) ∧
      ∀ lifetime ∈ cache.settings.lifetime?, age ≤ lifetime := by
  rcases get_cases cache key with ⟨entry, member, valid, eq⟩ | ⟨rest, _, eq⟩
  · rw [eq] at found
    obtain rfl := Option.some.inj found
    obtain ⟨since, age, clock, set, deadline⟩ := follows.recorded _ member
    refine ⟨fun nothing => ?_, age, set, fun lifetime limit => ?_⟩
    · rw [follows.entries_eq_nil nothing] at member
      simp at member
    · have deadline : entry.deadline = some (since + lifetime) := by
        rw [deadline, Option.mem_def.mp limit, Option.map_some]
      simp only [isExpired, deadline, decide_eq_false_iff_not] at valid
      omega
  · simp [eq] at found

theorem get_elapse_of_set {after : DecisionCache κ} (some : cache.settings.capacity ≠ some 0)
    (set : cache.set? key decision = Option.some after) {nanoseconds : Nat}
    (within : ∀ lifetime ∈ cache.settings.lifetime?, nanoseconds ≤ lifetime) :
    ((after.elapse nanoseconds).get key).1 = Option.some decision := by
  rcases set?_cases cache key decision with
    ⟨nothing, _⟩ | ⟨_, _, rest, remains, stored, _⟩ | ⟨_, _, _, _, broken, _⟩
  · exact absurd nothing some
  · obtain rfl := Option.some.inj (set.symm.trans stored)
    rw [← remains.settings] at within
    have found : DecisionCache.entry? ((rest.store key decision).elapse nanoseconds) key =
        Option.some ⟨decision, rest.deadline?⟩ := by
      simp [ entry?, store, DecisionCache.elapse]
    have valid : ((rest.store key decision).elapse nanoseconds).isExpired
        ⟨decision, rest.deadline?⟩ = false := by
      cases limit : rest.settings.lifetime? with
      | none => simp [isExpired, deadline?, limit]
      | some lifetime =>
          have short := within lifetime limit
          simp [isExpired, deadline?, limit, store, DecisionCache.elapse]
          omega
    simp only [DecisionCache.get, found, valid, Bool.false_eq_true, if_false]
  · rw [broken] at set
    cases set

omit [BEq κ] [LawfulBEq κ] in
theorem tellsDeadline_iff : cache.tellsDeadline = true ↔
    ∀ lifetime ∈ cache.settings.lifetime?, cache.clock + lifetime ≤ cache.latest := by
  unfold DecisionCache.tellsDeadline deadline?
  cases cache.settings.lifetime? <;> simp

/-- A set breaks off just where there is room and the deadline is too late for the clock. -/
theorem set?_eq_none_iff : cache.set? key decision = none ↔ ¬cache.Lasts 0 := by
  unfold Lasts
  rw [Nat.add_zero, ← tellsDeadline_iff]
  rcases set?_cases cache key decision with
    ⟨nothing, set⟩ | ⟨_, tells, _, _, set, _⟩ | ⟨some, tells, _, _, set, _⟩
  · simp [set, nothing]
  · simp [set, tells]
  · simp [set, tells, some]

/-- What a cache does after some operations on a fresh one. -/
structure Serves (fresh : DecisionCache κ) (operations : List (CacheOperation κ)) : Prop where
  /-- What is found was set last, since the last clear and at most a lifetime ago. -/
  found : ∀ key decision, ((fresh.run operations).get key).1 = some decision →
    fresh.settings.capacity ≠ some 0 ∧ ∃ age, lastSet fresh key none operations =
      some (decision, age) ∧ ∀ lifetime ∈ fresh.settings.lifetime?, age ≤ lifetime
  /-- What has just been set is found for a lifetime. -/
  kept : fresh.settings.capacity ≠ some 0 → ∀ key decision cache,
    (fresh.run operations).set? key decision = some cache → ∀ nanoseconds,
      (∀ lifetime ∈ fresh.settings.lifetime?, nanoseconds ≤ lifetime) →
        ((cache.elapse nanoseconds).get key).1 = some decision
  /-- A call to set something comes back, unless the clock cannot tell so late a deadline. -/
  returns : ∀ key decision, (∃ cache, (fresh.run operations).set? key decision = some cache) ↔
    fresh.Lasts (elapsed operations)
  bounded : ∀ capacity ∈ fresh.settings.capacity, (fresh.run operations).size ≤ capacity
  lookups : (fresh.run operations).hits + (fresh.run operations).misses = operations.countP isGet
  counted : total entered fresh operations =
    (fresh.run operations).size + (fresh.run operations).evictions + total cleared fresh operations

/-- As many seconds and nanoseconds as words can hold are too many. -/
example : ({ settings := { ttl := some 18446744073709551615999, ttlRest := 999999 } } :
    DecisionCache String).set? "alice" ⟨true, []⟩ = none := by decide

/-- Room for two decisions, for ten milliseconds. -/
def briefSettings : CacheSettings where
  ttl := some 10
  capacity := some 2

def brief : DecisionCache String := { settings := briefSettings, victim := fun _ => 0, clock := 7 }

/-- Three decisions in a row and one that replaces another, over the lifetime of the first ones. -/
def rush : List (CacheOperation String) :=
  [.set "alice" ⟨true, []⟩, .set "bob" ⟨true, []⟩, .get "alice", .set "carol" ⟨false, []⟩,
    .elapse 6000000, .set "carol" ⟨true, []⟩, .elapse 6000000, .get "carol", .get "alice", .cleanup,
    .clear]

end DecisionCache

end AccessControl

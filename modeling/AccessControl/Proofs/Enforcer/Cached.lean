import AccessControl.Proofs.Enforcer.Served

/-! # Runs with a cache and runs without one

Two enforcers that differ in what they remember only stay so in every run, and answer alike, as
long as nothing that they remember is wrong. An enforcer with a cache and one without are such a
pair from the beginning. The one with a cache may break off earlier, but only where it would have to
keep a decision for longer than the clock of the cache can tell.
-/

namespace AccessControl.Enforcer

variable {σ κ : Type}

/-! ## Decisions that break off -/

/-- If there is a cache, then it lasts for some time. -/
def Lasts (time : Nat) (e : Enforcer σ κ) : Prop := ∀ cache ∈ e.cache, cache.Lasts time

theorem Lasts.mono {time time' : Nat} {e : Enforcer σ κ} (lasts : e.Lasts time)
    (less : time' ≤ time) : e.Lasts time' :=
  fun cache present => (lasts cache present).mono less

theorem Lasts.later {passed time : Nat} {e e' : Enforcer σ κ} (lasts : e.Lasts (passed + time))
    (ages : Ages passed e e') : e'.Lasts time := by
  intro cache' present'
  obtain ⟨cache, present, passed', most, aged⟩ := ages cache' present'
  exact aged.lasts_iff.mpr ((lasts cache present).mono (Nat.add_le_add_right most time))

section

variable [BEq κ]

/-- A query is not answered from the cache, and its decision would be kept there for longer than the
    clock can tell. -/
def Overstays (e : Enforcer σ κ) (query : Query) : Prop :=
  e.served? query = none ∧
    (∃ decision, (e.evaluate query.context query.given query.request).1 = .ok decision) ∧
    ∃ cache ∈ e.cache, ¬cache.Lasts 1

variable [LawfulBEq κ] {e : Enforcer σ κ} {cache rest : DecisionCache κ} {key : κ}
  {outcome : Except Error Decision × Enforcer σ κ}

omit [LawfulBEq κ] in
theorem Lasts.not_overstays (lasts : e.Lasts 1) (query : Query) : ¬e.Overstays query :=
  fun ⟨_, _, cache, present, short⟩ => short (lasts cache present)

theorem ages_lookUp {found : Option Decision} (looked : (cache.elapse 1).get key = (found, rest)) :
    cache.Ages 1 rest := by
  have elapsed : cache.Ages 1 (cache.elapse 1) := ⟨rfl, rfl, rfl⟩
  have ages := DecisionCache.ages_get (cache.elapse 1) key
  rw [looked] at ages
  exact elapsed.trans ages

/-- A decision breaks off just where it would stay for too long. -/
theorem decideEnabled?_eq_none_iff (query : Query) :
    e.decideEnabled? query.context query.given query.request = none ↔ e.Overstays query := by
  unfold Overstays served?
  cases present : e.cache with
  | none => simp [decideEnabled?_uncached present]
  | some cache =>
      rw [Option.bind_some]
      rcases decideEnabled_cases present query with ⟨decision, rest, found, _, decided?⟩ |
        ⟨rest, missing, ⟨error, after, judged, _, decided?⟩ | ⟨decision, after, judged, _, decided?⟩⟩
      · simp [decided?, found]
      · rw [decided?, ← evaluate_cache e (some rest), judged]
        simp
      · rw [decided?, missing, ← evaluate_cache e (some rest), judged, Option.map_eq_none_iff,
          DecisionCache.set?_eq_none_iff, (ages_lookUp missing).lasts_iff]
        simp

omit [LawfulBEq κ] in
theorem decideEnabled?_eq_some (query : Query)
    (decided : e.decideEnabled? query.context query.given query.request = some outcome) :
    outcome = e.decideEnabled query.context query.given query.request := by
  cases present : e.cache with
  | none =>
      rw [decideEnabled?_uncached present] at decided
      rw [decideEnabled_uncached present, Option.some.inj decided]
  | some cache =>
      rcases decideEnabled_cases present query with ⟨_, rest, _, _, decided?⟩ |
        ⟨rest, _, ⟨_, _, _, _, decided?⟩ | ⟨decision, after, _, whole, decided?⟩⟩
      · exact (Option.some.inj (decided?.symm.trans decided)).symm
      · exact (Option.some.inj (decided?.symm.trans decided)).symm
      · obtain ⟨cache, set, rfl⟩ := Option.map_eq_some_iff.mp (decided?.symm.trans decided)
        rw [whole, DecisionCache.set?_eq_some set]

theorem Lasts.decideEnabled? (lasts : e.Lasts 1) (query : Query) :
    e.decideEnabled? query.context query.given query.request =
      some (e.decideEnabled query.context query.given query.request) := by
  cases decided : e.decideEnabled? query.context query.given query.request with
  | none => exact absurd ((decideEnabled?_eq_none_iff query).mp decided) (lasts.not_overstays query)
  | some outcome => rw [decideEnabled?_eq_some query decided]

theorem decide?_eq_none_iff (query : Query) :
    e.decide? query.context query.given query.request = none ↔
      e.enabled = true ∧ e.Overstays query := by
  unfold Enforcer.decide?
  cases e.enabled with
  | false => simp
  | true => simp [decideEnabled?_eq_none_iff]

omit [LawfulBEq κ] in
theorem decide?_eq_some (query : Query)
    (decided : e.decide? query.context query.given query.request = some outcome) :
    outcome = e.decide query.context query.given query.request := by
  unfold Enforcer.decide? at decided
  unfold Enforcer.decide
  split at decided
  · rename_i enabled
    rw [if_pos enabled, decideEnabled?_eq_some query decided]
  · rename_i disabled
    rw [if_neg disabled, Option.some.inj decided]

theorem ages_decideEnabled (e : Enforcer σ κ) (query : Query) :
    Ages 1 e (e.decideEnabled query.context query.given query.request).2 := by
  cases present : e.cache with
  | none =>
      rw [decideEnabled_uncached present]
      intro cache' present'
      simp [(sheds_evaluate e query).uncached present] at present'
  | some cache =>
      rcases decideEnabled_cases present query with ⟨decision, rest, found, decided, _⟩ |
        ⟨rest, missing, ⟨error, after, judged, decided, _⟩ | ⟨decision, after, _, decided, _⟩⟩
      · rw [decided]
        intro cache' present'
        obtain rfl := Option.some.inj present'
        exact ⟨cache, present, 1, Nat.le_refl 1, ages_lookUp found⟩
      · have looked : Ages 1 e { e with cache := some rest } := fun cache' present' =>
          ⟨cache, present, 1, Nat.le_refl 1, Option.some.inj present' ▸ ages_lookUp missing⟩
        have sheds := sheds_evaluate { e with cache := some rest } query
        rw [judged] at sheds
        rw [decided]
        exact looked.trans sheds.ages
      · rw [decided]
        intro cache' present'
        obtain rfl := Option.some.inj present'
        exact ⟨cache, present, 1, Nat.le_refl 1,
          (ages_lookUp missing).trans (DecisionCache.ages_set rest _ decision)⟩

theorem ages_decide (e : Enforcer σ κ) (query : Query) :
    Ages 1 e (e.decide query.context query.given query.request).2 := by
  unfold Enforcer.decide
  split
  · exact ages_decideEnabled e query
  · exact .still rfl

end

/-! ## Operations that break off -/

section

variable [PolicyStore σ] {e e' : Enforcer σ κ}

theorem change?_eq_some {s : RowSection} {type : String} {change : RowChange}
    {outcome : Except Error Bool × Enforcer σ κ} (made : e.change? s type change = some outcome) :
    outcome = e.change s type change := by
  unfold Enforcer.change? at made
  unfold Enforcer.change
  cases access : e.access with
  | error error =>
      rw [access] at made
      exact (Option.some.inj made).symm
  | ok _ =>
      rw [access] at made
      simp only [RowChange.testing_eq_map change _ (e.applyChange s type change)] at made
      obtain ⟨_, _, rfl⟩ := Option.map_eq_some_iff.mp made
      rfl

theorem change?_eq_none_congr (same : e.forget = e'.forget) {s : RowSection} {type : String}
    {change : RowChange} : e.change? s type change = none ↔ e'.change? s type change = none := by
  have access : e.access = e'.access := by rw [← forget_access, same, forget_access]
  have models : e.model.forget = e'.model.forget := congrArg Enforcer.model same
  have rows : e.model.rows s.key type = e'.model.rows s.key type := by
    rw [← e.model.sameTables_forget.rows_key, models, e'.model.sameTables_forget.rows_key]
  unfold Enforcer.change?
  rw [access, rows]
  cases e'.access with
  | error error => simp
  | ok _ =>
      simp only
      rw [RowChange.testing_eq_map, Option.map_eq_none_iff,
        RowChange.testing_eq_map change _ (e'.applyChange s type change), Option.map_eq_none_iff]

variable [BEq κ]

theorem step?_eq_some {operation : Operation} {outcome : Answer × Enforcer σ κ}
    (stepped : e.step? operation = some outcome) : outcome = e.step operation := by
  cases operation with
  | mutate mutation =>
      cases mutation with
      | rows s type change =>
          obtain ⟨_, made, rfl⟩ := Option.map_eq_some_iff.mp stepped
          rw [change?_eq_some made]
          rfl
      | _ => exact (Option.some.inj stepped).symm
  | decide context given request =>
      obtain ⟨_, decided, rfl⟩ := Option.map_eq_some_iff.mp stepped
      rw [decide?_eq_some { context, given, request } decided]
      rfl
  | _ => exact (Option.some.inj stepped).symm

theorem answers_cons {operation : Operation} {rest : List Operation}
    {outcome : Answer × Enforcer σ κ} (stepped : e.step? operation = some outcome) :
    e.answers (operation :: rest) = (e.step operation).1 :: (e.step operation).2.answers rest := by
  rw [← step?_eq_some stepped, answers, stepped]

variable [LawfulBEq κ]

/-- If one of two enforcers that differ in what they remember only breaks off and the other one does
    not, then by a decision that overstays. -/
theorem overstays_of_step? (same : e.forget = e'.forget) {operation : Operation}
    (broken : e.step? operation = none) (goes : e'.step? operation ≠ none) :
    ∃ query : Query, operation = .decide query.context query.given query.request ∧
      e.enabled = true ∧ e.Overstays query := by
  cases operation with
  | mutate mutation =>
      cases mutation with
      | rows s type change =>
          have broken' := (change?_eq_none_congr same).mp (Option.map_eq_none_iff.mp broken)
          exact absurd (Option.map_eq_none_iff.mpr broken') goes
      | _ => cases broken
  | decide context given request =>
      have broken := Option.map_eq_none_iff.mp broken
      exact ⟨_, rfl, (decide?_eq_none_iff { context, given, request }).mp broken⟩
  | _ => cases broken

theorem ages_step (e : Enforcer σ κ) (operation : Operation) :
    Ages operation.duration e (e.step operation).2 := by
  cases asks : operation.query? with
  | none => exact (sheds_step e asks).ages
  | some query =>
      cases operation with
      | decide context given request => exact ages_decide e { context, given, request }
      | _ => simp [Operation.query?] at asks

theorem ages_run (e : Enforcer σ κ) (operations : List Operation) :
    Ages (elapsed operations) e (e.run operations).2 := by
  induction operations generalizing e with
  | nil => exact .still rfl
  | cons operation rest ih => exact (ages_step e operation).trans (ih _)

/-- After some operations of a run, a decision overstays. -/
def Overruns (e : Enforcer σ κ) (operations before : List Operation) : Prop :=
  ∃ query : Query, ∃ after, operations =
      before ++ .decide query.context query.given query.request :: after ∧
    (e.run before).2.enabled = true ∧ (e.run before).2.Overstays query

theorem Lasts.not_overruns {operations before : List Operation}
    (lasts : e.Lasts (elapsed operations)) : ¬e.Overruns operations before := by
  rintro ⟨query, after, rfl, _, overstays⟩
  rw [elapsed_append] at lasts
  have later := lasts.later (ages_run e before)
  exact (later.mono (Nat.le_add_right 1 (elapsed after))).not_overstays query overstays

end

variable [PolicyStore σ]

/-! ## Enforcers whose memory stays right -/

/-- What an enforcer remembers is right, and will stay so while no other queries are decided. -/
structure Coherent (asked : List Query) (e : Enforcer σ κ) : Prop where
  sound : e.Sound asked
  clean : e.settings.autoCleanCache = true
  quiet : PolicyStore.ClearsQuietly e.store
  distinguishes : e.Distinguishes asked

variable {asked : List Query} {e e' : Enforcer σ κ}

theorem Coherent.keep {rules : Bool} (coherent : e.Coherent asked) (kept : Keeps e e')
    (moved : Moved rules e e') : e'.Coherent asked :=
  ⟨coherent.sound.keep kept moved, moved.settings ▸ coherent.clean,
    fun store later => coherent.quiet store (kept.store.trans later),
    coherent.distinguishes.congr kept.digest⟩

theorem Coherent.remembered (coherent : e.Coherent asked) (same : e'.forget = e.forget)
    (sound : e'.Sound asked) : e'.Coherent asked := by
  have settings : e'.forget.settings = e.forget.settings := congrArg Enforcer.settings same
  have store : e'.forget.store = e.forget.store := congrArg Enforcer.store same
  simp only [forget_settings, forget_store] at settings store
  exact ⟨sound, settings ▸ coherent.clean, store ▸ coherent.quiet,
    coherent.distinguishes.congr (digest_of_forget same)⟩

variable [BEq κ] [LawfulBEq κ]

theorem Coherent.step (coherent : e.Coherent asked) {operation : Operation}
    (asks : ∀ query, operation.query? = some query → query ∈ asked) :
    (e.step operation).2.Coherent asked := by
  have sound := coherent.sound
  cases decides : operation.query? with
  | none =>
      exact coherent.keep (keeps_step sound.model coherent.clean coherent.quiet decides)
        (moved_step sound.model operation)
  | some query =>
      cases operation with
      | decide context given request =>
          have decided := sound.decide coherent.distinguishes
            (asks { context, given, request } rfl)
          exact coherent.remembered (congrArg Prod.snd decided.1) decided.2
      | _ => simp [Operation.query?] at decides

/-- Enforcers that differ in what they remember only do the same. -/
theorem Coherent.lost_step (coherent : e.Coherent asked) (coherent' : e'.Coherent asked)
    (same : e.forget = e'.forget) {operation : Operation}
    (asks : ∀ query, operation.query? = some query → query ∈ asked) :
    lost (e.step operation) = lost (e'.step operation) := by
  have sound := coherent.sound
  have sound' := coherent'.sound
  cases decides : operation.query? with
  | none =>
      rw [← Enforcer.lost_step sound.model sound.roles decides, same,
        Enforcer.lost_step sound'.model sound'.roles decides]
  | some query =>
      cases operation with
      | decide context given request =>
          have member := asks { context, given, request } rfl
          have decided := (sound.decide coherent.distinguishes member).1
          have decided' := (sound'.decide coherent'.distinguishes member).1
          have alike : lost (e.decide context given request) =
              lost (e'.decide context given request) := by
            rw [decided, decided', answer_of_forget same, same]
          exact lost_map Answer.decided alike
      | _ => simp [Operation.query?] at decides

omit [PolicyStore σ] [BEq κ] [LawfulBEq κ] in
theorem asks_of_cons {operation : Operation} {rest : List Operation}
    (asks : queries (operation :: rest) ⊆ asked) :
    (∀ query, operation.query? = some query → query ∈ asked) ∧ queries rest ⊆ asked :=
  ⟨fun _ decides => asks (List.mem_filterMap.mpr ⟨operation, List.mem_cons_self, decides⟩),
    fun _ member => asks (List.filterMap_subset _ (List.subset_cons_self operation rest) member)⟩

theorem Coherent.run (coherent : e.Coherent asked) {operations : List Operation}
    (asks : queries operations ⊆ asked) : (e.run operations).2.Coherent asked := by
  induction operations generalizing e with
  | nil => exact coherent
  | cons operation rest ih =>
      obtain ⟨first, others⟩ := asks_of_cons asks
      exact ih (coherent.step first) others

/-- Of two enforcers that differ in what they remember only, and one of which has a cache that lasts,
    the other one answers the same, as long as no decision overstays. -/
theorem Coherent.answers_eq (coherent : e.Coherent asked) (coherent' : e'.Coherent asked)
    (same : e.forget = e'.forget) {operations : List Operation}
    (asks : queries operations ⊆ asked) (lasts : e'.Lasts (elapsed operations)) :
    e.answers operations = e'.answers operations ∨
      ∃ before, e.Overruns operations before ∧ e.answers operations = e'.answers before := by
  induction operations generalizing e e' with
  | nil => exact .inl rfl
  | cons operation rest ih =>
      unfold elapsed at lasts
      have now := lasts.mono (Nat.le_add_right operation.duration (elapsed rest))
      cases stepped : e.step? operation with
      | none =>
          cases stepped' : e'.step? operation with
          | none => exact .inl (by rw [answers, answers, stepped, stepped'])
          | some outcome =>
              obtain ⟨query, rfl, overstays⟩ := overstays_of_step? same stepped (by simp [stepped'])
              exact .inr ⟨[], ⟨query, rest, rfl, overstays⟩, by rw [answers, answers, stepped]⟩
      | some outcome =>
          have goes : e'.step? operation ≠ none := by
            intro broken'
            obtain ⟨query, rfl, _, overstays⟩ :=
              overstays_of_step? same.symm broken' (by simp [stepped])
            exact now.not_overstays query overstays
          obtain ⟨outcome', stepped'⟩ := Option.ne_none_iff_exists'.mp goes
          obtain ⟨first, others⟩ := asks_of_cons asks
          obtain ⟨answer, states⟩ := Prod.mk.inj (coherent.lost_step coherent' same first)
          have later := lasts.later (ages_step e' operation)
          rw [answers_cons stepped, answers_cons stepped', answer]
          rcases ih (coherent.step first) (coherent'.step first) states others later with
            alike | ⟨before, ⟨query, after, rfl, overstays⟩, alike⟩
          · exact .inl (congrArg _ alike)
          · refine .inr ⟨operation :: before, ⟨query, after, rfl, overstays⟩, ?_⟩
            rw [answers_cons stepped', alike]

/-! ## Setting up -/

omit [PolicyStore σ] [BEq κ] [LawfulBEq κ] in
theorem regular_of_resetManagers {model model' : Model} (h : model.WellFormed) {maxLevel : Nat}
    (reset : Setup.resetManagers maxLevel model (model.types .role) = .ok model') :
    model'.Regular := by
  have each : model.EachRole fun _ _ => True := fun _ _ _ => trivial
  have renewed := each.modifyAll (·.linkedIn (.empty .indexed maxLevel))
    (Q := fun _ role => role.manager.Regular) fun _ role _ =>
      ⟨trivial, RoleType.regular_buildLinks { role with manager := .empty .indexed maxLevel }⟩
  rw [resetManagers_eq h reset] at renewed
  exact fun type role declared => (renewed type role declared).2

omit [PolicyStore σ] [BEq κ] [LawfulBEq κ] in
theorem MatchersSound.compilePlain (sound : e.MatchersSound)
    (plain : Setup.compilePlain e = .ok e') : e'.MatchersSound := by
  unfold Setup.compilePlain at plain
  split at plain
  · obtain ⟨matcher, found, settled⟩ := Except.bind_eq_ok_iff.mp plain
    obtain rfl := Except.ok.inj settled
    obtain ⟨same, kept⟩ := sound.matcher .plain none
    rw [found, compile_eq] at same
    exact Memo.Sound.insert sound ⟨same.symm, kept matcher found⟩
  · obtain rfl := Except.ok.inj plain
    exact sound

omit [BEq κ] [LawfulBEq κ] in
/-- What an enforcer remembers is right when it has been set up. Whatever its cache holds at first
    is dropped when the rows are loaded. -/
theorem coherent_build (setup : Setup σ κ) (prepared : setup.model.Prepared)
    (clean : setup.settings.autoCleanCache = true)
    (quiet : PolicyStore.ClearsQuietly setup.store)
    (distinguishes : ∀ query ∈ asked, ∀ query' ∈ asked,
      setup.digest query.key.toBytes = setup.digest query'.key.toBytes → query = query')
    (built : setup.build = .ok e) : e.Coherent asked := by
  obtain ⟨_, model, matchers, reset, plain, loaded⟩ := build_eq_ok_iff.mp built
  have well := resetManagers_wellFormed prepared.wellFormed reset
  have fresh : (setup.initial model).MatchersSound := fun _ member => by
    simp [Setup.initial] at member
  have compiled := fresh.compilePlain plain
  have moved := moved_loadPolicy (e := { setup.initial model with matchers }) well
  have kept := keeps_loadPolicy (e := { setup.initial model with matchers }) well
  have dropped := cached_loadPolicy (e := { setup.initial model with matchers }) loaded
  rw [loaded] at moved kept
  refine ⟨⟨moved.wellFormed well, ?_, compiled.keep well kept moved, by simp [dropped]⟩, ?_,
    fun store later => quiet store (kept.store.trans later), ?_⟩
  · exact moved.move.regular well (regular_of_resetManagers prepared.wellFormed reset)
  · exact moved.settings ▸ clean
  · unfold Distinguishes
    rw [kept.digest]
    exact distinguishes

omit [PolicyStore σ] [BEq κ] [LawfulBEq κ] in
theorem compilePlain_uncached (e : Enforcer σ κ) :
    Setup.compilePlain { e with cache := none } =
      (Setup.compilePlain e).map fun e => { e with cache := none } := by
  unfold Setup.compilePlain
  have same : Enforcer.matcher { e with cache := none } .plain none = e.matcher .plain none := rfl
  simp only [same]
  split
  · cases e.matcher .plain none <;> rfl
  · rfl

omit [BEq κ] [LawfulBEq κ] in
/-- An enforcer can be set up without a cache if it can with one, and differs in that only. -/
theorem build_uncached {setup : Setup σ κ} (prepared : setup.model.Prepared)
    (built : setup.build = .ok e) :
    ∃ e', { setup with cache := none }.build = .ok e' ∧ e.forget = e'.forget := by
  obtain ⟨checked, model, matchers, reset, plain, loaded⟩ := build_eq_ok_iff.mp built
  have well := resetManagers_wellFormed prepared.wellFormed reset
  have plain' := compilePlain_uncached (setup.initial model)
  have alike : lost { setup.initial model with matchers }.loadPolicy =
      lost { Setup.initial { setup with cache := none } model with matchers }.loadPolicy :=
    lost_of_forget_eq (·.loadPolicy) lost_loadPolicy rfl well
  rw [plain] at plain'
  rw [loaded] at alike
  obtain ⟨answer, states⟩ := Prod.mk.inj alike
  generalize loaded' : { Setup.initial { setup with cache := none } model with
    matchers }.loadPolicy = outcome at answer states
  obtain ⟨_, e'⟩ := outcome
  obtain rfl := answer
  exact ⟨e', build_eq_ok_iff.mpr ⟨checked, model, matchers, reset, plain', loaded'⟩, states⟩

omit [BEq κ] [LawfulBEq κ] in
theorem lasts_build {setup : Setup σ κ} (built : setup.build = .ok e) {time : Nat}
    (lasts : ∀ cache ∈ setup.cache, cache.Lasts time) : e.Lasts time := by
  obtain ⟨_, model, matchers, _, _, loaded⟩ := build_eq_ok_iff.mp built
  have sheds := sheds_loadPolicy { setup.initial model with matchers }
  rw [loaded] at sheds
  have initial : Lasts (0 + time) { setup.initial model with matchers } := by
    rw [Nat.zero_add]
    exact lasts
  exact initial.later sheds.ages

/-- A guest list with a cache whose entries live for a second. -/
def cachedGuests : Setup MemoryStore Fingerprint :=
  { model := .guestList
    store := {}
    digest := Fingerprint.ofBytes
    cache := some { settings := { ttl := some 1000 } } }

/-- Alice is at the door. -/
def aliceAsks : Query := { context := .plain, given := none, request := [.str "alice"] }

/-- Alice comes twice while she is on the list, and once when she no longer is. -/
def revocation : List Operation :=
  let asks := Operation.decide aliceAsks.context aliceAsks.given aliceAsks.request
  [.mutate (.rows .policy "p" (.add ["alice"])), asks, asks,
    .mutate (.rows .policy "p" (.remove ["alice"])), asks]

/-- Whether an answer lets somebody in. -/
def letsIn : Answer → Bool
  | .decided (.ok decision) => decision.allowed
  | _ => false

/-- With entries that live for as many seconds as a word can hold, nobody is let in: the first decision
    breaks off. -/
example :
    let settings : CacheSettings := { ttl := some ((UInt64.size - 1) * 1000) }
    let forever : Setup MemoryStore Fingerprint := { cachedGuests with cache := some { settings } }
    (forever.enforcer.answers revocation).map letsIn = [false] := by decide +kernel

end AccessControl.Enforcer

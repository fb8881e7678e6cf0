import AccessControl.Proofs.Decision.Cache
import AccessControl.Proofs.Decision.Fingerprint
import AccessControl.Proofs.Enforcer.Forget
import AccessControl.Proofs.Enforcer.Keeping
import AccessControl.Proofs.Matcher.Remembered

/-! # What decisions depend on

The decision of a query depends on the functions and on the model, but not on what is remembered. So
an enforcer that remembers nothing wrong decides as one that remembers nothing.
-/

namespace AccessControl

/-- What the cache key of a query is made from. -/
def Query.key (query : Query) : DecisionKey :=
  { context := query.context.parts, request := query.request, matcher := query.given }

theorem Query.key_inj {query query' : Query} (fits : query.key.fits) (fits' : query'.key.fits)
    (same : query.key.toBytes = query'.key.toBytes) : query = query' := by
  have keys := DecisionKey.toBytes_inj fits fits' rfl same
  obtain ⟨⟨requestType, policyType, effectType, matcherType⟩, given, request⟩ := query
  obtain ⟨⟨requestType', policyType', effectType', matcherType'⟩, given', request'⟩ := query'
  simp only [Query.key, Context.parts, DecisionKey.mk.injEq, List.cons.injEq, and_true] at keys
  obtain ⟨⟨rfl, rfl, rfl, rfl⟩, rfl, rfl⟩ := keys
  rfl

namespace Enforcer

variable {σ κ : Type}

/-! ## Compiled matchers -/

/-- The text of a matcher. -/
def textOf (e : Enforcer σ κ) : MatcherSource → Except Error String
  | .given text => .ok text
  | .declared type => e.model.matcher type

/-- Compile what a matcher is remembered under. -/
def compileKey (e : Enforcer σ κ) (key : MatcherKey) : Except Error Matcher := do
  let text ← e.textOf key.source
  let scope ← e.model.scope key.requestType key.policyType
  Matcher.compile { scope with functions := e.functions } text

theorem compile_eq (e : Enforcer σ κ) (context : Context) (given : Option String) :
    e.compile context given = e.compileKey (matcherKey context given) := by
  cases given <;> rfl

theorem compileKey_congr {e e' : Enforcer σ κ}
    (declarations : Model.SameDeclarations e.model e'.model)
    (functions : e'.functions = e.functions) : e'.compileKey = e.compileKey := by
  have texts : e'.textOf = e.textOf := by
    funext source
    cases source with
    | given text => rfl
    | declared type => exact declarations.matcher type
  funext key
  simp only [compileKey, texts, declarations.scope, functions]

/-- Every remembered matcher is what its key is compiled to, and remembers nothing wrong itself. -/
def MatchersSound (e : Enforcer σ κ) : Prop :=
  e.matchers.Sound fun key matcher => e.compileKey key = .ok matcher.forget ∧ matcher.Sound

/-- A matcher from memory is the compiled one, but for the rules that it has resolved. -/
theorem MatchersSound.matcher {e : Enforcer σ κ} (sound : e.MatchersSound) (context : Context)
    (given : Option String) :
    (e.matcher context given).map Matcher.forget = e.compile context given ∧
      ∀ matcher, e.matcher context given = .ok matcher → matcher.Sound := by
  unfold Enforcer.matcher
  cases found : e.matchers.get? (matcherKey context given) with
  | some matcher =>
      obtain ⟨compiled, kept⟩ := Memo.Sound.get? sound found
      rw [e.compile_eq, compiled]
      exact ⟨rfl, fun _ same => Except.ok.inj same ▸ kept⟩
  | none =>
      simp only [compile_eq]
      cases compiled : e.compileKey (matcherKey context given) with
      | error error => exact ⟨rfl, by simp⟩
      | ok matcher =>
          unfold compileKey at compiled
          obtain ⟨_, _, rest⟩ := Except.bind_eq_ok_iff.mp compiled
          obtain ⟨_, _, settled⟩ := Except.bind_eq_ok_iff.mp rest
          have fresh := Matcher.forget_of_compile settled
          refine ⟨congrArg Except.ok fresh, fun _ same => ?_⟩
          obtain rfl := Except.ok.inj same
          exact fresh ▸ matcher.sound_forget

/-! ## Decisions -/

/-- Decide a query on the rows, without anything from memory. -/
def judge (e : Enforcer σ κ) (query : Query) : Except Error Decision := do
  let matcher ← e.compile query.context query.given
  (e.model.forget.evaluate query.context matcher query.request).result

/-- Decisions depend on the functions, and on the model but for what it remembers. -/
theorem judge_congr {e e' : Enforcer σ κ} (functions : e'.functions = e.functions)
    (model : e'.model.forget = e.model.forget) : e'.judge = e.judge := by
  have declarations : Model.SameDeclarations e.model e'.model :=
    e.model.declarations_forget.trans (model ▸ e'.model.declarations_forget.symm)
  funext query
  unfold judge
  rw [compile_eq, compile_eq, compileKey_congr declarations functions, model]

/-- A decision is that of one of the queries that have been asked. -/
def Answers (e : Enforcer σ κ) (asked : List Query) (key : κ) (decision : Decision) : Prop :=
  ∃ query ∈ asked, e.digest query.key.toBytes = key ∧ e.judge query = .ok decision

theorem digest_of_forget {e e' : Enforcer σ κ} (same : e'.forget = e.forget) :
    e'.digest = e.digest :=
  show e'.forget.digest = e.forget.digest from congrArg Enforcer.digest same

theorem enabled_of_forget {e e' : Enforcer σ κ} (same : e'.forget = e.forget) :
    e'.enabled = e.enabled :=
  show e'.forget.enabled = e.forget.enabled from congrArg Enforcer.enabled same

theorem judge_of_forget {e e' : Enforcer σ κ} (same : e'.forget = e.forget) :
    e'.judge = e.judge := by
  have functions : e'.forget.functions = e.forget.functions := congrArg Enforcer.functions same
  have model : e'.forget.model = e.forget.model := congrArg Enforcer.model same
  exact judge_congr functions model

theorem answers_of_forget {e e' : Enforcer σ κ} (same : e'.forget = e.forget) :
    e'.Answers = e.Answers := by
  unfold Answers
  rw [judge_of_forget same, digest_of_forget same]

/-- Nothing that is remembered is wrong. -/
structure Sound (asked : List Query) (e : Enforcer σ κ) : Prop where
  model : e.model.WellFormed
  roles : e.model.Regular
  matchers : e.MatchersSound
  decisions : ∀ entry ∈ e.cached, e.Answers asked entry.1 entry.2.decision

theorem MatchersSound.keep [PolicyStore σ] {e e' : Enforcer σ κ} {rules : Bool}
    (sound : e.MatchersSound) (h : e.model.WellFormed) (kept : Keeps e e')
    (moved : Moved rules e e') : e'.MatchersSound := by
  unfold MatchersSound
  rcases kept.matchers with cleared | ⟨same, functions⟩
  · rw [cleared]
    exact .clear _ _
  · rw [same, compileKey_congr (moved.move.declarations h) functions]
    exact sound

theorem Sound.keep [PolicyStore σ] {asked : List Query} {e e' : Enforcer σ κ} {rules : Bool}
    (sound : e.Sound asked) (kept : Keeps e e') (moved : Moved rules e e') : e'.Sound asked := by
  refine ⟨moved.wellFormed sound.model, moved.move.regular sound.model sound.roles,
    sound.matchers.keep sound.model kept moved, ?_⟩
  rcases kept.decisions with cleared | ⟨same, functions, model⟩
  · simp [cleared]
  · unfold Answers
    rw [same, judge_congr functions model, kept.digest]
    exact sound.decisions

theorem forget_remember (e : Enforcer σ κ) (key : MatcherKey) (matcher : Matcher)
    (events : List Event) : (e.remember key matcher events).forget = e.forget := by
  simp only [forget, remember, Model.remember_forget, Memo.clear_insert]

theorem Sound.remember {asked : List Query} {e : Enforcer σ κ} (sound : e.Sound asked)
    {key : MatcherKey} {matcher : Matcher} (compiled : e.compileKey key = .ok matcher.forget)
    (kept : matcher.Sound) (events : List Event) : (e.remember key matcher events).Sound asked := by
  have declarations := Model.declarations_remember e.model events
  obtain ⟨kept', same⟩ := kept.remember events
  refine ⟨(Model.tables_remember e.model events).wellFormed sound.model,
    sound.roles.remember events, ?_, ?_⟩
  · have compiles : (e.remember key matcher events).compileKey = e.compileKey :=
      compileKey_congr declarations rfl
    unfold MatchersSound
    rw [compiles]
    exact Memo.Sound.insert sound.matchers ⟨same ▸ compiled, kept'⟩
  · have judges : (e.remember key matcher events).judge = e.judge :=
      judge_congr rfl (Model.remember_forget e.model events)
    unfold Answers
    rw [judges]
    exact sound.decisions

/-- An evaluation decides rightly, and leaves nothing wrong behind. -/
theorem Sound.evaluate {asked : List Query} {e : Enforcer σ κ} (sound : e.Sound asked)
    (query : Query) :
    lost (e.evaluate query.context query.given query.request) = (e.judge query, e.forget) ∧
      (e.evaluate query.context query.given query.request).2.Sound asked := by
  unfold Enforcer.evaluate judge
  obtain ⟨same, kept⟩ := sound.matchers.matcher query.context query.given
  cases found : e.matcher query.context query.given with
  | error error =>
      rw [found] at same
      rw [← same]
      exact ⟨rfl, sound⟩
  | ok matcher =>
      rw [found] at same
      have compiled : e.compileKey (matcherKey query.context query.given) = .ok matcher.forget := by
        rw [← e.compile_eq]
        exact same.symm
      rw [← same]
      refine ⟨Prod.ext ?_ (e.forget_remember _ matcher _), sound.remember compiled (kept _ found) _⟩
      show (e.model.evaluate query.context matcher query.request).result =
        (e.model.forget.evaluate query.context matcher.forget query.request).result
      rw [sound.roles.evaluate_forget (kept _ found)]

/-- Different queries of those that have been asked have different keys in the cache. -/
def Distinguishes (e : Enforcer σ κ) (asked : List Query) : Prop :=
  ∀ query ∈ asked, ∀ query' ∈ asked,
    e.digest query.key.toBytes = e.digest query'.key.toBytes → query = query'

theorem Distinguishes.congr {e e' : Enforcer σ κ} {asked : List Query}
    (distinguishes : e.Distinguishes asked) (digest : e'.digest = e.digest) :
    e'.Distinguishes asked := by
  unfold Distinguishes
  rw [digest]
  exact distinguishes

theorem Sound.cache {asked : List Query} {e : Enforcer σ κ} (sound : e.Sound asked)
    {cache : DecisionCache κ} (present : e.cache = some cache) :
    cache.Sound (e.Answers asked) := by
  have decisions := sound.decisions
  unfold cached at decisions
  rw [present] at decisions
  exact decisions

theorem Sound.setCache {asked : List Query} {e : Enforcer σ κ} (sound : e.Sound asked)
    {cache : DecisionCache κ} (right : cache.Sound (e.Answers asked)) :
    Sound asked { e with cache := some cache } :=
  ⟨sound.model, sound.roles, sound.matchers, right⟩

theorem decideEnabled_uncached [BEq κ] {e : Enforcer σ κ} (uncached : e.cache = none)
    (context : Context) (given : Option String) (request : List Value) :
    e.decideEnabled context given request = e.evaluate context given request := by
  unfold Enforcer.decideEnabled
  rw [uncached]

theorem decideEnabled?_uncached [BEq κ] {e : Enforcer σ κ} (uncached : e.cache = none)
    (context : Context) (given : Option String) (request : List Value) :
    e.decideEnabled? context given request = some (e.evaluate context given request) := by
  unfold Enforcer.decideEnabled?
  rw [uncached]

/-- With a cache, a decision is served from it, or it fails, or it is made and cached. Only the last
    may break off. -/
theorem decideEnabled_cases [BEq κ] {e : Enforcer σ κ} {cache : DecisionCache κ}
    (present : e.cache = some cache) (query : Query) :
    let key := e.digest query.key.toBytes
    let decided := e.decideEnabled query.context query.given query.request
    let decided? := e.decideEnabled? query.context query.given query.request
    (∃ decision rest, (cache.elapse 1).get key = (some decision, rest) ∧
      decided = (.ok decision, { e with cache := some rest }) ∧ decided? = some decided) ∨
    ∃ rest, (cache.elapse 1).get key = (none, rest) ∧
      ((∃ error after, { e with cache := some rest }.evaluate query.context query.given
          query.request = (.error error, after) ∧
        decided = (.error error, after) ∧ decided? = some decided) ∨
      ∃ decision after, { e with cache := some rest }.evaluate query.context query.given
          query.request = (.ok decision, after) ∧
        decided = (.ok decision, { after with cache := some (rest.set key decision) }) ∧
        decided? = (rest.set? key decision).map fun cache =>
          (.ok decision, { after with cache := some cache })) := by
  have key : e.cacheKey query.context query.given query.request = e.digest query.key.toBytes := rfl
  unfold Enforcer.decideEnabled decideEnabled?
  simp only [present, key]
  generalize (cache.elapse 1).get (e.digest query.key.toBytes) = outcome
  obtain ⟨found, rest⟩ := outcome
  cases found with
  | some decision => exact .inl ⟨decision, rest, rfl, rfl, rfl⟩
  | none =>
      refine .inr ⟨rest, rfl, ?_⟩
      simp only
      generalize { e with cache := some rest }.evaluate query.context query.given query.request =
        judged
      obtain ⟨result, after⟩ := judged
      cases result with
      | error error => exact .inl ⟨error, after, rfl, rfl, rfl⟩
      | ok decision => exact .inr ⟨decision, after, rfl, rfl, rfl⟩

/-- With a cache or without, a decision is that of the rows, and leaves nothing wrong behind. -/
theorem Sound.decideEnabled [BEq κ] [LawfulBEq κ] {asked : List Query} {e : Enforcer σ κ}
    (sound : e.Sound asked) (distinguishes : e.Distinguishes asked) {query : Query}
    (member : query ∈ asked) :
    lost (e.decideEnabled query.context query.given query.request) = (e.judge query, e.forget) ∧
      (e.decideEnabled query.context query.given query.request).2.Sound asked := by
  cases present : e.cache with
  | none =>
      rw [decideEnabled_uncached present]
      exact sound.evaluate query
  | some cache =>
      obtain ⟨right, kept⟩ := ((sound.cache present).elapse 1).get (e.digest query.key.toBytes)
      rcases decideEnabled_cases present query with ⟨decision, rest, found, decided, _⟩ |
        ⟨rest, missing, ⟨error, after, judged, decided, _⟩ | ⟨decision, after, judged, decided, _⟩⟩
      · rw [found] at right kept
        obtain ⟨query', member', same, judged⟩ := right decision rfl
        obtain rfl := distinguishes query' member' query member same
        rw [decided]
        exact ⟨Prod.ext judged.symm rfl, sound.setCache kept⟩
      · rw [missing] at kept
        have evaluated := (sound.setCache kept).evaluate query
        rw [judged] at evaluated
        rw [decided]
        exact evaluated
      · rw [missing] at kept
        obtain ⟨evaluated, sound⟩ := (sound.setCache kept).evaluate query
        rw [judged] at evaluated sound
        obtain ⟨answer, same⟩ := Prod.mk.inj evaluated
        have answers : after.Answers = e.Answers := answers_of_forget same
        rw [decided]
        refine ⟨Prod.ext answer same, sound.setCache ?_⟩
        rw [answers]
        exact kept.set ⟨query, member, rfl, answer.symm⟩

/-- What a query is answered: while an enforcer is disabled, everything is allowed. -/
def answer (e : Enforcer σ κ) (query : Query) : Except Error Decision :=
  if e.enabled then e.judge query else .ok allowed

theorem answer_of_enabled {e : Enforcer σ κ} (enabled : e.enabled = true) (query : Query) :
    e.answer query = e.judge query := if_pos enabled

theorem decide_of_enabled [BEq κ] {e : Enforcer σ κ} (enabled : e.enabled = true)
    (context : Context) (given : Option String) (request : List Value) :
    e.decide context given request = e.decideEnabled context given request := if_pos enabled

theorem answer_of_forget {e e' : Enforcer σ κ} (same : e'.forget = e.forget) :
    e'.answer = e.answer := by
  unfold answer
  rw [enabled_of_forget same, judge_of_forget same]

theorem Sound.decide [BEq κ] [LawfulBEq κ] {asked : List Query} {e : Enforcer σ κ}
    (sound : e.Sound asked) (distinguishes : e.Distinguishes asked) {query : Query}
    (member : query ∈ asked) :
    lost (e.decide query.context query.given query.request) = (e.answer query, e.forget) ∧
      (e.decide query.context query.given query.request).2.Sound asked := by
  unfold Enforcer.decide answer
  cases e.enabled with
  | true => exact sound.decideEnabled distinguishes member
  | false => exact ⟨rfl, sound⟩

end Enforcer

end AccessControl

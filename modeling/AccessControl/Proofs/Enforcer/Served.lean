import AccessControl.Proofs.Enforcer.Decisions
import AccessControl.Proofs.Enforcer.Shedding
import AccessControl.Storage.Memory

/-! # Whom cached decisions are served to

A decision is cached under the hash of the bytes of its query. Different queries have different
bytes. So, as long as different bytes have different hashes, a query is served nothing that was
decided for another one.
-/

namespace AccessControl

/-- The decisions that a run has come to, with their queries. -/
def decisions (operations : List Operation) (answers : List Answer) : List (Query × Decision) :=
  (operations.zip answers).filterMap fun (operation, answer) =>
    match operation.query?, answer with
    | some query, .decided (.ok decision) => some (query, decision)
    | _, _ => none

theorem decisions_cons (operation : Operation) (operations : List Operation) (answer : Answer)
    (answers : List Answer) :
    decisions (operation :: operations) (answer :: answers) =
      decisions [operation] [answer] ++ decisions operations answers := by
  show List.filterMap _ ([(operation, answer)] ++ operations.zip answers) = _
  exact List.filterMap_append

theorem query_of_mem_decisions {operations : List Operation} {answers : List Answer}
    {query : Query} {decision : Decision} (member : (query, decision) ∈ decisions operations answers) :
    query ∈ queries operations := by
  obtain ⟨⟨operation, answer⟩, both, decided⟩ := List.mem_filterMap.mp member
  refine List.mem_filterMap.mpr ⟨operation, (List.of_mem_zip both).1, ?_⟩
  simp only at decided
  split at decided
  · rename_i asked
    obtain ⟨rfl, rfl⟩ := Prod.mk.inj (Option.some.inj decided)
    exact asked
  · simp at decided

namespace Enforcer

variable {σ κ : Type}

/-! ## Where cached decisions come from -/

/-- A decision has been made for a query with a key. -/
def MadeFor (past : List (Query × Decision)) (digest : List UInt8 → κ) (key : κ)
    (decision : Decision) : Prop :=
  ∃ query, (query, decision) ∈ past ∧ digest query.key.toBytes = key

/-- Every cached decision has been made for a query with its key. -/
structure Stems (past : List (Query × Decision)) (digest : List UInt8 → κ) (e : Enforcer σ κ) :
    Prop where
  hash : e.digest = digest
  made : ∀ entry ∈ e.cached, MadeFor past digest entry.1 entry.2.decision

variable {e e' : Enforcer σ κ} {past : List (Query × Decision)} {digest : List UInt8 → κ}

theorem MadeFor.later {key : κ} {decision : Decision} (made : MadeFor past digest key decision)
    (more : List (Query × Decision)) : MadeFor (past ++ more) digest key decision := by
  obtain ⟨query, member, same⟩ := made
  exact ⟨query, List.mem_append_left more member, same⟩

namespace Stems

theorem later (stems : Stems past digest e) (more : List (Query × Decision)) :
    Stems (past ++ more) digest e :=
  ⟨stems.hash, fun entry member => (stems.made entry member).later more⟩

theorem sheds (stems : Stems past digest e) {passed : Nat} (sheds : Sheds passed e e') :
    Stems past digest e' :=
  ⟨sheds.digest.trans stems.hash, fun entry member => stems.made entry (sheds.cached member)⟩

theorem sound {cache : DecisionCache κ} (stems : Stems past digest e)
    (present : e.cache = some cache) : cache.Sound (MadeFor past digest) := by
  have made := stems.made
  unfold cached at made
  rw [present] at made
  exact made

end Stems

theorem sheds_evaluate (e : Enforcer σ κ) (query : Query) :
    Sheds 0 e (e.evaluate query.context query.given query.request).2 := by
  unfold evaluate
  split
  · exact .refl e
  · exact .still rfl rfl

theorem forget_evaluate (e : Enforcer σ κ) (query : Query) :
    (e.evaluate query.context query.given query.request).2.forget = e.forget := by
  unfold evaluate
  split
  · rfl
  · exact e.forget_remember _ _ _

theorem evaluate_cache (e : Enforcer σ κ) (cache : Option (DecisionCache κ)) (query : Query) :
    ({ e with cache }.evaluate query.context query.given query.request).1 =
      (e.evaluate query.context query.given query.request).1 := by
  unfold evaluate
  have same : Enforcer.matcher { e with cache } query.context query.given =
    e.matcher query.context query.given := rfl
  rw [same]
  cases e.matcher query.context query.given <;> rfl

variable [BEq κ] [LawfulBEq κ]

/-- A decision changes nothing but what is remembered. Into the cache comes only that decision, under
    the key of its query, and a cache only where there has been one. -/
theorem decideEnabled_leaves (e : Enforcer σ κ) (query : Query) {right : κ → Decision → Prop}
    (before : ∀ entry ∈ e.cached, right entry.1 entry.2.decision)
    (new : e.cache ≠ none → ∀ decision,
      (e.decideEnabled query.context query.given query.request).1 = .ok decision →
        right (e.digest query.key.toBytes) decision) :
    (e.decideEnabled query.context query.given query.request).2.forget = e.forget ∧
      (e.cache = none → (e.decideEnabled query.context query.given query.request).2.cache = none) ∧
      ∀ entry ∈ (e.decideEnabled query.context query.given query.request).2.cached,
        right entry.1 entry.2.decision := by
  cases present : e.cache with
  | none =>
      have sheds := sheds_evaluate e query
      rw [decideEnabled_uncached present]
      exact ⟨forget_evaluate e query, fun _ => sheds.uncached present,
        fun entry member => before entry (sheds.cached member)⟩
  | some cache =>
      have sound : cache.Sound right := by
        unfold cached at before
        rwa [present] at before
      have kept := ((sound.elapse 1).get (e.digest query.key.toBytes)).2
      rcases decideEnabled_cases present query with ⟨decision, rest, found, decided, _⟩ |
        ⟨rest, missing, ⟨error, after, judged, decided, _⟩ | ⟨decision, after, judged, decided, _⟩⟩
      · rw [found] at kept
        rw [decided]
        exact ⟨rfl, by simp, kept⟩
      · have sheds := sheds_evaluate { e with cache := some rest } query
        have same := forget_evaluate { e with cache := some rest } query
        rw [missing] at kept
        rw [judged] at sheds same
        rw [decided]
        exact ⟨same, by simp, fun entry member => kept entry (sheds.cached member)⟩
      · have same := forget_evaluate { e with cache := some rest } query
        rw [missing] at kept
        rw [judged] at same
        rw [decided] at new ⊢
        exact ⟨same, by simp, kept.set (new (by simp [present]) decision rfl)⟩

namespace Stems

theorem decideEnabled (stems : Stems past digest e) (query : Query)
    {answer : Except Error Decision}
    (decided : e.decideEnabled query.context query.given query.request = (answer, e')) :
    Stems (past ++ decisions [.decide query.context query.given query.request] [.decided answer])
      digest e' := by
  have before := fun entry member => (stems.made entry member).later
    (decisions [.decide query.context query.given query.request] [.decided answer])
  obtain ⟨same, _, made⟩ := decideEnabled_leaves e query before fun _ decision answered => by
    rw [decided] at answered
    obtain rfl := answered
    exact ⟨query, List.mem_append_right past List.mem_cons_self, by rw [stems.hash]⟩
  rw [decided] at same made
  exact ⟨(digest_of_forget same).trans stems.hash, made⟩

theorem decide (stems : Stems past digest e) (query : Query) {answer : Except Error Decision}
    (decided : e.decide query.context query.given query.request = (answer, e')) :
    Stems (past ++ decisions [.decide query.context query.given query.request] [.decided answer])
      digest e' := by
  unfold Enforcer.decide at decided
  split at decided
  · exact stems.decideEnabled query decided
  · obtain ⟨_, rfl⟩ := Prod.mk.inj decided
    exact stems.later _

variable [PolicyStore σ]

theorem step (stems : Stems past digest e) (operation : Operation) :
    Stems (past ++ decisions [operation] [(e.step operation).1]) digest (e.step operation).2 := by
  cases asks : operation.query? with
  | none => exact (stems.sheds (sheds_step e asks)).later _
  | some query =>
      cases operation with
      | decide context given request =>
          exact stems.decide { context, given, request } rfl
      | _ => simp [Operation.query?] at asks

/-- What is cached at the end of a run has been decided before the run or in it. -/
theorem run (stems : Stems past digest e) (operations : List Operation) :
    Stems (past ++ decisions operations (e.run operations).1) digest (e.run operations).2 := by
  induction operations generalizing e past with
  | nil => simpa [decisions, Enforcer.run] using stems
  | cons operation rest ih =>
      have others := ih (stems.step operation)
      rw [List.append_assoc, ← decisions_cons] at others
      exact others

end Stems

/-! ## What the cache serves -/

/-- The decision that is in the cache for a query when it is asked. -/
def served? (e : Enforcer σ κ) (query : Query) : Option Decision :=
  e.cache.bind fun cache => ((cache.elapse 1).get (e.digest query.key.toBytes)).1

omit [LawfulBEq κ] in
/-- A query is answered with what is in the cache for it, and evaluated where there is nothing. -/
theorem decide_eq_served (query : Query) (enabled : e.enabled = true) :
    (e.decide query.context query.given query.request).1 =
      match e.served? query with
      | some decision => .ok decision
      | none => (e.evaluate query.context query.given query.request).1 := by
  rw [decide_of_enabled enabled]
  unfold served?
  cases present : e.cache with
  | none => rw [decideEnabled_uncached present, Option.bind_none]
  | some cache =>
      rw [Option.bind_some]
      rcases decideEnabled_cases present query with ⟨decision, rest, found, decided, _⟩ |
        ⟨rest, missing, ⟨error, after, judged, decided, _⟩ | ⟨decision, after, judged, decided, _⟩⟩
      · rw [found, decided]
      · rw [missing, decided, ← evaluate_cache e (some rest), judged]
      · rw [missing, decided, ← evaluate_cache e (some rest), judged]

theorem Stems.served {query : Query} {decision : Decision} (stems : Stems past digest e)
    (served : e.served? query = some decision) :
    MadeFor past digest (digest query.key.toBytes) decision := by
  obtain ⟨cache, present, found⟩ := Option.bind_eq_some_iff.mp served
  rw [stems.hash] at found
  exact (((stems.sound present).elapse 1).get _).1 decision found

variable [PolicyStore σ]

omit [BEq κ] [LawfulBEq κ] in
theorem stems_build {setup : Setup σ κ} (built : setup.build = .ok e) :
    Stems [] setup.digest e := by
  unfold Setup.build at built
  obtain ⟨_, _, built⟩ := Except.bind_eq_ok_iff.mp built
  obtain ⟨model, _, built⟩ := Except.bind_eq_ok_iff.mp built
  obtain ⟨before, plain, built⟩ := Except.bind_eq_ok_iff.mp built
  have digest : before.digest = setup.digest := by
    unfold Setup.compilePlain at plain
    split at plain
    · obtain ⟨_, _, settled⟩ := Except.bind_eq_ok_iff.mp plain
      obtain rfl := Except.ok.inj settled
      rfl
    · obtain rfl := Except.ok.inj plain
      rfl
  have sheds := sheds_loadPolicy before
  generalize loading : before.loadPolicy = outcome at built sheds
  obtain ⟨result, after⟩ := outcome
  cases result with
  | error error => simp at built
  | ok _ =>
      obtain rfl := Except.ok.inj built
      exact ⟨sheds.digest.trans digest, by simp [cached_loadPolicy loading]⟩

/-- Different queries have different bytes: the context, the request and the given matcher can be
    read off them, as long as lengths fit their words. So, unless two of the queries that are asked
    collide, a decision comes from the cache only if it has been made for the very same query. -/
theorem served_only_where_decided :
    (∀ query query' : Query, query.key.fits → query'.key.fits →
      query.key.toBytes = query'.key.toBytes →
        query.context = query'.context ∧ query.request = query'.request ∧
          query.given = query'.given) ∧
    ∀ (setup : Setup σ κ) (e : Enforcer σ κ) (operations : List Operation) (query : Query),
      setup.build = .ok e →
      (∀ query' ∈ query :: queries operations, query'.key.fits) →
      (∀ query' ∈ queries operations, setup.digest query'.key.toBytes =
        setup.digest query.key.toBytes → query'.key.toBytes = query.key.toBytes) →
      (e.run operations).2.enabled = true →
      (∃ decision, (e.run operations).2.served? query = some decision ∧
        ((e.run operations).2.decide query.context query.given query.request).1 = .ok decision ∧
        (query, decision) ∈ decisions operations (e.run operations).1) ∨
      (e.run operations).2.served? query = none ∧
        ((e.run operations).2.decide query.context query.given query.request).1 =
          ((e.run operations).2.evaluate query.context query.given query.request).1 := by
  refine ⟨?_, ?_⟩
  · intro query query' fits fits' same
    obtain rfl := Query.key_inj fits fits' same
    exact ⟨rfl, rfl, rfl⟩
  · intro setup e operations query built fits collisionFree enabled
    have answered := decide_eq_served query enabled
    cases served : (e.run operations).2.served? query with
    | none =>
        rw [served] at answered
        exact .inr ⟨rfl, answered⟩
    | some decision =>
        rw [served] at answered
        refine .inl ⟨decision, rfl, answered, ?_⟩
        obtain ⟨query', made, same⟩ := ((stems_build built).run operations).served served
        rw [List.nil_append] at made
        have asked := query_of_mem_decisions made
        have bytes := collisionFree query' asked same
        obtain rfl := Query.key_inj (fits query' (List.mem_cons_of_mem query asked))
          (fits query List.mem_cons_self) bytes
        exact made

/-! ## Two guests -/

/-- A door with a guest list and a cache. -/
def door : Setup MemoryStore Fingerprint :=
  { model := .guestList
    store := {}
    digest := Fingerprint.ofBytes
    cache := some {} }

/-- Somebody is at the door, where another matcher may be in force. -/
def guest (name : String) (given : Option String) : Query :=
  { context := .plain, given, request := [.str name] }

/-- Alice is let in twice: by the list, and by a matcher that lets everybody in. -/
def evening : List Operation :=
  let ask (query : Query) := Operation.decide query.context query.given query.request
  [.mutate (.rows .policy "p" (.add ["alice"])), ask (guest "alice" none),
    ask (guest "alice" (some "true"))]

/-- What has been decided for Alice is served to her again, and not to Bob. -/
theorem served_only_where_decided_guests :
    (∃ decision, (door.enforcer.run evening).2.served? (guest "alice" none) = some decision ∧
      (guest "alice" none, decision) ∈ decisions evening (door.enforcer.run evening).1) ∧
    ((door.enforcer.run evening).2.decide .plain none [.str "bob"]).1 =
      ((door.enforcer.run evening).2.evaluate .plain none [.str "bob"]).1 := by
  have built : door.build = .ok door.enforcer := Setup.build_eq_enforcer (by decide +kernel)
  have asked : queries evening = [guest "alice" none, guest "alice" (some "true")] := rfl
  have fits : ∀ name ∈ ["alice", "bob"], ∀ query ∈ guest name none :: queries evening,
      query.key.fits := by
    rw [asked]
    decide +kernel
  have apart : ∀ name ∈ ["alice", "bob"], ∀ query ∈ queries evening,
      door.digest query.key.toBytes = door.digest (guest name none).key.toBytes →
        query.key.toBytes = (guest name none).key.toBytes := by
    rw [asked]
    decide +kernel
  obtain ⟨enabled, known, unknown⟩ : (door.enforcer.run evening).2.enabled = true ∧
      ((door.enforcer.run evening).2.served? (guest "alice" none)).isSome ∧
        (door.enforcer.run evening).2.served? (guest "bob" none) = none := by
    decide +kernel
  refine ⟨?_, ?_⟩
  · obtain ⟨decision, served, _, made⟩ | ⟨none, _⟩ :=
      served_only_where_decided.2 door door.enforcer evening (guest "alice" none) built
        (fits "alice" (by simp)) (apart "alice" (by simp)) enabled
    · exact ⟨decision, served, made⟩
    · simp [none] at known
  · obtain ⟨decision, served, _⟩ | ⟨_, answered⟩ :=
      served_only_where_decided.2 door door.enforcer evening (guest "bob" none) built
        (fits "bob" (by simp)) (apart "bob" (by simp)) enabled
    · simp [unknown] at served
    · exact answered

end Enforcer

end AccessControl

import AccessControl.Proofs.Enforcer.Memory
import AccessControl.Proofs.Enforcer.Served

/-! # Batches of requests

The requests of a batch are decided one after another, and what the first ones leave in memory is
there for the others. That does not show: whatever has been decided before, each request is decided
as it would have been on its own. A batch may break off as a single decision may, but not while the
cache lasts.
-/

namespace AccessControl.Enforcer

variable {σ κ : Type}

/-! ## Deciding the same queries again and again -/

/-- A decision is that of the rows for those of certain queries that have a key. -/
def Suits (e : Enforcer σ κ) (asked : List Query) (key : κ) (decision : Decision) : Prop :=
  ∀ query ∈ asked, e.digest query.key.toBytes = key → e.judge query = .ok decision

theorem suits_of_forget {e e' : Enforcer σ κ} (same : e'.forget = e.forget) :
    e'.Suits = e.Suits := by
  unfold Suits
  rw [judge_of_forget same, digest_of_forget same]

variable [PolicyStore σ] [BEq κ]

/-- A state in which certain queries are decided rightly, with a cache or without. -/
structure Steady (asked : List Query) (e : Enforcer σ κ) : Prop where
  reachable : e.Reachable
  suits : ∀ entry ∈ e.cached, e.Suits asked entry.1 entry.2.decision
  apart : e.cache ≠ none → e.Distinguishes asked

variable [LawfulBEq κ] {asked : List Query} {e : Enforcer σ κ} {query : Query}

namespace Steady

theorem decide_fst (steady : e.Steady asked) (member : query ∈ asked) :
    (e.decide query.context query.given query.request).1 = e.answer query := by
  cases enabled : e.enabled with
  | false => simp [Enforcer.decide, answer, enabled]
  | true =>
      rw [decide_eq_served query enabled, answer_of_enabled enabled]
      cases served : e.served? query with
      | none =>
          exact (steady.reachable.remembersRightly.evaluate steady.reachable.wellFormed query).1
      | some decision =>
          obtain ⟨cache, present, found⟩ := Option.bind_eq_some_iff.mp served
          have sound : cache.Sound (e.Suits asked) := by
            have suits := steady.suits
            unfold cached at suits
            rwa [present] at suits
          exact (((sound.elapse 1).get _).1 decision found query member rfl).symm

theorem decide_snd (steady : e.Steady asked) (member : query ∈ asked) :
    (e.decide query.context query.given query.request).2.forget = e.forget ∧
      (e.decide query.context query.given query.request).2.Steady asked := by
  have reachable := steady.reachable.step (.decide query.context query.given query.request)
  have answered := steady.decide_fst member
  cases enabled : e.enabled with
  | false =>
      have idle : (e.decide query.context query.given query.request).2 = e := by
        simp [Enforcer.decide, enabled]
      rw [idle]
      exact ⟨rfl, steady⟩
  | true =>
      rw [decide_of_enabled enabled, answer_of_enabled enabled] at answered
      -- The only decision that comes into the cache suits its own query, and there is no other one.
      obtain ⟨same, uncached, suits⟩ := decideEnabled_leaves e query steady.suits
        fun present decision here query' member' hash => by
          obtain rfl := steady.apart present query' member' query member hash
          rw [← answered, here]
      rw [← decide_of_enabled enabled] at same uncached suits
      exact ⟨same, reachable, suits_of_forget same ▸ suits, fun present =>
        (steady.apart fun absent => present (uncached absent)).congr (digest_of_forget same)⟩

end Steady

omit [BEq κ] [LawfulBEq κ] in
theorem Coherent.suits (coherent : e.Coherent asked) :
    ∀ entry ∈ e.cached, e.Suits asked entry.1 entry.2.decision := by
  intro entry cached query member hash
  obtain ⟨query', member', same, judged⟩ := coherent.sound.decisions entry cached
  obtain rfl := coherent.distinguishes query' member' query member (same.trans hash.symm)
  exact judged

/-! ## Batches -/

/-- What is asked with a request of a batch. -/
def batchQuery (context : Context) (request : List Value) : Query :=
  { context, given := none, request }

variable {context : Context} {requests : List (List Value)}

theorem Steady.decideAll_fst (steady : e.Steady asked) (enabled : e.enabled = true)
    (members : ∀ request ∈ requests, batchQuery context request ∈ asked) :
    (e.decideAll context requests).1 =
      requests.mapM fun request => e.answer (batchQuery context request) := by
  induction requests generalizing e with
  | nil => rfl
  | cons request rest ih =>
      obtain ⟨first, others⟩ := List.forall_mem_cons.mp members
      have answered : (e.decide context none request).1 = e.answer (batchQuery context request) :=
        steady.decide_fst first
      have left : (e.decide context none request).2.forget = e.forget ∧
          (e.decide context none request).2.Steady asked := steady.decide_snd first
      rw [List.mapM_cons, ← answered]
      unfold Enforcer.decideAll
      rw [decide_of_enabled enabled] at left ⊢
      generalize e.decideEnabled context none request = outcome at left ⊢
      obtain ⟨result, after⟩ := outcome
      obtain ⟨same, steady⟩ := left
      cases result with
      | error error => rfl
      | ok decision =>
          have decisions := ih steady ((enabled_of_forget same).trans enabled) others
          rw [answer_of_forget same] at decisions
          simp only [decisions]
          cases rest.mapM fun request => e.answer (batchQuery context request) <;> rfl

/-- A batch goes through its requests, up to the first error. -/
theorem Steady.decideBatch_fst (steady : e.Steady asked)
    (members : ∀ request ∈ requests, batchQuery context request ∈ asked) :
    (e.decideBatch context false requests).1 =
      requests.mapM fun request => (e.decide context none request).1 := by
  cases enabled : e.enabled with
  | true =>
      have answered : ∀ request ∈ requests, e.answer (batchQuery context request) =
          (e.decide context none request).1 :=
        fun request member => (steady.decide_fst (members request member)).symm
      rw [← Except.mapM_congr answered]
      simpa [decideBatch, enabled] using steady.decideAll_fst enabled members
  | false =>
      have allow : (fun request => (e.decide context none request).1) =
          fun _ : List Value => pure allowed := by
        funext request
        simp [Enforcer.decide, enabled, pure, Except.pure]
      rw [allow, List.mapM_pure]
      simp [decideBatch, enabled, pure, Except.pure]

/-- It makes no difference which of certain queries have been decided before. -/
theorem Steady.decide_run (steady : e.Steady asked) {earlier : List (List Value)}
    (members : ∀ request ∈ earlier, batchQuery context request ∈ asked) :
    (e.run (earlier.map (.decide context none))).2.forget = e.forget ∧
      (e.run (earlier.map (.decide context none))).2.Steady asked := by
  induction earlier generalizing e with
  | nil => exact ⟨rfl, steady⟩
  | cons request rest ih =>
      obtain ⟨first, others⟩ := List.forall_mem_cons.mp members
      obtain ⟨same, steady⟩ := steady.decide_snd first
      obtain ⟨same', steady'⟩ := ih steady others
      exact ⟨same'.trans same, steady'⟩

section

omit [PolicyStore σ] [LawfulBEq κ]

/-- A batch that does not break off does what it would do anyhow. -/
theorem decideAll?_eq_some {outcome : Except Error (List Decision) × Enforcer σ κ}
    (decided : e.decideAll? context requests = some outcome) :
    outcome = e.decideAll context requests := by
  induction requests generalizing e outcome with
  | nil => exact (Option.some.inj decided).symm
  | cons request rest ih =>
      obtain ⟨⟨result, after⟩, first, others⟩ := Option.bind_eq_some_iff.mp decided
      have made := decideEnabled?_eq_some (batchQuery context request) first
      unfold Enforcer.decideAll
      rw [batchQuery] at made
      simp only [← made]
      cases result with
      | error error => exact (Option.some.inj others).symm
      | ok decision =>
          obtain ⟨outcome', later, settled⟩ := Option.bind_eq_some_iff.mp others
          rw [ih later] at settled
          exact (Option.some.inj settled).symm

theorem decideBatch?_eq_some {cancelled : Bool}
    {outcome : Except Error (List Decision) × Enforcer σ κ}
    (decided : e.decideBatch? context cancelled requests = some outcome) :
    outcome = e.decideBatch context cancelled requests := by
  unfold Enforcer.decideBatch? at decided
  unfold Enforcer.decideBatch
  split at decided
  · rename_i disabled
    rw [if_pos disabled, Option.some.inj decided]
  · rename_i enabled
    rw [if_neg enabled]
    split at decided
    · rename_i stopped
      rw [if_pos stopped, Option.some.inj decided]
    · rename_i goes
      rw [if_neg goes, decideAll?_eq_some decided]

end

omit [PolicyStore σ] in
theorem Lasts.decideAll? (lasts : e.Lasts requests.length) :
    e.decideAll? context requests = some (e.decideAll context requests) := by
  induction requests generalizing e with
  | nil => rfl
  | cons request rest ih =>
      rw [List.length_cons, Nat.add_comm] at lasts
      have now := lasts.mono (Nat.le_add_right 1 rest.length)
      have first := now.decideEnabled? (batchQuery context request)
      have later := lasts.later (ages_decideEnabled e (batchQuery context request))
      rw [batchQuery] at first later
      unfold Enforcer.decideAll? Enforcer.decideAll
      simp only [first]
      generalize e.decideEnabled context none request = outcome at later
      obtain ⟨result, after⟩ := outcome
      cases result with
      | error error => rfl
      | ok decision => simp [ih later]

omit [PolicyStore σ] in
/-- No batch breaks off while the cache lasts. -/
theorem Lasts.decideBatch? (lasts : e.Lasts requests.length) (cancelled : Bool) :
    e.decideBatch? context cancelled requests = some (e.decideBatch context cancelled requests) := by
  unfold Enforcer.decideBatch? Enforcer.decideBatch
  rw [lasts.decideAll?]
  split
  · rfl
  · split <;> rfl

theorem forall₂_of_mapM_eq_ok {ε α β : Type} {f : α → Except ε β} {as : List α} {bs : List β}
    (done : as.mapM f = .ok bs) : List.Forall₂ (fun a b => f a = .ok b) as bs := by
  induction as generalizing bs with
  | nil =>
      obtain rfl : [] = bs := Except.ok.inj done
      exact .nil
  | cons a rest ih =>
      rw [List.mapM_cons] at done
      obtain ⟨b, first, done⟩ := Except.bind_eq_ok_iff.mp done
      obtain ⟨others, later, settled⟩ := Except.bind_eq_ok_iff.mp done
      obtain rfl : b :: others = bs := Except.ok.inj settled
      exact .cons first (ih later)

/-- Requests are decided in a batch as they are one by one, in any state, with a cache that is
    coherent with it or without one. A batch has a result if all of its requests have, and otherwise
    the error of one of them. It makes no difference what else of the batch has been decided before.
    While an enforcer is disabled, everything is allowed in a batch as well. -/
theorem batch_one_by_one (reachable : e.Reachable)
    (coherent : ∀ request ∈ requests, ∀ entry ∈ e.cached,
      e.digest (batchQuery context request).key.toBytes = entry.1 →
        e.judge (batchQuery context request) = .ok entry.2.decision)
    (fits : e.cache ≠ none → ∀ request ∈ requests, (batchQuery context request).key.fits)
    (collisionFree : e.cache ≠ none → ∀ request ∈ requests, ∀ request' ∈ requests,
      e.digest (batchQuery context request).key.toBytes =
        e.digest (batchQuery context request').key.toBytes →
          (batchQuery context request).key.toBytes = (batchQuery context request').key.toBytes) :
    ((∃ decisions, (e.decideBatch context false requests).1 = .ok decisions) ↔
      ∀ request ∈ requests, ∃ decision, (e.decide context none request).1 = .ok decision) ∧
    (∀ decisions, (e.decideBatch context false requests).1 = .ok decisions →
      List.Forall₂ (fun request decision => (e.decide context none request).1 = .ok decision)
        requests decisions) ∧
    (∀ error, (e.decideBatch context false requests).1 = .error error →
      ∃ request ∈ requests, (e.decide context none request).1 = .error error) ∧
    (∀ earlier ⊆ requests, ∀ request ∈ requests,
      ((e.run (earlier.map (.decide context none))).2.decide context none request).1 =
        (e.decide context none request).1) ∧
    (e.enabled = false →
      (e.decideBatch context false requests).1 = .ok (requests.map fun _ => ⟨true, []⟩) ∧
        ∀ request, (e.decide context none request).1 = .ok ⟨true, []⟩) := by
  have members : ∀ request ∈ requests,
      batchQuery context request ∈ requests.map (batchQuery context) :=
    fun request member => List.mem_map_of_mem member
  have steady : e.Steady (requests.map (batchQuery context)) := by
    refine ⟨reachable, fun entry cached => ?_, fun present => ?_⟩
    · exact List.forall_mem_map.mpr fun request member => coherent request member entry cached
    · refine List.forall_mem_map.mpr fun request member =>
        List.forall_mem_map.mpr fun request' member' hash => ?_
      exact Query.key_inj (fits present request member) (fits present request' member')
        (collisionFree present request member request' member' hash)
  have batch := steady.decideBatch_fst members
  refine ⟨?_, ?_, ?_, ?_, ?_⟩
  · rw [batch]
    exact Except.exists_mapM_eq_ok_iff
  · intro decisions done
    exact forall₂_of_mapM_eq_ok (batch ▸ done)
  · intro error failed
    exact Except.exists_of_mapM_eq_error (batch ▸ failed)
  · intro earlier part request member
    obtain ⟨same, after⟩ := steady.decide_run fun request member => members request (part member)
    exact (after.decide_fst (members request member)).trans
      ((congrFun (answer_of_forget same) _).trans (steady.decide_fst (members request member)).symm)
  · intro disabled
    simp [decideBatch, Enforcer.decide, disabled, allowed]

/-! ## A queue of guests -/

/-- A guest list with a cache whose keys are the bytes of queries themselves. -/
def counter : Setup MemoryStore (List UInt8) :=
  { model := .guestList
    store := {}
    digest := id
    cache := some {} }

theorem build_counter : counter.build = .ok counter.enforcer :=
  Setup.build_eq_enforcer (by decide +kernel)

/-- Alice is put on the list, and is let in. -/
def arrival : List Operation :=
  [.mutate (.rows .policy "p" (.add ["alice"])), .decide .plain none [.str "alice"]]

/-- Alice comes back with Bob, and once more behind him. -/
def queue : List (List Value) := [[.str "alice"], [.str "bob"], [.str "alice"]]

theorem fits_queue : ∀ query ∈ queue.map (batchQuery .plain), query.key.fits := by decide +kernel

theorem coherent_arrival :
    (counter.enforcer.run arrival).2.Coherent (queue.map (batchQuery .plain)) := by
  have quiet : PolicyStore.ClearsQuietly counter.store := fun _ _ => rfl
  have coherent := coherent_build counter Model.prepared_guestList rfl quiet
    (fun query member query' member' =>
      Query.key_inj (fits_queue query member) (fits_queue query' member')) build_counter
  have asked : queries arrival = [batchQuery .plain [.str "alice"]] := rfl
  exact coherent.run (by simp [asked, queue])

/-- Alice, of whom the cache knows, is let in twice, and Bob is not. -/
theorem batch_one_by_one_queue :
    (∃ decisions,
      ((counter.enforcer.run arrival).2.decideBatch .plain false queue).1 = .ok decisions ∧
        decisions.map (·.allowed) = [true, false, true] ∧
        List.Forall₂ (fun request decision =>
          ((counter.enforcer.run arrival).2.decide .plain none request).1 = .ok decision)
          queue decisions) ∧
    (counter.enforcer.run arrival).2.cached.map (·.2.decision.allowed) = [true] := by
  have reachable := reachable_run (.built Model.prepared_guestList build_counter) arrival
  have coherent := coherent_arrival
  have digest : (counter.enforcer.run arrival).2.digest = id := rfl
  have fits := List.forall_mem_map.mp fits_queue
  obtain ⟨_, batch, _⟩ := batch_one_by_one reachable
    (fun request member entry cached =>
      coherent.suits entry cached (batchQuery .plain request) (List.mem_map_of_mem member))
    (fun _ => fits) (fun _ _ _ _ _ same => by rwa [digest] at same)
  have known : ((counter.enforcer.run arrival).2.decideBatch .plain false queue).1.toOption.map
      (·.map (·.allowed)) = some [true, false, true] := by decide +kernel
  obtain ⟨decisions, done, allowed⟩ := Option.map_eq_some_iff.mp known
  have done := Except.toOption_eq_some_iff.mp done
  exact ⟨⟨decisions, done, allowed, batch decisions done⟩, by decide +kernel⟩

end AccessControl.Enforcer

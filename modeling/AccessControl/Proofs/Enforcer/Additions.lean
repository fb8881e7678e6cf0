import AccessControl.Proofs.Enforcer.AnyOrder
import AccessControl.Proofs.Enforcer.PlainContext
import AccessControl.Proofs.Enforcer.RoundTrip
import AccessControl.Proofs.Enforcer.Silent

/-! # Adding rows

Rows may be added one by one or several at once, in one order or in another. If the links follow, what
is allowed afterwards depends on nothing but which rows have been added.
-/

namespace AccessControl

/-- A call that adds rows to a type. -/
structure Addition where
  table : RowSection
  type : String
  /-- One row, or several that are added as a whole. -/
  rows : Row ⊕ List Row

namespace Addition

def change (addition : Addition) : RowChange :=
  match addition.rows with
  | .inl row => .add row
  | .inr rows => .addMany rows

def mutation (addition : Addition) : Mutation :=
  .rows addition.table addition.type addition.change

/-- The rows that are to be added. -/
def named (addition : Addition) : List Row :=
  match addition.rows with
  | .inl row => [row]
  | .inr rows => rows

/-- These rows with the type that they are added to. -/
def lines (addition : Addition) : List (RowSection × String × Row) :=
  addition.named.map fun row => (addition.table, addition.type, row)

theorem mem_lines {addition : Addition} {s : RowSection} {type : String} {row : Row} :
    (s, type, row) ∈ addition.lines ↔
      s = addition.table ∧ type = addition.type ∧ row ∈ addition.named := by
  simp only [lines, List.mem_map, Prod.mk.injEq]
  constructor
  · rintro ⟨_, member, rfl, rfl, rfl⟩
    exact ⟨rfl, rfl, member⟩
  · rintro ⟨rfl, rfl, member⟩
    exact ⟨row, member, rfl, rfl, rfl⟩

theorem delta_of_apply {model model' : Model} {addition : Addition} {delta : RowDelta}
    (made : model.apply addition.table.key addition.type addition.change =
      .ok (some delta, model')) : delta = { added := addition.named } := by
  obtain ⟨s, type, rows⟩ := addition
  cases rows with
  | inl row =>
      obtain ⟨_, _, settled⟩ := Except.map_eq_ok_iff.mp made
      exact (RowDelta.ifChanged_eq_some_iff.mp settled).2.1.symm
  | inr rows =>
      obtain ⟨_, _, settled⟩ := Except.map_eq_ok_iff.mp made
      exact (RowDelta.ifChanged_eq_some_iff.mp settled).2.1.symm

end Addition

/-! ## The same model -/

namespace Model

variable {model model' : Model} (same : model'.forget = model.forget)
include same

theorem tables_of_forget_eq : model.SameTables model' := fun s type => by
  rw [← table?_forget, same, table?_forget]

theorem declarations_of_forget_eq : model.SameDeclarations model' :=
  model.declarations_forget.trans (same ▸ model'.declarations_forget.symm)

theorem effects_of_forget_eq : model'.effects = model.effects := by
  have forgotten : model'.forget.effects = model.forget.effects := by rw [same]
  exact forgotten

theorem ruled_of_forget_eq {rules : String → RoleRules} (ruled : model.Ruled rules) :
    model'.Ruled rules := by
  intro type role' declared'
  have roles := model'.role_forget type
  rw [same, role_forget, declared'] at roles
  obtain ⟨role, declared, forgotten⟩ := Except.map_eq_ok_iff.mp roles
  have kept : role'.rules = role.rules := by
    have rules (role : RoleType) : role.forget.rules = role.rules := by
      obtain ⟨table, manager, names, domains⟩ := role
      cases manager <;> rfl
    rw [← rules role', ← rules role, forgotten]
  exact kept.trans (ruled type role declared)

end Model

namespace Enforcer

section

variable {σ κ : Type} [PolicyStore σ] [BEq κ] {e : Enforcer σ κ}

/-- Make additions one after another, whatever they answer. -/
def addAll (e : Enforcer σ κ) (additions : List Addition) : Enforcer σ κ :=
  (e.run (additions.map fun addition => .mutate addition.mutation)).2

theorem addAll_cons (e : Enforcer σ κ) (addition : Addition) (rest : List Addition) :
    e.addAll (addition :: rest) = (e.mutate addition.mutation).2.addAll rest := rfl

/-- What additions bring that are made one after another: the rows of those that are accepted. -/
def brought (e : Enforcer σ κ) : List Addition → List (RowSection × String × Row)
  | [] => []
  | addition :: rest =>
    (if rejects (e.mutate addition.mutation).1 then [] else addition.lines) ++
      (e.mutate addition.mutation).2.brought rest

omit [BEq κ] in
/-- After an addition there is what was there before, and what it brings if it is accepted. -/
theorem mem_rows_addition (h : e.model.WellFormed) (addition : Addition) (s : RowSection)
    (type : String) (row : Row) :
    row ∈ (e.mutate addition.mutation).2.model.rows s.key type ↔
      (s, type, row) ∈ (if rejects (e.mutate addition.mutation).1 then [] else addition.lines) ∨
        row ∈ e.model.rows s.key type := by
  have made : e.mutate addition.mutation = e.change addition.table addition.type addition.change :=
    rfl
  rw [made]
  rcases change_cases h addition.table addition.type addition.change with
    ⟨rejected, same⟩ | ⟨accepted, delta, model, applied, tables, _⟩
  · rw [same, rejected]
    simp
  · obtain ⟨table, table', changed⟩ := h.apply applied
    obtain rfl := Addition.delta_of_apply applied
    rw [accepted, tables.rows_key, ← changed.placed, Model.rows_setTable changed.found,
      if_neg Bool.false_ne_true, Addition.mem_lines]
    split
    · rename_i here
      obtain ⟨rfl, rfl⟩ := here
      have stored := (changed.outcome.accounts _ rfl).stored row
      rw [Model.rows_of_table? changed.found]
      simpa using stored
    · rename_i elsewhere
      have other : ¬(s = addition.table ∧ type = addition.type ∧ row ∈ addition.named) :=
        fun here => elsewhere ⟨here.1, here.2.1⟩
      simp [other]

theorem mem_rows_addAll (h : e.model.WellFormed) (additions : List Addition) (s : RowSection)
    (type : String) (row : Row) :
    row ∈ (e.addAll additions).model.rows s.key type ↔
      (s, type, row) ∈ e.brought additions ∨ row ∈ e.model.rows s.key type := by
  induction additions generalizing e with
  | nil => simp [addAll, run, brought]
  | cons addition rest ih =>
      rw [addAll_cons]
      refine (ih ((moved_mutate h addition.mutation).wellFormed h)).trans ?_
      rw [mem_rows_addition h, brought, List.mem_append, or_assoc, or_left_comm]

/-! ## What stays the same -/

theorem moved_addAll (h : e.model.WellFormed) (additions : List Addition) :
    Moved false e (e.addAll additions) := by
  induction additions generalizing e with
  | nil => exact .still rfl rfl rfl
  | cons addition rest ih =>
      have first := moved_mutate h addition.mutation
      exact first.trans (ih (first.wellFormed h))

theorem addAll_eq (h : e.model.WellFormed) (additions : List Addition) :
    ∃ model store cache announced,
      e.addAll additions = { e with model, store, cache, announced } := by
  induction additions generalizing e with
  | nil => exact ⟨e.model, e.store, e.cache, e.announced, rfl⟩
  | cons addition rest ih =>
      obtain ⟨model, store, cache, announced, first⟩ := mutate_eq h addition.mutation
      obtain ⟨model', store', cache', announced', others⟩ :=
        ih ((moved_mutate h addition.mutation).wellFormed h)
      refine ⟨model', store', cache', announced', others.trans ?_⟩
      rw [first]

omit [BEq κ] in
theorem rowless_of_build {setup : Setup σ κ} (prepared : setup.model.Prepared)
    (empty : PolicyStore.load setup.store = .ok []) (built : setup.build = .ok e) :
    e.model.Rowless := by
  obtain ⟨_, model, matchers, reset, _, loaded⟩ := build_eq_ok_iff.mp built
  have well := resetManagers_wellFormed prepared.wellFormed reset
  have given : PolicyStore.load { setup.initial model with matchers }.store = .ok [] := empty
  unfold loadPolicy at loaded
  rw [given] at loaded
  simp only at loaded
  split at loaded
  · simp at loaded
  · rw [replaceRows_eq well] at loaded
    split at loaded
    · simp at loaded
    · obtain ⟨_, rfl⟩ := Prod.mk.inj loaded
      intro s type table found
      refine Model.rowless_clear model s type table ?_
      simp only [clearCache] at found
      split at found
      · rwa [Model.tables_buildLinks] at found
      · exact found

end

/-! ## Two enforcers -/

section

variable {σ σ' κ κ' : Type} [PolicyStore σ] [PolicyStore σ'] [BEq κ] [BEq κ']
  {e : Enforcer σ κ} {e' : Enforcer σ' κ'}

/-- Two enforcers without rows start from the same model, whatever it remembers of role checks, and the
    same rows are added to both, in any order, one by one or several at once. Then they allow the same
    wherever the matcher fails on no row, unless the effect is one of priority and two rows have the
    same rank. -/
theorem additions_in_any_order (following : e.Following) (following' : e'.Following)
    (uncached : e.cache = none) (uncached' : e'.cache = none) (enabled : e'.enabled = e.enabled)
    (functions : e'.functions = e.functions) (model : e'.model.forget = e.model.forget)
    (rowless : e.model.Rowless) {additions additions' : List Addition}
    (same : ∀ line, line ∈ e'.brought additions' ↔ line ∈ e.brought additions)
    {query : Query} (ranked : (e.addAll additions).Ranked query)
    (answered : (e.addAll additions).FailsNowhere query) :
    ((e'.addAll additions').decide query.context query.given query.request).1.map (·.allowed) =
      ((e.addAll additions).decide query.context query.given query.request).1.map (·.allowed) := by
  have h := following.reachable.wellFormed
  have h' := following'.reachable.wellFormed
  have moved := moved_addAll h additions
  have moved' := moved_addAll h' additions'
  have tables := Model.tables_of_forget_eq model
  have members : (e.addAll additions).model.SameMembers (e'.addAll additions').model := by
    refine ⟨fun s type => ?_, fun s type row => ?_⟩
    · exact (moved'.shapes h' s type).trans ((tables.shapes s type).trans (moved.shapes h s type).symm)
    · have empty : e.model.rows s.key type = [] := by
        cases found : e.model.table? s type with
        | none => simp [Model.rows_eq, found]
        | some table => rw [Model.rows_of_table? found, rowless s type table found]
      rw [mem_rows_addAll h', mem_rows_addAll h, tables.rows_key, empty, same]
  obtain ⟨follows, rules, inStep⟩ := following.inStep
  obtain ⟨follows', _, inStep'⟩ := following'.inStep
  have ruled' := Model.ruled_of_forget_eq model inStep.ruled
  have inStep' : e'.model.InStep rules := fun type role declared =>
    ⟨(inStep' type role declared).1, ruled' type role declared⟩
  have move := moved.move
  have move' := moved'.move
  rw [follows] at move
  rw [follows'] at move'
  obtain ⟨_, _, _, _, shape⟩ := addAll_eq h additions
  obtain ⟨_, _, _, _, shape'⟩ := addAll_eq h' additions'
  have enabled' : (e'.addAll additions').enabled = (e.addAll additions).enabled := by
    rw [shape, shape']
    exact enabled
  have functions' : (e'.addAll additions').functions = (e.addAll additions).functions := by
    rw [shape, shape']
    exact functions
  exact allowed_decide (reachable_run following.reachable _)
    (reachable_run following'.reachable _) (cache_run uncached _)
    (cache_run uncached' _) enabled' functions'
    ((move.declarations h).symm.trans
      ((Model.declarations_of_forget_eq model).trans (move'.declarations h')))
    ((move'.effects h').trans ((Model.effects_of_forget_eq model).trans (move.effects h).symm))
    members (move.inStep h inStep) (move'.inStep h' inStep') ranked answered

end

/-! ## A turnstile -/

/-- A turnstile where the first rule that concerns a visitor counts, that of the least number. -/
def turnstile : Setup MemoryStore (List UInt8) :=
  let definitions :=
    [("r", "r", "sub"), ("p", "p", "sub, priority, eft"), ("g", "g", "_, _"),
      ("e", "e", EffectKind.priority.expression), ("m", "m", "g(r.sub, p.sub)")]
  { model := (Model.ofDefinitions definitions).toOption.getD {}
    store := {}
    digest := id }

theorem prepared_turnstile : turnstile.model.Prepared := by
  unfold turnstile
  simp only
  exact .ofDefinitions_getD _

/-- The rules come first and one by one. One of them is given twice. -/
def rulesFirst : List Addition :=
  [{ table := .policy, type := "p", rows := .inl ["staff", "2", "allow"] },
    { table := .policy, type := "p", rows := .inl ["alice", "1", "deny"] },
    { table := .policy, type := "p", rows := .inl ["staff", "2", "allow"] },
    { table := .role, type := "g", rows := .inl ["alice", "staff"] },
    { table := .role, type := "g", rows := .inl ["bob", "staff"] }]

/-- The roles come first, and all at once. -/
def rolesFirst : List Addition :=
  [{ table := .role, type := "g", rows := .inr [["bob", "staff"], ["alice", "staff"]] },
    { table := .policy, type := "p", rows := .inr [["alice", "1", "deny"], ["staff", "2", "allow"]] }]

def visit (visitor : String) : Query :=
  { context := .plain, given := none, request := [.str visitor] }

/-- Bob comes in and Alice does not, whether the rules or the roles have come first. -/
theorem additions_in_any_order_turnstile :
    turnstile.build = .ok turnstile.enforcer ∧
      (((turnstile.enforcer.setWatched.addAll rolesFirst).decide .plain none [.str "alice"]).1.map
        (·.allowed)).toOption = some false ∧
      (((turnstile.enforcer.setWatched.addAll rolesFirst).decide .plain none [.str "bob"]).1.map
        (·.allowed)).toOption = some true := by
  -- what there is to see where the rules come first
  have observed : turnstile.build.isOk = true ∧
      (((turnstile.enforcer.addAll rulesFirst).decide .plain none [.str "alice"]).1.map
        (·.allowed)).toOption = some false ∧
      (((turnstile.enforcer.addAll rulesFirst).decide .plain none [.str "bob"]).1.map
        (·.allowed)).toOption = some true ∧
      (turnstile.enforcer.setWatched.brought rolesFirst).Perm
        (turnstile.enforcer.brought rulesFirst) ∧
      ((turnstile.enforcer.addAll rulesFirst).model.table? .policy "p").all
        (fun table => Decidable.decide table.RanksApart) = true ∧
      ((turnstile.enforcer.addAll rulesFirst).compile .plain none).toOption.all (fun matcher =>
        ["alice", "bob"].all fun visitor =>
          ((turnstile.enforcer.addAll rulesFirst).model.rows "p" "p").all fun row =>
            (matcher.test [.str visitor] (turnstile.enforcer.addAll rulesFirst).model.hasLink
              row).isOk) = true := by decide +kernel
  obtain ⟨builds, alice, bob, perm, apart, fits⟩ := observed
  have built : turnstile.build = .ok turnstile.enforcer := Setup.build_eq_enforcer builds
  have following : turnstile.enforcer.Following := .built prepared_turnstile rfl built
  have uncached := uncached_of_build prepared_turnstile built rfl
  have rowless := rowless_of_build prepared_turnstile rfl built
  have ranked (visitor : String) :
      (turnstile.enforcer.addAll rulesFirst).Ranked (visit visitor) := by
    intro _ table found
    rw [visit, Context.plain_eq] at found
    rw [found] at apart
    exact of_decide_eq_true apart
  have answered : ∀ visitor ∈ ["alice", "bob"],
      (turnstile.enforcer.addAll rulesFirst).FailsNowhere (visit visitor) := by
    intro visitor among matcher compiled row stored
    rw [visit, Context.plain_eq] at stored
    have compiled' : (turnstile.enforcer.addAll rulesFirst).compile .plain none = .ok matcher :=
      compiled
    rw [compiled'] at fits
    simp only [Except.toOption, Option.all_some, List.all_eq_true] at fits
    have fit := fits visitor among row stored
    show ∃ answer, matcher.test [.str visitor] _ row = .ok answer
    cases tested : matcher.test [.str visitor]
        (turnstile.enforcer.addAll rulesFirst).model.hasLink row with
    | ok answer => exact ⟨answer, rfl⟩
    | error error => simp [tested, Except.isOk, Except.toBool] at fit
  have alike (visitor : String) (among : visitor ∈ ["alice", "bob"]) :=
    congrArg Except.toOption (additions_in_any_order following following.setWatched uncached uncached
      rfl rfl rfl rowless (fun _ => perm.mem_iff) (ranked visitor) (answered visitor among))
  exact ⟨built, (alike "alice" (by decide)).trans alice, (alike "bob" (by decide)).trans bob⟩

end Enforcer

end AccessControl

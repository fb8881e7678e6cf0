import AccessControl.Proofs.Enforcer.Moves
import AccessControl.Proofs.Model.InStep
import AccessControl.Storage.Memory

/-! # Role links that are kept up, and role links that are built from scratch

While links follow the rows, the manager of each role type is patched after every change. In every
state of every run it answers as a new manager of its kind and bound that is told of all predicates
in the order in which they came, and then of every stored row.
-/

namespace AccessControl

/-- The rules of a role type after an operation. -/
def RoleRules.after (type : String) (rules : RoleRules) : Operation → RoleRules
  | .addNamePredicate type' holds =>
    if type' = type then { rules with namePredicates := rules.namePredicates ++ [holds] }
    else rules
  | .addDomainPredicate type' holds =>
    if type' = type then { rules with domainPredicates := rules.domainPredicates ++ [holds] }
    else rules
  | .setManager type' manager =>
    if type' = type then { rules with kind := manager.kind, maxLevel := manager.maxLevel }
    else rules
  | _ => rules

theorem RoleRules.after_eq_self {operation : Operation} (quiet : operation.setsRules = false)
    (type : String) (rules : RoleRules) : rules.after type operation = rules := by
  cases operation <;> first | rfl | simp [Operation.setsRules] at quiet

/-- The rules of a role type that has just been set up. -/
def Setup.rules {σ κ : Type} (setup : Setup σ κ) : RoleRules :=
  { kind := .indexed, maxLevel := setup.settings.maxHierarchyLevel }

namespace Model

/-! ## Models that have been told of no predicates -/

/-- No predicates are remembered. -/
def NoPredicates (model : Model) : Prop :=
  model.EachRole fun _ role => role.namePredicates = [] ∧ role.domainPredicates = []

theorem NoPredicates.modifyRole {model : Model} (none : model.NoPredicates) (type : String)
    {change : RoleType → RoleType}
    (keeps : ∀ role, (change role).namePredicates = role.namePredicates ∧
      (change role).domainPredicates = role.domainPredicates) :
    (model.modifyRole type change).NoPredicates :=
  EachRole.modifyRole none (fun role before => by rw [(keeps role).1, (keeps role).2]; exact before)
    fun _ _ _ before => before

theorem NoPredicates.declare {model model' : Model} (none : model.NoPredicates) {s : Section}
    {key text : String} (declared : model.declare s key text = .ok model') :
    model'.NoPredicates := by
  cases s with
  | role =>
      obtain ⟨fields, _, settled⟩ := Except.bind_eq_ok_iff.mp declared
      obtain rfl := Except.ok.inj settled
      intro type role found
      obtain ⟨text, entry⟩ := role_eq_ok_iff.mp found
      rw [NameMap.get?_insert] at entry
      split at entry
      · obtain ⟨_, rfl⟩ := Declared.mk.inj (Option.some.inj entry)
        exact ⟨rfl, rfl⟩
      · exact none type role (role_eq_ok_iff.mpr ⟨text, entry⟩)
  | matcher =>
      obtain rfl := Except.ok.inj declared
      exact none
  | request | policy | effect =>
      obtain ⟨_, _, settled⟩ := Except.bind_eq_ok_iff.mp declared
      obtain rfl := Except.ok.inj settled
      exact none

theorem Prepared.noPredicates {model : Model} (prepared : model.Prepared) :
    model.NoPredicates := by
  induction prepared with
  | empty => exact fun type role found => by simp [Model.role, named, NameMap.get?] at found
  | define _ defined ih =>
      obtain ⟨s, _, defined⟩ := Except.bind_eq_ok_iff.mp defined
      obtain ⟨_, _, defined⟩ := Except.bind_eq_ok_iff.mp defined
      split at defined
      · obtain ⟨_, rfl⟩ := Prod.mk.inj (Except.ok.inj defined)
        exact ih
      · obtain ⟨declaredModel, declared, settled⟩ := Except.bind_eq_ok_iff.mp defined
        obtain ⟨_, rfl⟩ := Prod.mk.inj (Except.ok.inj settled)
        exact ih.declare declared
  | @apply _ _ s type _ _ _ made ih =>
      obtain ⟨_, table, _, _, rfl⟩ := apply_eq_ok made
      exact EachRole.setTable ih (fun _ _ _ before => before) s type table
  | clear _ ih => exact EachRole.clear ih fun _ _ _ before => before
  | load lines _ ih => exact EachRole.load ih (fun _ _ _ before => before) lines
  | @buildLinks model before ih =>
      rw [before.wellFormed.buildLinks]
      have built := EachRole.modifyRoles (Q := fun _ _ => True) ih (·.buildLinks.2)
        (fun _ _ none => ⟨none, trivial⟩) (model.types .role)
      exact fun type role found => (built type role found).1
  | @changeLinks model type change rows _ ih =>
      unfold Model.changeLinks
      cases declared : model.role type with
      | error error => exact ih
      | ok role =>
          simp only
          rw [modifyRole_const declared fun role => (role.changeLinks change rows).2]
          exact ih.modifyRole type fun _ => ⟨rfl, rfl⟩
  | @setManager model type manager before ih =>
      cases declared : model.role type with
      | error error =>
          unfold Model.setManager
          rw [declared]
          exact ih
      | ok role =>
          rw [before.wellFormed.setManager declared]
          exact ih.modifyRole type fun _ => ⟨rfl, rfl⟩

/-! ## Setting up -/

theorem ruled_of_resetManagers {model model' : Model} (prepared : model.Prepared) {maxLevel : Nat}
    (reset : Setup.resetManagers maxLevel model (model.types .role) = .ok model') :
    model'.Ruled fun _ => { kind := .indexed, maxLevel } := by
  have h := prepared.wellFormed
  have each : model.EachRole fun _ role =>
      (role.table.WellFormed ∧ 2 ≤ role.table.arity) ∧
        role.namePredicates = [] ∧ role.domainPredicates = [] :=
    fun type role declared => ⟨h.role declared, prepared.noPredicates type role declared⟩
  have renewed := each.modifyAll (·.linkedIn (.empty .indexed maxLevel))
    (Q := fun _ role => role.rules = { kind := .indexed, maxLevel })
    fun type role ⟨⟨well, arity⟩, names, domains⟩ => by
      refine ⟨⟨⟨well, arity⟩, names, domains⟩, ?_⟩
      obtain ⟨_, kept⟩ := RoleType.inStep_buildLinks
        { role with manager := .empty .indexed maxLevel } well arity
      refine kept.trans ?_
      simp only [RoleType.rules, names, domains]
      rfl
  rw [Enforcer.resetManagers_eq h reset] at renewed
  exact fun type role declared => (renewed type role declared).2

end Model

namespace Enforcer

variable {σ κ : Type} [PolicyStore σ] {rules : String → RoleRules}

theorem inStep_loadPolicy {e e' : Enforcer σ κ} (h : e.model.WellFormed)
    (follows : e.settings.autoBuildRoleLinks = true) (ruled : e.model.Ruled rules)
    (loaded : e.loadPolicy = (.ok (), e')) : e'.model.InStep rules := by
  unfold loadPolicy at loaded
  split at loaded
  · simp at loaded
  · split at loaded
    · simp at loaded
    · rename_i lines _ _ _
      rw [replaceRows_eq h] at loaded
      split at loaded
      · simp at loaded
      · obtain ⟨_, rfl⟩ := Prod.mk.inj loaded
        simp only [follows, if_true]
        exact (ruled.clear.load lines).buildLinks (h.clear.load lines).1

theorem inStep_build {setup : Setup σ κ} {e : Enforcer σ κ} (prepared : setup.model.Prepared)
    (follows : setup.settings.autoBuildRoleLinks = true) (built : setup.build = .ok e) :
    e.model.InStep fun _ => setup.rules := by
  obtain ⟨_, model, matchers, reset, _, loaded⟩ := build_eq_ok_iff.mp built
  have well := resetManagers_wellFormed prepared.wellFormed reset
  exact inStep_loadPolicy (e := { setup.initial model with matchers }) well follows
    (Model.ruled_of_resetManagers prepared reset) loaded

omit [PolicyStore σ] in
theorem inStep_changeRole {e : Enforcer σ κ} (free : e.access = .ok ())
    (inStep : e.model.InStep rules) {type : String} {change : RoleType → RoleType}
    {rules' : String → RoleRules}
    (changed : ∀ role, e.model.role type = .ok role → role.InStep → role.rules = rules type →
      (change role).InStep ∧ (change role).rules = rules' type)
    (others : ∀ type', type' ≠ type → rules' type' = rules type') :
    (e.changeRole type change).2.model.InStep rules' := by
  unfold changeRole
  rw [free]
  cases declared : e.model.role type with
  | error error =>
      intro type' role found
      have other : type' ≠ type := by
        rintro rfl
        simp [declared] at found
      exact others type' other ▸ inStep type' role found
  | ok _ =>
      have each : e.model.EachRole fun type role =>
          e.model.role type = .ok role ∧ role.InStep ∧ role.rules = rules type :=
        fun type role found => ⟨found, inStep type role found⟩
      exact each.modifyRole (fun role ⟨found, stepped, ruled⟩ => changed role found stepped ruled)
        fun type' role other before => others type' other ▸ before.2

variable [BEq κ]

/-- Every operation leaves the links in step, and the rules as it says. -/
theorem inStep_step {e : Enforcer σ κ} (h : e.model.WellFormed) (free : e.access = .ok ())
    (follows : e.settings.autoBuildRoleLinks = true) (inStep : e.model.InStep rules)
    (operation : Operation) :
    (e.step operation).2.model.InStep fun type => (rules type).after type operation := by
  cases quiet : operation.setsRules with
  | false =>
      have moved := moved_step h operation
      have move := moved.move
      rw [quiet, follows] at move
      simp only [RoleRules.after_eq_self quiet]
      exact move.inStep h inStep
  | true =>
      cases operation with
      | addNamePredicate type holds =>
          refine inStep_changeRole free inStep (fun role _ stepped ruled => ?_) fun type' other => ?_
          · refine ⟨stepped.addNamePredicate holds, ?_⟩
            rw [role.rules_addNamePredicate, ruled]
            simp [RoleRules.after, ← ruled, RoleType.rules]
          · simp [RoleRules.after, Ne.symm other]
      | addDomainPredicate type holds =>
          refine inStep_changeRole free inStep (fun role _ stepped ruled => ?_) fun type' other => ?_
          · refine ⟨stepped.addDomainPredicate holds, ?_⟩
            rw [role.rules_addDomainPredicate, ruled]
            simp [RoleRules.after, ← ruled, RoleType.rules]
          · simp [RoleRules.after, Ne.symm other]
      | setManager type manager =>
          show (e.setManager type manager).2.model.InStep _
          rw [setManager_eq h]
          refine inStep_changeRole free inStep (fun role found _ ruled => ?_) fun type' other => ?_
          · obtain ⟨well, arity⟩ := h.role found
            obtain ⟨stepped, kept⟩ := RoleType.inStep_buildLinks
              { role with manager } well arity
            refine ⟨stepped, kept.trans ?_⟩
            simp [RoleRules.after, ← ruled, RoleType.rules]
          · simp [RoleRules.after, Ne.symm other]
      | _ => simp [Operation.setsRules] at quiet

theorem inStep_run {e : Enforcer σ κ} (h : e.model.WellFormed) (free : e.access = .ok ())
    (follows : e.settings.autoBuildRoleLinks = true) (inStep : e.model.InStep rules)
    (operations : List Operation) :
    (e.run operations).2.model.InStep fun type =>
      operations.foldl (RoleRules.after type) (rules type) := by
  induction operations generalizing e rules with
  | nil => exact inStep
  | cons operation rest ih =>
      have moved := moved_step h operation
      have followed : (e.step operation).2.settings.autoBuildRoleLinks = true := by
        rw [moved.settings, follows]
      exact ih (moved.wellFormed h) (moved.access.trans free) followed
        (inStep_step h free follows inStep operation)

/-- In every state of every run, the manager of every role type answers as one that is built from
    scratch: one of the same kind and bound, with the predicates that have been added so far, and
    with a link for each stored row. -/
theorem run_links_as_from_scratch {setup : Setup σ κ} {e : Enforcer σ κ}
    (prepared : setup.model.Prepared) (follows : setup.settings.autoBuildRoleLinks = true)
    (built : setup.build = .ok e) (operations : List Operation) {type : String} {role : RoleType}
    (declared : (e.run operations).2.model.role type = .ok role) :
    role.rules = operations.foldl (RoleRules.after type) setup.rules ∧
      ∃ manager, role.rules.scratch role.table = (.ok (), manager) ∧
        manager.SameAnswers role.manager := by
  obtain ⟨settings, free⟩ := build_access prepared built
  have h := (Reachable.built prepared built).wellFormed
  have inStep := inStep_build prepared follows built
  obtain ⟨stepped, ruled⟩ :=
    inStep_run h free (settings ▸ follows) inStep operations type role declared
  have well := (reachable_run (.built prepared built) operations).wellFormed
  obtain ⟨table, arity⟩ := well.role declared
  obtain ⟨done, same⟩ := stepped.sameAnswers table arity
  exact ⟨ruled, _, Prod.ext done rfl, same⟩

/-! ## Two rows that share a link -/

/-- A guest list that is kept in memory. -/
def guests : Setup MemoryStore (List UInt8) :=
  { model := .guestList
    store := {}
    digest := id }

/-- Rows of a pattern of domains, of which one goes again. -/
def comings : List Operation :=
  [.addDomainPredicate "g" fun _ stored => stored == "*",
    .mutate (.rows .role "g" (.addMany
      [["alice", "admin", "*", "by day"], ["alice", "admin", "*", "by night"]])),
    .mutate (.rows .role "g" (.remove ["alice", "admin", "*", "by night"]))]

/-- A link stays when one of the rows goes that stand for it. -/
theorem run_links_as_from_scratch_sharedLink :
    ∃ role manager, (guests.enforcer.run comings).2.model.role "g" = .ok role ∧
      role.table.rows = [["alice", "admin", "*", "by day"]] ∧
      role.rules.scratch role.table = (.ok (), manager) ∧
      manager.SameAnswers role.manager ∧
      manager.hasLink "alice" "admin" (some "home") = true := by
  have built : guests.build = .ok guests.enforcer := Setup.build_eq_enforcer (by decide +kernel)
  have observed : ((guests.enforcer.run comings).2.model.role "g").toOption.map (fun role =>
      (role.table.rows, role.manager.hasLink "alice" "admin" (some "home"))) =
        some ([["alice", "admin", "*", "by day"]], true) := by decide +kernel
  cases declared : (guests.enforcer.run comings).2.model.role "g" with
  | error error => simp [declared, Except.toOption] at observed
  | ok role =>
      obtain ⟨_, manager, scratch, same⟩ := run_links_as_from_scratch Model.prepared_guestList rfl
        built comings declared
      rw [declared] at observed
      obtain ⟨rows, linked⟩ := Prod.mk.inj (Option.some.inj observed)
      exact ⟨role, manager, rfl, rows, scratch, same, by rw [← same.hasLink, linked]⟩

end Enforcer

end AccessControl

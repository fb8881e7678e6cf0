import AccessControl.Proofs.Enforcer.PlainContext
import AccessControl.Proofs.Enforcer.RoundTrip
import AccessControl.Proofs.Roles.Plain
import Mathlib.Logic.Relation

/-! # Users and roles that are removed

Where permissions are given to roles, and nobody has a permission but by a row of a role that they
have, removing a user leaves them nothing: no role but their own name, and no row of that. Removing a
role leaves it to nobody else.
-/

namespace AccessControl

/-! ## Permissions of roles -/

/-- Users have roles, and roles may act on objects. -/
def PlainTypes.roleBased : PlainTypes where
  requestFields := ["sub", "obj", "act"]
  policyFields := ["sub", "obj", "act"]
  roleArity := 2
  effect := .allowOverride
  matcher := "g(r.sub, p.sub) && r.obj == p.obj && r.act == p.act"

namespace Expr

def roleBased : Expr :=
  andSameFields (.call "g" [requestField "sub" 2, policyField "sub" 9] 0)
    [("obj", 19, 28), ("act", 37, 46)]

theorem parse_roleBased : Expr.parse PlainTypes.roleBased.matcher = .ok roleBased := by rfl

end Expr

namespace Enforcer

variable {σ κ : Type} {e : Enforcer σ κ} (declares : e.model.DeclaresPlain .roleBased)
include declares

theorem resolvesIn_roleBased : Expr.roleBased.ResolvesIn (e.plainScope .roleBased) := by
  have plain := e.plainScope_isPlain .roleBased
  refine Expr.resolvesIn_andSameFields plain
    (Expr.resolvesIn_roleCheck 0 declares.lookup_roleArities (by simp)
      (by simp [PlainTypes.roleBased]) ?_) (by simp [plainScope, PlainTypes.roleBased])
  intro arg member
  rcases List.mem_pair.mp member with rfl | rfl
  · exact Expr.resolvesIn_requestField plain 2 (by simp [plainScope, PlainTypes.roleBased])
  · exact Expr.resolvesIn_policyField plain 9 (by simp [plainScope, PlainTypes.roleBased])

theorem result_roleBased {env : Bindings} {onRule : String → Traced Value}
    {user object action name object' action' : String}
    (binds : (e.plainScope .roleBased).Binds [user, object, action] env)
    (row : env.row = [name, object', action']) :
    (Expr.roleBased.interpret (e.plainScope .roleBased) env onRule).result =
      .ok (.bool (env.roles "g" user name none && (object == object' && action == action'))) := by
  have plain := e.plainScope_isPlain .roleBased
  have subject : ((Expr.requestField "sub" 2).interpret (e.plainScope .roleBased) env
      onRule).result = .ok (.str _) :=
    Expr.result_requestField plain binds "sub" 2 (by simp [plainScope, PlainTypes.roleBased])
  have role : ((Expr.policyField "sub" 9).interpret (e.plainScope .roleBased) env
      onRule).result = .ok (.str _) :=
    Expr.result_policyField plain binds "sub" 9 (by simp [plainScope, PlainTypes.roleBased])
  have check := Expr.result_roleCheck 0 declares.lookup_roleArities subject role
  have all := Expr.result_andSameFields plain binds [("obj", 19, 28), ("act", 37, 46)] check
    (by simp [plainScope, PlainTypes.roleBased])
  rw [Expr.roleBased, all, row]
  simp [plainScope, PlainTypes.roleBased, textNamed, valueNamed?]

end Enforcer

/-! ## Subjects -/

/-- The types whose rows begin with a user or a role. -/
def subjectTypes : List (RowSection × String) := [(.policy, plainPolicy), (.role, plainRole)]

/-- A row of one of these types begins with a name. -/
def Model.HasSubject (model : Model) (name : String) : Prop :=
  ∃ place ∈ subjectTypes, ∃ row ∈ model.rows place.1.key place.2, row.head? = some name

theorem Removal.takes_subject {s : RowSection} {type name : String} {row : Row}
    (begins : row.head? = some name) :
    Removal.takes { table := s, type, filter := ⟨0, [name]⟩ } s type row = true := by
  rw [List.head?_eq_getElem?] at begins
  simp [takes, FieldFilter.picks_singleton, begins]

theorem Removal.takes_second {s : RowSection} {type name : String} {row : Row}
    (second : row[1]? = some name) :
    Removal.takes { table := s, type, filter := ⟨1, [name]⟩ } s type row = true := by
  simp [takes, FieldFilter.picks_singleton, second]

namespace Enforcer

variable {σ κ : Type} [PolicyStore σ] {e e' : Enforcer σ κ}

/-- No row begins with a user that has been removed. -/
theorem not_hasSubject_deleteUser (h : e.model.WellFormed) {user : String}
    (made : tellsMade (e.deleteUser user).1 = true) :
    ¬(e.deleteUser user).2.model.HasSubject user := by
  rintro ⟨⟨s, type⟩, place, row, stored, begins⟩
  have rows := rows_removeTogether_of_made h (Removal.ofUser user) made s type
  have left : row ∈ Removal.remaining (Removal.ofUser user) s type (e.model.rows s.key type) :=
    rows ▸ stored
  refine Removal.not_mem_remaining ?_ (Removal.takes_subject begins) _ left
  rcases List.mem_pair.mp place with same | same <;> obtain ⟨rfl, rfl⟩ := Prod.mk.inj same <;>
    simp [Removal.ofUser]

/-- A role that has been removed is left to itself alone, and nothing is permitted to it. -/
theorem left_by_deleteRole (h : e.model.WellFormed)
    (follows : e.settings.autoBuildRoleLinks = true) {rules : String → RoleRules}
    (inStep : e.model.InStep rules) (plain : e.model.ChecksPlainly) {types : PlainTypes}
    (declares : e.model.DeclaresPlain types) {role : String}
    (made : tellsMade (e.deleteRole role).1 = true) :
    (∀ user, user ≠ role → ∀ domain,
        (e.deleteRole role).2.model.hasLink "g" user role domain = false) ∧
      ∀ row ∈ (e.deleteRole role).2.model.rows "p" "p", row.head? ≠ some role := by
  have rows := rows_removeTogether_of_made h (Removal.ofRole role) made
  constructor
  · intro user other domain
    have declares' : (e.deleteRole role).2.model.DeclaresPlain types :=
      (moved_mutate h (.deleteRole role)).move.declaresPlain h declares
    obtain ⟨type, declared, _⟩ := declares.exists_role
    obtain ⟨type', declared', _⟩ := declares'.exists_role
    obtain ⟨_, ruled⟩ := inStep "g" type declared
    obtain ⟨stepped, ruled'⟩ := inStep_mutate h follows inStep (.deleteRole role) "g" type' declared'
    have nobody : ∀ subject, ¬type'.table.Links (domain.getD defaultDomain) subject role := by
      intro subject links
      obtain ⟨row, stored, _, second⟩ := links.exists_row
      have left : row ∈ Removal.remaining (Removal.ofRole role) .role "g" (e.model.rows "g" "g") := by
        have same := rows .role "g"
        rw [← Model.rows_of_role declared'] at stored
        exact same ▸ stored
      exact Removal.not_mem_remaining (by simp [Removal.ofRole, plainRole])
        (Removal.takes_second second) _ left
    have plain' := (plain type declared).congr (ruled'.trans ruled.symm)
    rw [Model.hasLink_of_role declared', ← Bool.not_eq_true,
      stepped.hasLink_of_no_subject plain' nobody]
    exact other
  · intro row stored begins
    have same := rows .policy "p"
    have left : row ∈ Removal.remaining (Removal.ofRole role) .policy "p" (e.model.rows "p" "p") :=
      same ▸ stored
    exact Removal.not_mem_remaining (by simp [Removal.ofRole, plainPolicy])
      (Removal.takes_subject begins) _ left

/-! ## What happens to an enforcer -/

variable [BEq κ]

/-- One thing happens to an enforcer whose links follow the rows. -/
inductive Happens : Enforcer σ κ → Enforcer σ κ → Prop where
  | step (e : Enforcer σ κ) (operation : Operation) : Happens e (e.step operation).2
  | configure (e : Enforcer σ κ) (settings : Settings)
      (follows : settings.autoBuildRoleLinks = true) : Happens e (e.configure settings)
  | setStore (e : Enforcer σ κ) (store : σ) : Happens e (e.setStore store)
  | setWatched (e : Enforcer σ κ) : Happens e e.setWatched
  | takeAnnounced (e : Enforcer σ κ) : Happens e e.takeAnnounced.2
  | takeCalls (e : Enforcer σ κ) : Happens e e.takeCalls.2
  /-- Somebody begins or ends to read the state. -/
  | read (e : Enforcer σ κ) (beingRead : Bool) : Happens e { e with beingRead }

namespace Happens

theorem following (happens : Happens e e') (following : e.Following) : e'.Following := by
  cases happens with
  | step operation => exact following.step operation
  | configure settings follows => exact following.configure settings follows
  | setStore store => exact following.setStore store
  | setWatched => exact following.setWatched
  | takeAnnounced => exact following.takeAnnounced
  | takeCalls => exact following.takeCalls
  | read beingRead => exact following.read beingRead

theorem uncached (happens : Happens e e') (uncached : e.cache = none) : e'.cache = none := by
  cases happens with
  | step operation => exact cache_step uncached operation
  | configure | setStore | setWatched | takeAnnounced | takeCalls | read => exact uncached

theorem declaresPlain (happens : Happens e e') (h : e.model.WellFormed) {types : PlainTypes}
    (declares : e.model.DeclaresPlain types) : e'.model.DeclaresPlain types := by
  cases happens with
  | step operation => exact (moved_step h operation).move.declaresPlain h declares
  | configure | setStore | setWatched | takeAnnounced | takeCalls | read => exact declares

end Happens

/-- A row that begins with a name has come. -/
def Brings (name : String) (e e' : Enforcer σ κ) : Prop :=
  ∃ place ∈ subjectTypes, ∃ row ∈ e'.model.rows place.1.key place.2,
    row ∉ e.model.rows place.1.key place.2 ∧ row.head? = some name

omit [PolicyStore σ] [BEq κ] in
theorem not_hasSubject_of_not_brings {name : String} (absent : ¬e.model.HasSubject name)
    (quiet : ¬Brings name e e') : ¬e'.model.HasSubject name := by
  rintro ⟨place, declared, row, stored, begins⟩
  by_cases before : row ∈ e.model.rows place.1.key place.2
  · exact absent ⟨place, declared, row, before, begins⟩
  · exact quiet ⟨place, declared, row, stored, before, begins⟩

/-! ## Decisions -/

/-- What the removal of a user leaves behind: no row begins with it. -/
structure Without (user : String) (e : Enforcer σ κ) : Prop where
  following : e.Following
  uncached : e.cache = none
  declares : e.model.DeclaresPlain .roleBased
  absent : ¬e.model.HasSubject user

namespace Without

variable {user : String}

theorem happens (without : Without user e) (happens : Happens e e') (quiet : ¬Brings user e e') :
    Without user e' where
  following := happens.following without.following
  uncached := happens.uncached without.uncached
  declares := happens.declaresPlain without.following.reachable.wellFormed without.declares
  absent := not_hasSubject_of_not_brings without.absent quiet

theorem later (without : Without user e)
    (happened : Relation.ReflTransGen (fun e e' => Happens e e' ∧ ¬Brings user e e') e e') :
    Without user e' := by
  induction happened with
  | refl => exact without
  | tail _ last ih => exact ih.happens last.1 last.2

theorem head?_ne (without : Without user e) {s : RowSection} {type : String}
    (place : (s, type) ∈ subjectTypes) {row : Row} (stored : row ∈ e.model.rows s.key type) :
    row.head? ≠ some user :=
  fun begins => without.absent ⟨_, place, row, stored, begins⟩

theorem hasLink_iff (without : Without user e) (plain : e.model.ChecksPlainly) (role : String) :
    e.model.hasLink "g" user role none = true ↔ user = role := by
  obtain ⟨type, declared, _⟩ := without.declares.exists_role
  obtain ⟨_, rules, inStep⟩ := without.following.inStep
  rw [Model.hasLink_of_role declared]
  refine (inStep "g" type declared).1.hasLink_of_no_role (plain type declared)
    (fun role links => ?_) role
  obtain ⟨row, stored, begins, _⟩ := links.exists_row
  rw [← Model.rows_of_role declared] at stored
  have place : (RowSection.role, "g") ∈ subjectTypes := by simp [subjectTypes, plainRole]
  exact without.head?_ne place stored begins

theorem denied (without : Without user e) (enabled : e.enabled = true)
    (plain : e.model.ChecksPlainly) (object action : String) :
    (e.decide .plain none [.str user, .str object, .str action]).1 =
      .ok { allowed := false, explain := [] } := by
  have refused (row : Row) (stored : row ∈ e.model.rows "p" "p")
      (length : row.length = PlainTypes.roleBased.policyFields.length)
      (onRule : String → Traced Value) :
      (Expr.roleBased.interpret (e.plainScope .roleBased)
        { request := [.str user, .str object, .str action], row, roles := e.model.hasLink }
        onRule).result = .ok (.bool false) := by
    match row, length with
    | [name, object', action'], _ =>
        have other : ¬user = name := by
          rintro rfl
          have place : (RowSection.policy, "p") ∈ subjectTypes := by
            simp [subjectTypes, plainPolicy]
          exact without.head?_ne place stored rfl
        have unlike : e.model.hasLink "g" user name none = false := by
          rw [← Bool.not_eq_true, without.hasLink_iff plain]
          exact other
        have binds : (e.plainScope .roleBased).Binds [user, object, action]
            { request := [.str user, .str object, .str action], row := [name, object', action'],
              roles := e.model.hasLink } := ⟨rfl, rfl, rfl⟩
        rw [result_roleBased without.declares binds rfl]
        simp [unlike]
  have decided := without.following.reachable.decide_plain without.uncached enabled
    without.declares Expr.parse_roleBased (resolvesIn_roleBased without.declares) rfl refused
  rw [decided, Decision.ofOutcome_combine_filter (by simp [PlainTypes.roleBased])]
  simp [EffectKind.settle, PlainTypes.roleBased]

end Without

/-- Once a user has been removed, if only with an error of the store, everything is denied to it until
    a row comes that begins with it. Once a role has been removed, nobody else has it in any domain,
    and nothing is permitted to it. -/
theorem removed_for_good (following : e.Following) (uncached : e.cache = none)
    (declares : e.model.DeclaresPlain .roleBased) :
    (∀ user, tellsMade (e.deleteUser user).1 = true →
      ∀ later, Relation.ReflTransGen (fun e e' => Happens e e' ∧ ¬Brings user e e')
          (e.deleteUser user).2 later →
        later.enabled = true → later.model.ChecksPlainly → ∀ object action,
          (later.decide .plain none [.str user, .str object, .str action]).1 =
            .ok { allowed := false, explain := [] }) ∧
      (e.model.ChecksPlainly → ∀ role, tellsMade (e.deleteRole role).1 = true →
        (∀ user, user ≠ role → ∀ domain,
            (e.deleteRole role).2.model.hasLink "g" user role domain = false) ∧
          ∀ row ∈ (e.deleteRole role).2.model.rows "p" "p", row.head? ≠ some role) := by
  have h := following.reachable.wellFormed
  constructor
  · intro user made later happened enabled plain object action
    have removal : Happens e (e.deleteUser user).2 := .step e (.mutate (.deleteUser user))
    have without : Without user (e.deleteUser user).2 :=
      { following := removal.following following
        uncached := removal.uncached uncached
        declares := removal.declaresPlain h declares
        absent := not_hasSubject_deleteUser h made }
    exact (without.later happened).denied enabled plain object action
  · intro plain role made
    obtain ⟨follows, rules, inStep⟩ := following.inStep
    exact left_by_deleteRole h follows inStep plain declares made

/-! ## An office -/

/-- An office in which clerks write letters. -/
def office : Model :=
  let definitions :=
    [("r", "r", "sub, obj, act"), ("p", "p", "sub, obj, act"), ("g", "g", "_, _"),
      ("e", "e", EffectKind.allowOverride.expression), ("m", "m", PlainTypes.roleBased.matcher)]
  (Model.ofDefinitions definitions).toOption.getD {}

theorem prepared_office : office.Prepared := by
  unfold office
  exact .ofDefinitions_getD _

theorem declaresPlain_office : office.DeclaresPlain .roleBased := by decide +kernel

/-- An office whose store passes everything on but removals. -/
def guardedOffice : Setup (RefusingStore MemoryStore) (List UInt8) where
  model := office
  store :=
    { inner :=
        ⟨[⟨"p", ["clerk", "letters", "write"]⟩, ⟨"p", ["alice", "letters", "read"]⟩,
          ⟨"g", ["alice", "clerk"]⟩, ⟨"g", ["bob", "clerk"]⟩, ⟨"g", ["clerk", "alice"]⟩]⟩
      refused := fun method =>
        if method = .removeFilteredPolicy then some (.other "read only") else none }
  digest := id

/-- The office after Alice has left and Bob has got another role. -/
def officeLater : Enforcer (RefusingStore MemoryStore) (List UInt8) :=
  ((guardedOffice.enforcer.deleteUser "alice").2.mutate (.rows .role "g" (.add ["bob", "guest"]))).2

/-- The store refuses the removals; still Alice may not write letters any more, also when Bob has got
    another role. Once the clerks have been removed, Bob is none. -/
theorem removed_for_good_office :
    (guardedOffice.enforcer.deleteUser "alice").1.toOption = none ∧
      (guardedOffice.enforcer.decide .plain none
        [.str "alice", .str "letters", .str "write"]).1.toOption =
          some { allowed := true, explain := [["clerk", "letters", "write"]] } ∧
      (officeLater.decide .plain none [.str "alice", .str "letters", .str "write"]).1 =
        .ok { allowed := false, explain := [] } ∧
      guardedOffice.enforcer.model.hasLink "g" "bob" "clerk" none = true ∧
      (guardedOffice.enforcer.deleteRole "clerk").2.model.hasLink "g" "bob" "clerk" none = false := by
  have observed : guardedOffice.build.isOk = true ∧
      (guardedOffice.enforcer.deleteUser "alice").1.toOption = none ∧
      (guardedOffice.enforcer.decide .plain none
        [.str "alice", .str "letters", .str "write"]).1.toOption =
          some { allowed := true, explain := [["clerk", "letters", "write"]] } ∧
      guardedOffice.enforcer.model.hasLink "g" "bob" "clerk" none = true ∧
      tellsMade (guardedOffice.enforcer.deleteUser "alice").1 = true ∧
      tellsMade (guardedOffice.enforcer.deleteRole "clerk").1 = true ∧
      officeLater.enabled = true ∧
      ∀ place ∈ subjectTypes, ∀ row ∈ officeLater.model.rows place.1.key place.2,
        row.head? ≠ some "alice" := by decide +kernel
  obtain ⟨builds, refused, writes, clerk, gone, gone', enabled, absent⟩ := observed
  have prepared : guardedOffice.model.Prepared := prepared_office
  have built : guardedOffice.build = .ok guardedOffice.enforcer := Setup.build_eq_enforcer builds
  have following : guardedOffice.enforcer.Following := .built prepared rfl built
  have following' : (guardedOffice.enforcer.deleteUser "alice").2.Following :=
    following.step (.mutate (.deleteUser "alice"))
  -- what happens after the removal does not bring Alice back
  have happened : Relation.ReflTransGen (fun e e' => Happens e e' ∧ ¬Brings "alice" e e')
      (guardedOffice.enforcer.deleteUser "alice").2 officeLater := by
    refine .single ⟨.step _ (.mutate (.rows .role "g" (.add ["bob", "guest"]))), ?_⟩
    rintro ⟨place, declared, row, stored, _, begins⟩
    exact absent place declared row stored begins
  -- and no predicates come
  have inStep := inStep_build prepared rfl built
  have inStep' := inStep_mutate following.reachable.wellFormed following.inStep.1 inStep
    (.deleteUser "alice")
  have later := inStep_mutate following'.reachable.wellFormed following'.inStep.1 inStep'
    (.rows .role "g" (.add ["bob", "guest"]))
  have plain : officeLater.model.ChecksPlainly := checksPlainly_of_inStep later rfl rfl
  obtain ⟨user, role⟩ := removed_for_good following (uncached_of_build prepared built rfl)
    (declaresPlain_of_build prepared built declaresPlain_office)
  have denied := user "alice" gone officeLater happened enabled plain "letters" "write"
  have left := (role (checksPlainly_of_inStep inStep rfl rfl) "clerk" gone').1 "bob" (by decide) none
  exact ⟨refused, writes, denied, clerk, left⟩

end Enforcer

end AccessControl

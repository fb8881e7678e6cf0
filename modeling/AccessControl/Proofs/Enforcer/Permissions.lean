import AccessControl.Proofs.Decision.Outcome
import AccessControl.Proofs.Enforcer.Revocation
import AccessControl.Proofs.Enforcer.Tenants
import AccessControl.Proofs.Roles.Closure

/-! # Listed permissions

The permissions that are listed for a user are the rows of the user and of all roles that chains of
grouping rows lead to, however long. A decision follows chains up to a bound only. So whatever is
allowed is listed, and what is listed is allowed as far as the bound goes.
-/

namespace AccessControl

/-! ## Lists -/

namespace Model

variable {model : Model}

/-- A grouping row gives a name a role. -/
def Gives (model : Model) (name role : String) : Prop := [name, role] ∈ model.rows "g" "g"

theorem DeclaresPlain.links_eq_gives (declares : model.DeclaresPlain .roleBased)
    (h : model.WellFormed) {type : RoleType} (declared : model.role "g" = .ok type) :
    type.table.Links defaultDomain = model.Gives := by
  obtain ⟨_, same, arity⟩ := declares.exists_role
  obtain rfl := Except.ok.inj (declared.symm.trans same)
  funext name role
  rw [eq_iff_iff, (h.role declared).1.links_default_iff arity, Gives, rows_of_role declared]

theorem Regular.shorten (regular : model.Regular) {domain : Option String} {hops : Nat}
    {name role : String}
    (walk : Walk (fun name next => next ∈ model.rolesOf name domain) hops name role) :
    ∃ fewer ≤ ((model.manager? plainRole).map (·.linkBound)).getD 0,
      Walk (fun name next => next ∈ model.rolesOf name domain) fewer name role := by
  unfold rolesOf at walk ⊢
  cases found : model.manager? plainRole with
  | none =>
      -- nothing leads anywhere
      rw [found] at walk
      cases walk with
      | stay => exact ⟨0, Nat.le_refl _, .stay _⟩
      | on first => simp at first
  | some manager =>
      rw [found] at walk
      obtain ⟨_, declared, rfl⟩ := Option.map_eq_some_iff.mp found
      exact (regular plainRole _ (role_eq_ok_iff.mpr ⟨_, declared⟩)).shorten walk

/-- The roles that are listed for a name are those that any number of single links leads to, apart from
    the name itself. -/
theorem Regular.mem_implicitRolesOf (regular : model.Regular) (name : String)
    (domain : Option String) (role : String) :
    role ∈ model.implicitRolesOf name domain ↔ role ≠ name ∧
      ∃ hops, Walk (fun name next => next ∈ model.rolesOf name domain) hops name role := by
  unfold implicitRolesOf
  rw [Search.mem_collect_iff_walk]
  refine and_congr_right fun other => ⟨fun ⟨taken, _, walk⟩ => ⟨taken, walk⟩, ?_⟩
  rintro ⟨taken, walk⟩
  exact regular.shorten walk

theorem mem_permissionsOf {subject : String} (named : subject ≠ "") (row : Row) :
    row ∈ model.permissionsOf subject none ↔
      row ∈ model.rows "p" "p" ∧ row.head? = some subject := by
  have begins : (subjectFilter subject none).picks row = true ↔ row.head? = some subject := by
    simp [subjectFilter, FieldFilter.picks_singleton, named, List.head?_eq_getElem?]
  have key : RowSection.policy.key = "p" := rfl
  unfold permissionsOf filtered rows plainPolicy
  rw [key]
  cases model.tableOrNone "p" "p" with
  | none => simp
  | some table => simp [RowTable.filtered, begins]

/-- The rows that are listed for a user are those of the user and of the listed roles, unless one of
    them has no name. -/
theorem mem_implicitPermissionsOf {user : String} (named : user ≠ "")
    (roles : ∀ role ∈ model.implicitRolesOf user none, role ≠ "") (row : Row) :
    row ∈ model.implicitPermissionsOf user none ↔ row ∈ model.rows "p" "p" ∧
      ∃ subject, row.head? = some subject ∧
        (subject = user ∨ subject ∈ model.implicitRolesOf user none) := by
  unfold implicitPermissionsOf
  rw [List.mem_eraseDups, List.mem_flatMap]
  constructor
  · rintro ⟨subject, among, listed⟩
    have some : subject ≠ "" := by
      rcases List.mem_cons.mp among with rfl | among
      · exact named
      · exact roles subject among
    obtain ⟨stored, begins⟩ := (mem_permissionsOf some row).mp listed
    exact ⟨stored, subject, begins, List.mem_cons.mp among⟩
  · rintro ⟨stored, subject, begins, among⟩
    have some : subject ≠ "" := by
      rcases among with rfl | among
      · exact named
      · exact roles subject among
    exact ⟨subject, List.mem_cons.mpr among, (mem_permissionsOf some row).mpr ⟨stored, begins⟩⟩

/-- Whether a row permits a user to do something to an object, by a role that the user has. -/
def permitsByRole (model : Model) (user object action : String) : Row → Bool
  | [role, object', action'] =>
    model.hasLink "g" user role none && (object == object' && action == action')
  | _ => false

theorem permitsByRole_iff {user object action : String} {row : Row} :
    model.permitsByRole user object action row = true ↔
      ∃ role, row = [role, object, action] ∧ model.hasLink "g" user role none = true := by
  unfold permitsByRole
  split
  · rename_i role object' action'
    simp only [Bool.and_eq_true, beq_iff_eq]
    constructor
    · rintro ⟨has, rfl, rfl⟩
      exact ⟨role, rfl, has⟩
    · rintro ⟨_, same, has⟩
      simp only [List.cons.injEq, and_true] at same
      obtain ⟨rfl, rfl, rfl⟩ := same
      exact ⟨has, rfl, rfl⟩
  · rename_i other
    simp only [Bool.false_eq_true, false_iff]
    rintro ⟨role, rfl, _⟩
    exact other role object action rfl

end Model

/-! ## Decisions -/

namespace Enforcer

variable {σ κ : Type} [PolicyStore σ] [BEq κ] {e : Enforcer σ κ}

section

variable (following : e.Following) (declares : e.model.DeclaresPlain .roleBased)
  (plain : e.model.ChecksPlainly)
include following declares plain

theorem mem_rolesOf_iff_gives (name role : String) :
    role ∈ e.model.rolesOf name none ↔ e.model.Gives name role := by
  obtain ⟨type, declared, _⟩ := declares.exists_role
  obtain ⟨_, rules, inStep⟩ := following.inStep
  have steps := declares.links_eq_gives following.reachable.wellFormed declared
  obtain ⟨text, found⟩ := Model.role_eq_ok_iff.mp declared
  have roles : e.model.rolesOf name none = type.manager.getRoles name none := by
    simp [Model.rolesOf, Model.manager?, plainRole, found]
  have knows := (inStep "g" type declared).1.knows (plain type declared)
  rw [roles, knows.mem_getRoles, type.table.leads_told, Option.getD_none, steps]

theorem hasLink_iff_gives {bound : Nat} (bounded : e.model.hopBound = some bound)
    (user role : String) :
    e.model.hasLink "g" user role none = true ↔
      ∃ hops ≤ bound, Walk e.model.Gives hops user role := by
  obtain ⟨type, declared, _⟩ := declares.exists_role
  obtain ⟨_, rules, inStep⟩ := following.inStep
  have steps := declares.links_eq_gives following.reachable.wellFormed declared
  rw [Model.hopBound_of_role declared] at bounded
  obtain rfl := Option.some.inj bounded
  rw [Model.hasLink_of_role declared, (inStep "g" type declared).1.hasLink_iff (plain type declared),
    Option.getD_none, steps]
  constructor
  · rintro (rfl | ⟨hops, _, most, walk⟩)
    · exact ⟨0, Nat.zero_le _, .stay user⟩
    · exact ⟨hops, most, walk⟩
  · rintro ⟨hops, most, walk⟩
    cases walk with
    | stay => exact .inl rfl
    | on first rest => exact .inr ⟨_, by omega, most, .on first rest⟩

/-- What is listed for a user are the rows of all roles that chains of grouping rows lead to. -/
theorem mem_listed_iff_gives (names : ∀ row ∈ e.model.rows "g" "g", "" ∉ row) {user : String}
    (named : user ≠ "") (role object action : String) :
    [role, object, action] ∈ e.model.implicitPermissionsOf user none ↔
      [role, object, action] ∈ e.model.rows "p" "p" ∧
        ∃ hops, Walk e.model.Gives hops user role := by
  have steps : (fun name next => next ∈ e.model.rolesOf name none) = e.model.Gives := by
    funext name next
    exact propext (mem_rolesOf_iff_gives following declares plain name next)
  have regular := following.reachable.remembersRightly.roles
  have listed (role : String) : role ∈ e.model.implicitRolesOf user none ↔
      role ≠ user ∧ ∃ hops, Walk e.model.Gives hops user role := by
    rw [regular.mem_implicitRolesOf, steps]
  have roles : ∀ role ∈ e.model.implicitRolesOf user none, role ≠ "" := by
    rintro role member rfl
    obtain ⟨other, hops, walk⟩ := (listed "").mp member
    have moves : 1 ≤ hops := by
      cases walk with
      | stay => exact absurd rfl other
      | on => omega
    obtain ⟨before, gives⟩ := walk.exists_last moves
    exact names _ gives (by simp)
  rw [Model.mem_implicitPermissionsOf named roles]
  refine and_congr_right fun _ => ?_
  simp only [List.head?_cons, Option.some.injEq, exists_eq_left', listed]
  constructor
  · rintro (rfl | ⟨_, chain⟩)
    · exact ⟨0, .stay role⟩
    · exact chain
  · intro chain
    by_cases same : role = user
    · exact .inl same
    · exact .inr ⟨same, chain⟩

end

theorem decide_roleBased (following : e.Following) (uncached : e.cache = none)
    (enabled : e.enabled = true) (declares : e.model.DeclaresPlain .roleBased)
    (user object action : String) :
    ∃ decision, (e.decide .plain none [.str user, .str object, .str action]).1 = .ok decision ∧
      (decision.allowed = true ↔ ∃ role, [role, object, action] ∈ e.model.rows "p" "p" ∧
        e.model.hasLink "g" user role none = true) := by
  have means (row : Row) (length : row.length = PlainTypes.roleBased.policyFields.length)
      (onRule : String → Traced Value) :
      (Expr.roleBased.interpret (e.plainScope .roleBased)
        { request := [.str user, .str object, .str action], row, roles := e.model.hasLink }
        onRule).result = .ok (.bool (e.model.permitsByRole user object action row)) := by
    match row, length with
    | [role, object', action'], _ =>
        exact result_roleBased declares ⟨rfl, rfl, rfl⟩ rfl
  refine ⟨_, following.reachable.decide_plain uncached enabled declares Expr.parse_roleBased
    (resolvesIn_roleBased declares) rfl fun row _ length onRule => means row length onRule, ?_⟩
  refine (Decision.allowed_allowOverride_iff (fun _ => rfl) _ _).trans ?_
  simp only [Model.permitsByRole_iff]
  constructor
  · rintro ⟨row, stored, role, rfl, has⟩
    exact ⟨role, stored, has⟩
  · rintro ⟨role, stored, has⟩
    exact ⟨_, stored, role, rfl, has⟩

/-- Every request is decided, and it is allowed just if a row for its object and action is listed whose
    role a chain of no more grouping rows than the bound leads to. Where there are no more grouping rows
    at all, it is allowed just if a row for its object and action is listed. -/
theorem allowed_iff_listed (following : e.Following) (uncached : e.cache = none)
    (enabled : e.enabled = true) (declares : e.model.DeclaresPlain .roleBased)
    (plain : e.model.ChecksPlainly) (names : ∀ row ∈ e.model.rows "g" "g", "" ∉ row) {user : String}
    (named : user ≠ "") {bound : Nat} (bounded : e.model.hopBound = some bound)
    (object action : String) :
    ∃ decision, (e.decide .plain none [.str user, .str object, .str action]).1 = .ok decision ∧
      (decision.allowed = true ↔
        ∃ role, [role, object, action] ∈ e.model.implicitPermissionsOf user none ∧
          ∃ hops ≤ bound, Walk e.model.Gives hops user role) ∧
      ((e.model.rows "g" "g").length ≤ bound →
        (decision.allowed = true ↔
          ∃ role, [role, object, action] ∈ e.model.implicitPermissionsOf user none)) := by
  obtain ⟨decision, decided, allowed⟩ :=
    decide_roleBased following uncached enabled declares user object action
  have listed (role : String) := mem_listed_iff_gives following declares plain names named role object
    action
  have within : decision.allowed = true ↔
      ∃ role, [role, object, action] ∈ e.model.implicitPermissionsOf user none ∧
        ∃ hops ≤ bound, Walk e.model.Gives hops user role := by
    rw [allowed]
    refine exists_congr fun role => ?_
    rw [listed, hasLink_iff_gives following declares plain bounded]
    constructor
    · rintro ⟨stored, hops, most, walk⟩
      exact ⟨⟨stored, hops, walk⟩, hops, most, walk⟩
    · rintro ⟨⟨stored, _⟩, chain⟩
      exact ⟨stored, chain⟩
  refine ⟨decision, decided, within, fun few => within.trans (exists_congr fun role => ?_)⟩
  refine and_iff_left_of_imp fun member => ?_
  -- a chain that does not come back is no longer than there are grouping rows
  obtain ⟨_, hops, walk⟩ := (listed role).mp member
  obtain ⟨fewer, short, walk'⟩ := walk.shorten_of_targets
    ((e.model.rows "g" "g").filterMap (·[1]?)).toFinset fun name next gives => by
      simpa using ⟨_, gives, rfl⟩
  refine ⟨fewer, short.trans ((List.toFinset_card_le _).trans ?_), walk'⟩
  exact (List.length_filterMap_le _ _).trans few

/-! ## A reading room -/

/-- An office with a document that readers may read. Editors are readers, and Alice is an editor. -/
def readingRoom (maxHierarchyLevel : Nat) : Setup MemoryStore (List UInt8) where
  model := office
  store :=
    ⟨[⟨"p", ["reader", "doc", "read"]⟩, ⟨"g", ["alice", "editor"]⟩,
      ⟨"g", ["editor", "reader"]⟩]⟩
  digest := id
  settings := { maxHierarchyLevel }

theorem readingRoom_of_builds {maxHierarchyLevel : Nat}
    (builds : (readingRoom maxHierarchyLevel).build.isOk = true) :
    (readingRoom maxHierarchyLevel).enforcer.Following ∧
      (readingRoom maxHierarchyLevel).enforcer.cache = none ∧
      (readingRoom maxHierarchyLevel).enforcer.model.DeclaresPlain .roleBased ∧
      (readingRoom maxHierarchyLevel).enforcer.model.ChecksPlainly := by
  have prepared : (readingRoom maxHierarchyLevel).model.Prepared := prepared_office
  have built := Setup.build_eq_enforcer builds
  exact ⟨.built prepared rfl built, uncached_of_build prepared built rfl,
    declaresPlain_of_build prepared built declaresPlain_office,
    checksPlainly_of_inStep (inStep_build prepared rfl built) rfl rfl⟩

/-- There are two grouping rows, and ten are followed. So Alice may read, as her list says. -/
theorem allowed_iff_listed_readingRoom :
    (readingRoom 10).enforcer.model.hopBound = some 10 ∧
      ["reader", "doc", "read"] ∈
        (readingRoom 10).enforcer.model.implicitPermissionsOf "alice" none ∧
      ∃ decision, ((readingRoom 10).enforcer.decide .plain none
        [.str "alice", .str "doc", .str "read"]).1 = .ok decision ∧ decision.allowed = true := by
  have observed : (readingRoom 10).build.isOk = true ∧
      (readingRoom 10).enforcer.enabled = true ∧
      (∀ row ∈ (readingRoom 10).enforcer.model.rows "g" "g", "" ∉ row) ∧
      (readingRoom 10).enforcer.model.hopBound = some 10 ∧
      ((readingRoom 10).enforcer.model.rows "g" "g").length ≤ 10 ∧
      ["reader", "doc", "read"] ∈
        (readingRoom 10).enforcer.model.implicitPermissionsOf "alice" none := by decide +kernel
  obtain ⟨builds, enabled, names, bounded, few, listed⟩ := observed
  obtain ⟨following, uncached, declares, plain⟩ := readingRoom_of_builds builds
  obtain ⟨decision, decided, _, full⟩ := allowed_iff_listed following uncached enabled declares plain
    names (by decide : "alice" ≠ "") bounded "doc" "read"
  exact ⟨bounded, listed, decision, decided, (full few).mpr ⟨"reader", listed⟩⟩

/-- Where one grouping row is followed, the list says that Alice may read, and she may not. -/
theorem listed_beyond_bound :
    (readingRoom 1).enforcer.Following ∧ (readingRoom 1).enforcer.cache = none ∧
      (readingRoom 1).enforcer.model.DeclaresPlain .roleBased ∧
      (readingRoom 1).enforcer.model.ChecksPlainly ∧ (readingRoom 1).enforcer.enabled = true ∧
      (∀ row ∈ (readingRoom 1).enforcer.model.rows "g" "g", "" ∉ row) ∧
      ["reader", "doc", "read"] ∈
        (readingRoom 1).enforcer.model.implicitPermissionsOf "alice" none ∧
      ((readingRoom 1).enforcer.decide .plain none
        [.str "alice", .str "doc", .str "read"]).1.toOption =
          some { allowed := false, explain := [] } := by
  have observed : (readingRoom 1).build.isOk = true ∧ (readingRoom 1).enforcer.enabled = true ∧
      (∀ row ∈ (readingRoom 1).enforcer.model.rows "g" "g", "" ∉ row) ∧
      ["reader", "doc", "read"] ∈
        (readingRoom 1).enforcer.model.implicitPermissionsOf "alice" none ∧
      ((readingRoom 1).enforcer.decide .plain none
        [.str "alice", .str "doc", .str "read"]).1.toOption =
          some { allowed := false, explain := [] } := by decide +kernel
  obtain ⟨builds, enabled, names, listed, refused⟩ := observed
  obtain ⟨following, uncached, declares, plain⟩ := readingRoom_of_builds builds
  exact ⟨following, uncached, declares, plain, enabled, names, listed, refused⟩

end Enforcer

end AccessControl

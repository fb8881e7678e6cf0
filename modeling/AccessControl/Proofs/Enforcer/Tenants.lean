import AccessControl.Proofs.Enforcer.PlainContext
import AccessControl.Proofs.Enforcer.RoundTrip

/-! # Tenants do not see each other

Where roles are had in domains, and a row permits something in its own domain only, a decision in a
domain depends on nothing but the rows of that domain: on the policy rows with their order, and on the
grouping rows as a set. What is done to the rows of other domains does not show.
-/

namespace AccessControl

/-! ## Permissions in domains -/

/-- Users have roles in domains, and roles may act on the objects of domains. A policy row may have
    further fields, such as a priority and an effect. -/
structure PlainTypes.Tenants (types : PlainTypes) : Prop where
  request : types.requestFields = ["sub", "dom", "obj", "act"]
  policy : ∀ name ∈ ["sub", "dom", "obj", "act"], name ∈ types.policyFields
  roleArity : types.roleArity = 3
  effect : types.effect ≠ .denyOverride
  matcher : types.matcher =
    "g(r.sub, p.sub, r.dom) && r.dom == p.dom && r.obj == p.obj && r.act == p.act"

/-- Whether a policy row is of a domain. -/
def PlainTypes.isOf (types : PlainTypes) (domain : String) (row : Row) : Bool :=
  valueNamed? types.policyFields row "dom" == some domain

/-- Whether a policy row permits something, given who has which role in the domain. -/
def PlainTypes.permits (types : PlainTypes) (has : String → String → Bool)
    (user domain object action : String) (row : Row) : Bool :=
  let text := textNamed types.policyFields row
  has user (text "sub") && (domain == text "dom" && (object == text "obj" && action == text "act"))

namespace Expr

def tenantBased : Expr :=
  andSameFields (.call "g" [requestField "sub" 2, policyField "sub" 9, requestField "dom" 16] 0)
    [("dom", 26, 35), ("obj", 44, 53), ("act", 62, 71)]

set_option maxRecDepth 2000 in
theorem parse_tenantBased :
    Expr.parse "g(r.sub, p.sub, r.dom) && r.dom == p.dom && r.obj == p.obj && r.act == p.act" =
      .ok tenantBased := by rfl

end Expr

namespace Enforcer

variable {σ κ : Type} {e : Enforcer σ κ} {types : PlainTypes} (tenants : types.Tenants)
include tenants

theorem tenantField {name : String} (member : name ∈ ["sub", "dom", "obj", "act"]) :
    name ∈ (e.plainScope types).requestFields ∧ name ∈ (e.plainScope types).policyFields := by
  refine ⟨?_, tenants.policy name member⟩
  show name ∈ types.requestFields
  rw [tenants.request]
  exact member

theorem tenantFields (field : String × Nat × Nat)
    (member : field ∈ [("dom", 26, 35), ("obj", 44, 53), ("act", 62, 71)]) :
    field.1 ∈ (e.plainScope types).requestFields ∧ field.1 ∈ (e.plainScope types).policyFields := by
  simp only [List.mem_cons, List.not_mem_nil, or_false] at member
  rcases member with rfl | rfl | rfl <;> exact tenantField tenants (by simp)

variable (declares : e.model.DeclaresPlain types)
include declares

theorem resolvesIn_tenantBased : Expr.tenantBased.ResolvesIn (e.plainScope types) := by
  have plain := e.plainScope_isPlain types
  refine Expr.resolvesIn_andSameFields plain
    (Expr.resolvesIn_roleCheck 0 declares.lookup_roleArities (by simp)
      (by simp [tenants.roleArity]) ?_) (tenantFields tenants)
  intro arg member
  simp only [List.mem_cons, List.not_mem_nil, or_false] at member
  rcases member with rfl | rfl | rfl
  · exact Expr.resolvesIn_requestField plain 2 (tenantField tenants (by simp)).1
  · exact Expr.resolvesIn_policyField plain 9 (tenantField tenants (by simp)).2
  · exact Expr.resolvesIn_requestField plain 16 (tenantField tenants (by simp)).1

/-- A row permits what is asked for if it is of the same domain, object and action, and of a role that
    the user has in that domain. -/
theorem result_tenantBased {env : Bindings} {onRule : String → Traced Value}
    {user domain object action : String}
    (binds : (e.plainScope types).Binds [user, domain, object, action] env) :
    (Expr.tenantBased.interpret (e.plainScope types) env onRule).result =
      .ok (.bool (types.permits (fun name role => env.roles "g" name role (some domain)) user domain
        object action env.row)) := by
  have plain := e.plainScope_isPlain types
  have subject : ((Expr.requestField "sub" 2).interpret (e.plainScope types) env onRule).result =
      .ok (.str _) := Expr.result_requestField plain binds "sub" 2 (tenantField tenants (by simp)).1
  have role : ((Expr.policyField "sub" 9).interpret (e.plainScope types) env onRule).result =
      .ok (.str _) := Expr.result_policyField plain binds "sub" 9 (tenantField tenants (by simp)).2
  have place : ((Expr.requestField "dom" 16).interpret (e.plainScope types) env onRule).result =
      .ok (.str _) := Expr.result_requestField plain binds "dom" 16 (tenantField tenants (by simp)).1
  have check := Expr.result_roleCheckIn 0 declares.lookup_roleArities
    (by rw [tenants.roleArity]) subject role place
  have fields : (e.plainScope types).requestFields = ["sub", "dom", "obj", "act"] := tenants.request
  rw [Expr.tenantBased, Expr.result_andSameFields plain binds _ check (tenantFields tenants), fields]
  simp [PlainTypes.permits, textNamed, valueNamed?, plainScope]

end Enforcer

/-! ## States -/

/-- The bound of the plain role type on chains of roles. -/
def Model.hopBound (model : Model) : Option Nat := (model.manager? "g").map (·.maxLevel)

/-- Two models have the same policy rows of a domain, in the same order, and the same grouping rows. -/
structure PlainTypes.SameTenant (types : PlainTypes) (domain : String) (model model' : Model) :
    Prop where
  policy : (model'.rows "p" "p").filter (types.isOf domain) =
    (model.rows "p" "p").filter (types.isOf domain)
  roles : ∀ row, row[2]? = some domain → (row ∈ model'.rows "g" "g" ↔ row ∈ model.rows "g" "g")

namespace PlainTypes.SameTenant

variable {types : PlainTypes} {domain : String} {model model' model'' : Model}

theorem refl (types : PlainTypes) (domain : String) (model : Model) :
    types.SameTenant domain model model := ⟨rfl, fun _ _ => .rfl⟩

theorem trans (same : types.SameTenant domain model model')
    (same' : types.SameTenant domain model' model'') : types.SameTenant domain model model'' :=
  ⟨same'.policy.trans same.policy, fun row place =>
    (same'.roles row place).trans (same.roles row place)⟩

end PlainTypes.SameTenant

/-- A mutation touches no row of a domain. -/
def Mutation.Spares (types : PlainTypes) (domain : String) (model : Model) (mutation : Mutation) :
    Prop :=
  (∀ row, mutation.Touches model .policy "p" row → types.isOf domain row = false) ∧
    ∀ row, mutation.Touches model .role "g" row → row[2]? ≠ some domain

theorem Model.hopBound_of_role {model : Model} {role : RoleType}
    (declared : model.role "g" = .ok role) : model.hopBound = some role.manager.maxLevel := by
  obtain ⟨_, found⟩ := role_eq_ok_iff.mp declared
  simp [hopBound, manager?, found]

namespace Enforcer

variable {σ κ σ' κ' : Type} [PolicyStore σ] [BEq κ] [PolicyStore σ'] [BEq κ'] {e : Enforcer σ κ}
  {e' : Enforcer σ' κ'} {types : PlainTypes}

/-- An enforcer of tenants: its links have followed the rows, it has no cache, and names and domains
    stand for themselves only. -/
structure KeepsTenants (types : PlainTypes) (e : Enforcer σ κ) : Prop where
  following : e.Following
  uncached : e.cache = none
  declares : e.model.DeclaresPlain types
  plain : e.model.ChecksPlainly

omit [PolicyStore σ] [BEq κ] in
theorem enable_model (e : Enforcer σ κ) (enabled : Bool) : (e.enable enabled).model = e.model := rfl

/-- Two enforcers come to the same decisions about all requests of texts in a domain. -/
def DecideAlike (domain : String) (e : Enforcer σ κ) (e' : Enforcer σ' κ') : Prop :=
  ∀ user object action, ∃ decision,
    (e.decide .plain none [.str user, .str domain, .str object, .str action]).1 = .ok decision ∧
      (e'.decide .plain none [.str user, .str domain, .str object, .str action]).1 = .ok decision

namespace KeepsTenants

variable {domain : String}

/-- Roles in a domain depend on the grouping rows of that domain. -/
theorem hasLink_congr (keeps : e.KeepsTenants types) (keeps' : e'.KeepsTenants types)
    (tenants : types.Tenants) (bound : e'.model.hopBound = e.model.hopBound)
    (same : types.SameTenant domain e.model e'.model) (name role : String) :
    e'.model.hasLink "g" name role (some domain) = e.model.hasLink "g" name role (some domain) := by
  obtain ⟨type, declared, arity⟩ := keeps.declares.exists_role
  obtain ⟨type', declared', arity'⟩ := keeps'.declares.exists_role
  obtain ⟨_, _, inStep⟩ := keeps.following.inStep
  obtain ⟨_, _, inStep'⟩ := keeps'.following.inStep
  have stepped := (inStep "g" type declared).1
  have stepped' := And.left <| inStep' "g" type' declared'
  have well := (keeps.following.reachable.wellFormed.role declared).1
  have well' := (keeps'.following.reachable.wellFormed.role declared').1
  have links : type'.table.Links domain = type.table.Links domain := by
    funext subject role
    have rows := same.roles [subject, role, domain] rfl
    rw [Model.rows_of_role declared, Model.rows_of_role declared'] at rows
    rw [eq_iff_iff, well.links_iff (arity.trans tenants.roleArity),
      well'.links_iff (arity'.trans tenants.roleArity), rows]
  rw [Model.hopBound_of_role declared, Model.hopBound_of_role declared'] at bound
  rw [Model.hasLink_of_role declared, Model.hasLink_of_role declared']
  have links' : type'.table.Links ((some domain).getD defaultDomain) =
      type.table.Links ((some domain).getD defaultDomain) := links
  exact stepped.hasLink_congr (keeps.plain type declared) stepped'
    (keeps'.plain type' declared') (Option.some.inj bound) links' name role

theorem decide_eq (keeps : e.KeepsTenants types) (tenants : types.Tenants)
    (user object action : String) :
    (e.decide .plain none [.str user, .str domain, .str object, .str action]).1 =
      .ok (if e.enabled then
          types.effect.settle types.effectOf []
            (((e.model.rows "p" "p").filter (types.isOf domain)).filter
              (types.permits (fun name role => e.model.hasLink "g" name role (some domain)) user
                domain object action))
        else allowed) := by
  cases enabled : e.enabled with
  | false =>
      unfold Enforcer.decide
      rw [enabled]
      rfl
  | true =>
      let permits := types.permits (fun name role => e.model.hasLink "g" name role (some domain)) user
        domain object action
      have requestLength : [user, domain, object, action].length = types.requestFields.length := by
        rw [tenants.request]
        rfl
      have means : ∀ row ∈ e.model.rows "p" "p", row.length = types.policyFields.length →
          ∀ onRule, (Expr.tenantBased.interpret (e.plainScope types)
            { request := [.str user, .str domain, .str object, .str action], row,
              roles := e.model.hasLink } onRule).result = .ok (.bool (permits row)) :=
        fun row _ length onRule =>
          result_tenantBased tenants keeps.declares ⟨rfl, requestLength, length⟩
      have decided := keeps.following.reachable.decide_plain keeps.uncached enabled keeps.declares
        (tenants.matcher ▸ Expr.parse_tenantBased) (resolvesIn_tenantBased tenants keeps.declares)
        requestLength means
      -- a row that permits something is of the domain
      have within : (e.model.rows "p" "p").filter permits =
          ((e.model.rows "p" "p").filter (types.isOf domain)).filter permits := by
        rw [List.filter_filter]
        refine List.filter_congr fun row stored => ?_
        have length := keeps.declares.length_of_mem keeps.following.reachable.wellFormed stored
        have place := valueNamed?_eq_some length (tenants.policy "dom" (by simp))
        cases granted : permits row with
        | false => rfl
        | true =>
            simp only [permits, PlainTypes.permits, Bool.and_eq_true, beq_iff_eq] at granted
            rw [PlainTypes.isOf, place, ← granted.2.1]
            simp
      rw [decided, Decision.ofOutcome_combine_filter tenants.effect, if_pos rfl, within]

/-- Enforcers with the same rows of a domain decide alike there. -/
theorem decide_congr (keeps : e.KeepsTenants types) (keeps' : e'.KeepsTenants types)
    (tenants : types.Tenants) (enabled : e'.enabled = e.enabled)
    (bound : e'.model.hopBound = e.model.hopBound)
    (same : types.SameTenant domain e.model e'.model) : DecideAlike domain e e' := by
  intro user object action
  refine ⟨_, keeps.decide_eq tenants user object action, ?_⟩
  have has : (fun name role => e'.model.hasLink "g" name role (some domain)) =
      fun name role => e.model.hasLink "g" name role (some domain) := by
    funext name role
    exact keeps.hasLink_congr keeps' tenants bound same name role
  rw [keeps'.decide_eq tenants, enabled, same.policy, has]

/-! ## Operations -/

theorem mutate (keeps : e.KeepsTenants types) (mutation : Mutation) :
    (e.mutate mutation).2.KeepsTenants types ∧
      (e.mutate mutation).2.enabled = e.enabled ∧
      (e.mutate mutation).2.model.hopBound = e.model.hopBound := by
  have h := keeps.following.reachable.wellFormed
  obtain ⟨follows, rules, inStep⟩ := keeps.following.inStep
  have inStep' := inStep_mutate h follows inStep mutation
  have declares' := (moved_mutate h mutation).move.declaresPlain h keeps.declares
  obtain ⟨type, declared, _⟩ := keeps.declares.exists_role
  have kept (type' : RoleType) (declared' : (e.mutate mutation).2.model.role "g" = .ok type') :
      type'.rules = type.rules := by
    have ruled := (inStep "g" type declared).2
    have ruled' := And.right <| inStep' "g" type' declared'
    exact ruled'.trans ruled.symm
  refine ⟨⟨keeps.following.step (.mutate mutation), cache_mutate keeps.uncached mutation, declares',
    fun type' declared' => ?_⟩, ?_, ?_⟩
  · exact (keeps.plain type declared).congr (kept type' declared')
  · obtain ⟨_, _, _, _, same⟩ := mutate_eq h mutation
    rw [same]
  · obtain ⟨type', declared', _⟩ := declares'.exists_role
    have hops := congrArg RoleRules.maxLevel (kept type' declared')
    rw [Model.hopBound_of_role declared, Model.hopBound_of_role declared']
    exact congrArg some hops

theorem enable (keeps : e.KeepsTenants types) (enabled : Bool) :
    (e.enable enabled).KeepsTenants types where
  following := keeps.following.step (.enable enabled)
  uncached := keeps.uncached
  declares := keeps.declares
  plain := keeps.plain

end KeepsTenants

omit [BEq κ] in
theorem sameTenant_mutate (h : e.model.WellFormed) {domain : String} {mutation : Mutation}
    (spares : mutation.Spares types domain e.model) :
    types.SameTenant domain e.model (e.mutate mutation).2.model := by
  refine ⟨filter_rows_mutate h spares.1, fun row place => ?_⟩
  have untouched : ∀ row, mutation.Touches e.model .role "g" row →
      (row[2]? == some domain) = false :=
    fun row touched => beq_eq_false_iff_ne.mpr (spares.2 row touched)
  have kept : ((e.mutate mutation).2.model.rows "g" "g").filter (·[2]? == some domain) =
      (e.model.rows "g" "g").filter (·[2]? == some domain) := filter_rows_mutate h untouched
  have member : row ∈ ((e.mutate mutation).2.model.rows "g" "g").filter (·[2]? == some domain) ↔
      row ∈ (e.model.rows "g" "g").filter (·[2]? == some domain) := by rw [kept]
  simpa [List.mem_filter, place] using member

/-- The state after several mutations, whatever they answer. -/
def mutateAll (e : Enforcer σ κ) (mutations : List Mutation) : Enforcer σ κ :=
  mutations.foldl (fun e mutation => (e.mutate mutation).2) e

/-- None of several mutations touches a row of a domain where it is made. -/
def Spares (types : PlainTypes) (domain : String) : Enforcer σ κ → List Mutation → Prop
  | _, [] => True
  | e, mutation :: rest =>
    mutation.Spares types domain e.model ∧ Spares types domain (e.mutate mutation).2 rest

theorem KeepsTenants.mutateAll {domain : String} {mutations : List Mutation}
    (keeps : e.KeepsTenants types) (spares : Spares types domain e mutations) :
    (e.mutateAll mutations).KeepsTenants types ∧
      (e.mutateAll mutations).enabled = e.enabled ∧
      (e.mutateAll mutations).model.hopBound = e.model.hopBound ∧
      types.SameTenant domain e.model (e.mutateAll mutations).model := by
  induction mutations generalizing e with
  | nil => exact ⟨keeps, rfl, rfl, .refl types domain e.model⟩
  | cons mutation rest ih =>
      obtain ⟨first, others⟩ := spares
      obtain ⟨keeps', enabled, bound⟩ := keeps.mutate mutation
      have same := sameTenant_mutate keeps.following.reachable.wellFormed first
      obtain ⟨last, enabled', bound', same'⟩ := ih keeps' others
      exact ⟨last, enabled'.trans enabled, bound'.trans bound, same.trans same'⟩

/-- Two enforcers, both of which are enabled or neither of which is, have the same rows of a domain: then
    they decide alike there. So no mutations of rows of other domains change a decision there. -/
theorem tenants_apart (tenants : types.Tenants) (keeps : e.KeepsTenants types) (domain : String) :
    (∀ (σ' κ' : Type) [PolicyStore σ'] [BEq κ'] (e' : Enforcer σ' κ'), e'.KeepsTenants types →
      e'.enabled = e.enabled → e'.model.hopBound = e.model.hopBound →
        types.SameTenant domain e.model e'.model → DecideAlike domain e e') ∧
      ∀ mutations, Spares types domain e mutations → DecideAlike domain e (e.mutateAll mutations) := by
  constructor
  · intro σ' κ' _ _ e' keeps' enabled bound same
    exact keeps.decide_congr keeps' tenants enabled bound same
  · intro mutations spares
    obtain ⟨keeps', enabled, bound, same⟩ := keeps.mutateAll spares
    exact keeps.decide_congr keeps' tenants enabled bound same

/-! ## Houses -/

/-- Rows with priorities and labels. -/
def ranked : PlainTypes where
  requestFields := ["sub", "dom", "obj", "act"]
  policyFields := ["priority", "sub", "dom", "obj", "act", "eft"]
  roleArity := 3
  effect := .priority
  matcher := "g(r.sub, p.sub, r.dom) && r.dom == p.dom && r.obj == p.obj && r.act == p.act"

theorem tenants_ranked : ranked.Tenants where
  request := rfl
  policy := by decide
  roleArity := rfl
  effect := by decide
  matcher := rfl

/-- Houses with rows of their own. -/
def housing : Model :=
  let definitions :=
    [("r", "r", "sub, dom, obj, act"), ("p", "p", "priority, sub, dom, obj, act, eft"),
      ("g", "g", "_, _, _"), ("e", "e", EffectKind.priority.expression), ("m", "m", ranked.matcher)]
  (Model.ofDefinitions definitions).toOption.getD {}

theorem prepared_housing : housing.Prepared := by
  unfold housing
  exact .ofDefinitions_getD _

theorem declaresPlain_housing : housing.DeclaresPlain ranked := by decide +kernel

/-- Houses whose rows are kept in memory. -/
def houses (lines : List PolicyLine) : Setup MemoryStore (List UInt8) where
  model := housing
  store := ⟨lines⟩
  digest := id

theorem keepsTenants_houses {lines : List PolicyLine} (builds : (houses lines).build.isOk = true) :
    (houses lines).enforcer.KeepsTenants ranked := by
  have prepared : (houses lines).model.Prepared := prepared_housing
  have built : (houses lines).build = .ok (houses lines).enforcer := Setup.build_eq_enforcer builds
  exact
    { following := .built prepared rfl built
      uncached := uncached_of_build prepared built rfl
      declares := declaresPlain_of_build prepared built declaresPlain_housing
      plain := checksPlainly_of_inStep (inStep_build prepared rfl built) rfl rfl }

def north : List PolicyLine :=
  [⟨"p", ["2", "owner", "north", "door", "open", "allow"]⟩, ⟨"g", ["alice", "owner", "north"]⟩]

def south : List PolicyLine :=
  [⟨"p", ["1", "owner", "south", "door", "open", "deny"]⟩, ⟨"g", ["alice", "owner", "south"]⟩]

/-- In the south a row is added in front of all others, and Alice moves out. -/
def southern : List Mutation :=
  [.rows .policy "p" (.add ["0", "alice", "south", "door", "open", "deny"]),
    .rows .role "g" (.remove ["alice", "owner", "south"])]

theorem spares_southern (e : Enforcer MemoryStore (List UInt8)) :
    Spares ranked "north" e southern := by
  simp [Spares, southern, Mutation.Spares, Mutation.Touches, RowChange.touched, PlainTypes.isOf,
    ranked, valueNamed?]

/-- Neither the rows of the south nor what is done to them shows in the north. -/
theorem tenants_apart_houses :
    ((houses (south ++ north)).enforcer.decide .plain none
        [.str "alice", .str "north", .str "door", .str "open"]).1.toOption =
        some { allowed := true, explain := [["2", "owner", "north", "door", "open", "allow"]] } ∧
      DecideAlike "north" (houses (south ++ north)).enforcer (houses north).enforcer ∧
      DecideAlike "north" (houses (south ++ north)).enforcer
        ((houses (south ++ north)).enforcer.mutateAll southern) := by
  have observed : (houses (south ++ north)).build.isOk = true ∧ (houses north).build.isOk = true ∧
      (houses north).enforcer.enabled = (houses (south ++ north)).enforcer.enabled ∧
      (houses north).enforcer.model.hopBound = (houses (south ++ north)).enforcer.model.hopBound ∧
      ((houses north).enforcer.model.rows "p" "p").filter (ranked.isOf "north") =
        ((houses (south ++ north)).enforcer.model.rows "p" "p").filter (ranked.isOf "north") ∧
      (houses north).enforcer.model.rows "g" "g" = [["alice", "owner", "north"]] ∧
      (houses (south ++ north)).enforcer.model.rows "g" "g" =
        [["alice", "owner", "south"], ["alice", "owner", "north"]] ∧
      ((houses (south ++ north)).enforcer.decide .plain none
        [.str "alice", .str "north", .str "door", .str "open"]).1.toOption =
          some { allowed := true, explain := [["2", "owner", "north", "door", "open", "allow"]] } := by
    decide +kernel
  obtain ⟨builds, builds', enabled, bound, policy, rows, rows', decision⟩ := observed
  have same : ranked.SameTenant "north" (houses (south ++ north)).enforcer.model
      (houses north).enforcer.model := by
    refine ⟨policy, fun row place => ?_⟩
    rw [rows, rows']
    have northern : row ≠ ["alice", "owner", "south"] := by
      rintro rfl
      simp at place
    simp [northern]
  obtain ⟨others, mutations⟩ := tenants_apart tenants_ranked (keepsTenants_houses builds) "north"
  exact ⟨decision, others _ _ _ (keepsTenants_houses builds') enabled bound same,
    mutations southern (spares_southern _)⟩

/-- Once requests are not decided at all, also the rows of a domain do not matter: everything is
    allowed there. -/
theorem tenants_apart_but_for_disabled :
    ranked.Tenants ∧ (houses north).enforcer.KeepsTenants ranked ∧
      ((houses north).enforcer.enable false).KeepsTenants ranked ∧
      ((houses north).enforcer.enable false).model.hopBound =
        (houses north).enforcer.model.hopBound ∧
      ranked.SameTenant "north" (houses north).enforcer.model
        ((houses north).enforcer.enable false).model ∧
      ((houses north).enforcer.decide .plain none
        [.str "bob", .str "north", .str "door", .str "open"]).1.toOption =
          some { allowed := false, explain := [] } ∧
      (((houses north).enforcer.enable false).decide .plain none
        [.str "bob", .str "north", .str "door", .str "open"]).1.toOption =
          some { allowed := true, explain := [] } := by
  have observed : (houses north).build.isOk = true ∧
      ((houses north).enforcer.decide .plain none
        [.str "bob", .str "north", .str "door", .str "open"]).1.toOption =
          some { allowed := false, explain := [] } ∧
      (((houses north).enforcer.enable false).decide .plain none
        [.str "bob", .str "north", .str "door", .str "open"]).1.toOption =
          some { allowed := true, explain := [] } := by decide +kernel
  obtain ⟨builds, denied, allowed⟩ := observed
  have keeps : (houses north).enforcer.KeepsTenants ranked := keepsTenants_houses builds
  refine ⟨tenants_ranked, keeps, keeps.enable false, ?_, ?_, denied, allowed⟩
  · rw [enable_model]
  · rw [enable_model]
    exact .refl ranked "north" _

end Enforcer

end AccessControl

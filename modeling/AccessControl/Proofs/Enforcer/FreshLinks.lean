import AccessControl.Proofs.Enforcer.Loading
import AccessControl.Proofs.Enforcer.RoleLinks
import AccessControl.Proofs.Roles.Links

/-! # The links of an enforcer that has just been set up

Setting up builds the links of the rows that the model already holds, and then puts the rows of the
store in their place. Only where links follow the rows are they built once more. Otherwise the links
of the old rows stay, also those that no new row stands for.
-/

namespace AccessControl

namespace Model

/-- Every role type has just the links of some rows. -/
def LinkedTo (rows : String → List Row) (model : Model) : Prop :=
  model.EachRole fun type role =>
    role.manager.Regular ∧ ∀ link, role.manager.Has link ↔ link.In (rows type)

variable {rows : String → List Row} {model model' : Model}

theorem LinkedTo.clear (linked : model.LinkedTo rows) : model.clear.LinkedTo rows :=
  EachRole.clear linked fun _ _ _ kept => kept

theorem LinkedTo.load (linked : model.LinkedTo rows) (lines : List PolicyLine) :
    (model.load lines).2.LinkedTo rows :=
  EachRole.load linked (fun _ _ _ kept => kept) lines

theorem InStep.linkedTo {rules : String → RoleRules} (inStep : model.InStep rules) :
    model.LinkedTo (model.rows "g") := by
  intro type role declared
  obtain ⟨stepped, _⟩ := inStep type role declared
  rw [rows_of_role declared]
  exact ⟨stepped.regular, stepped.links⟩

theorem WellFormed.linkedTo_buildLinks (h : model.WellFormed) :
    model.buildLinks.2.LinkedTo (model.buildLinks.2.rows "g") := by
  obtain ⟨rules, ruled⟩ := exists_ruled model
  exact (ruled.buildLinks h).linkedTo

theorem WellFormed.linkedTo_resetManagers (h : model.WellFormed) {maxLevel : Nat}
    (reset : Setup.resetManagers maxLevel model (model.types .role) = .ok model') :
    model'.LinkedTo (model.rows "g") := by
  have each : model.EachRole fun type role =>
      (role.table.WellFormed ∧ 2 ≤ role.table.arity) ∧
        role.table.rows = model.rows "g" type :=
    fun type role declared => ⟨h.role declared, (rows_of_role declared).symm⟩
  have renewed := each.modifyAll (·.linkedIn (.empty .indexed maxLevel))
    (Q := fun _ role => role.InStep)
    fun type role ⟨⟨well, arity⟩, kept⟩ =>
      ⟨⟨⟨well, arity⟩, kept⟩, (RoleType.inStep_buildLinks
        { role with manager := .empty .indexed maxLevel } well arity).1⟩
  rw [Enforcer.resetManagers_eq h reset] at renewed
  intro type role declared
  obtain ⟨⟨_, kept⟩, stepped⟩ := renewed type role declared
  exact ⟨stepped.regular, fun link => kept ▸ stepped.links link⟩

end Model

/-- Every link that a role type has stored is the link of a stored row. -/
def RoleType.Backed (role : RoleType) : Prop :=
  ∀ link ∈ role.manager.links, link.In role.table.rows

namespace Enforcer

variable {σ κ : Type} [PolicyStore σ]

/-- Loading leaves the links alone unless they follow the rows. -/
theorem linkedTo_loadPolicy {e e' : Enforcer σ κ} (h : e.model.WellFormed)
    {rows : String → List Row} (linked : e.model.LinkedTo rows)
    (loaded : e.loadPolicy = (.ok (), e')) :
    e'.model.LinkedTo (if e.settings.autoBuildRoleLinks then e'.model.rows "g"
      else rows) := by
  unfold loadPolicy at loaded
  split at loaded
  · simp at loaded
  · split at loaded
    · simp at loaded
    · rename_i lines _ _ _
      rw [replaceRows_eq h] at loaded
      split at loaded
      · simp at loaded
      · obtain ⟨_, rfl⟩ := Prod.mk.inj loaded
        cases follows : e.settings.autoBuildRoleLinks with
        | true => exact (h.clear.load lines).1.linkedTo_buildLinks
        | false => exact linked.clear.load lines

/-- When an enforcer has been set up, its rows are those of the store. While links follow the rows,
    the stored links are just those of the stored rows. Otherwise they are those of the rows that
    the model held before; then all of them are backed by stored rows exactly if the rows of the
    store stand for each of them as well. -/
theorem build_links {setup : Setup σ κ} {e : Enforcer σ κ} (prepared : setup.model.Prepared)
    (built : setup.build = .ok e) :
    ∃ lines, PolicyStore.load setup.store = .ok lines ∧
      ∀ type role, e.model.role type = .ok role →
        (∀ row, row ∈ role.table.rows ↔ row ∈ PolicyLine.rowsOf type lines) ∧
        (∀ link : RoleLink, link ∈ role.manager.links ↔ link.In
          (if setup.settings.autoBuildRoleLinks then role.table.rows
            else setup.model.rows "g" type)) ∧
        (role.Backed ↔ setup.settings.autoBuildRoleLinks = true ∨
          ∀ link : RoleLink, link.In (setup.model.rows "g" type) →
            link.In role.table.rows) := by
  obtain ⟨_, model, matchers, reset, _, loaded⟩ := build_eq_ok_iff.mp built
  have proper := proper_of_resetManagers prepared reset
  have linked := linkedTo_loadPolicy (e := { setup.initial model with matchers }) proper.well
    (prepared.wellFormed.linkedTo_resetManagers reset) loaded
  obtain ⟨lines, given, rows⟩ :=
    mem_rows_loadPolicy (e := { setup.initial model with matchers }) proper loaded
  refine ⟨lines, given, fun type role declared => ?_⟩
  obtain ⟨regular, has⟩ := linked type role declared
  have links (link : RoleLink) : link ∈ role.manager.links ↔ link.In
      (if setup.settings.autoBuildRoleLinks then role.table.rows
        else setup.model.rows "g" type) := by
    rw [regular.mem_links, has]
    show link.In ((if setup.settings.autoBuildRoleLinks then _ else _ : String → List Row) type) ↔ _
    cases setup.settings.autoBuildRoleLinks with
    | true => rw [if_pos rfl, if_pos rfl, Model.rows_of_role declared]
    | false => exact Iff.rfl
  refine ⟨rows .role type role.table (Model.table?_role declared), links, ?_⟩
  unfold RoleType.Backed
  simp only [links]
  cases setup.settings.autoBuildRoleLinks <;> simp

/-! ## A guest list from before -/

/-- A guest list on which Alice was an administrator. The store holds what administrators may do,
    and does not know of her. -/
def formerAdmin (follows : Bool) : Setup MemoryStore (List UInt8) :=
  let definitions :=
    [("r", "r", "sub"), ("p", "p", "sub"), ("g", "g", "_, _"),
      ("e", "e", EffectKind.allowOverride.expression), ("m", "m", "g(r.sub, p.sub)")]
  { model := (((Model.ofDefinitions definitions).toOption.getD {}).load
      [⟨"g", ["alice", "admin"]⟩]).2
    store := ⟨[⟨"p", ["admin"]⟩]⟩
    digest := id
    settings := { autoBuildRoleLinks := follows } }

theorem prepared_formerAdmin (follows : Bool) : (formerAdmin follows).model.Prepared :=
  .load _ (.ofDefinitions_getD _)

/-- Where links follow the rows, the administrator from before is none any more. -/
theorem build_links_formerAdmin :
    (formerAdmin true).build = .ok (formerAdmin true).enforcer ∧
      ∃ role, (formerAdmin true).enforcer.model.role "g" = .ok role ∧ role.Backed ∧
        role.manager.links = [] := by
  have built : (formerAdmin true).build = .ok (formerAdmin true).enforcer :=
    Setup.build_eq_enforcer (by decide +kernel)
  have observed : ((formerAdmin true).enforcer.model.role "g").toOption.map
      (·.manager.links) = some [] := by decide +kernel
  cases declared : (formerAdmin true).enforcer.model.role "g" with
  | error error => simp [declared, Except.toOption] at observed
  | ok role =>
      obtain ⟨_, _, each⟩ := build_links (prepared_formerAdmin true) built
      obtain ⟨_, _, backed⟩ := each "g" role declared
      rw [declared] at observed
      exact ⟨built, role, rfl, backed.mpr (.inl rfl), Option.some.inj observed⟩

/-- Where they do not, she stays one, without a row that says so, and may come in. -/
theorem formerAdmin_stays :
    (formerAdmin false).build = .ok (formerAdmin false).enforcer ∧
      (∃ role, (formerAdmin false).enforcer.model.role "g" = .ok role ∧ role.table.rows = [] ∧
        ¬role.Backed) ∧
      (((formerAdmin false).enforcer.decide .plain none [.str "alice"]).1.map
        (·.allowed)).toOption = some true := by
  have built : (formerAdmin false).build = .ok (formerAdmin false).enforcer :=
    Setup.build_eq_enforcer (by decide +kernel)
  have observed : ((formerAdmin false).enforcer.model.role "g").toOption.map (fun role =>
      (role.table.rows, role.manager.links)) =
        some ([], [{ subject := "alice", role := "admin", domain := defaultDomain }]) := by
    decide +kernel
  refine ⟨built, ?_, by decide +kernel⟩
  cases declared : (formerAdmin false).enforcer.model.role "g" with
  | error error => simp [declared, Except.toOption] at observed
  | ok role =>
      rw [declared] at observed
      obtain ⟨rows, links⟩ := Prod.mk.inj (Option.some.inj observed)
      refine ⟨role, rfl, rows, fun backed => ?_⟩
      obtain ⟨row, stored, _⟩ := backed _ (links ▸ List.mem_singleton_self _)
      simp [rows] at stored

end Enforcer

end AccessControl

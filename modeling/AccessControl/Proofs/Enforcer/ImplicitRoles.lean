import AccessControl.Proofs.Enforcer.Permissions
import AccessControl.Proofs.Roles.Queue

/-! # Implicit roles

The implicit roles of a name are those that single links lead to, one after another. Links may go round
in circles, and a link from a pattern is a link from every name that the pattern matches. Still there are
no more roles to come to than links, so the loop that follows them from name to name ends, and what it
has met is in order of distance.
-/

namespace AccessControl

namespace Model

/-- A name has a role by a single link. -/
def Assigns (model : Model) (domain : Option String) (name role : String) : Prop :=
  role ∈ model.rolesOf name domain

/-- No walk is so long that a longer search would collect more. -/
theorem Regular.worksOff_implicitRolesOf {model : Model} (regular : model.Regular) (name : String)
    (domain : Option String) :
    Search.WorksOff (fun name => model.rolesOf name domain) [name] [name]
      (model.implicitRolesOf name domain) := by
  refine Search.worksOff_collect fun role member => ?_
  obtain ⟨other, taken, _, walk⟩ := (Search.mem_collect_iff_walk _ _ name role).mp member
  exact (Search.mem_collect_iff_walk _ _ name role).mpr ⟨other, regular.shorten walk⟩

end Model

namespace Enforcer

variable {σ κ : Type} [PolicyStore σ] [BEq κ] {e : Enforcer σ κ}

/-- The loop over single links ends, and what it meets are the implicit roles. Each of them is listed
    once. They are the roles, other than the name, that some number of single links leads to, and a role
    is not listed before a nearer one. -/
theorem implicitRolesOf_closure (reachable : e.Reachable) (name : String) (domain : Option String) :
    (∀ roles, Search.WorksOff (fun name => e.model.rolesOf name domain) [name] [name] roles ↔
        roles = e.model.implicitRolesOf name domain) ∧
      (e.model.implicitRolesOf name domain).Nodup ∧
      (∀ role, role ∈ e.model.implicitRolesOf name domain ↔
        role ≠ name ∧ ∃ hops ≥ 1, Walk (e.model.Assigns domain) hops name role) ∧
      (e.model.implicitRolesOf name domain).Pairwise fun earlier later =>
        ∀ near far, Distance (e.model.Assigns domain) near name earlier →
          Distance (e.model.Assigns domain) far name later → near ≤ far := by
  have regular := reachable.remembersRightly.roles
  have ends := regular.worksOff_implicitRolesOf name domain
  refine ⟨fun roles => ⟨fun works => works.unique ends, ?_⟩, Search.nodup_collect _ _ _ _,
    fun role => ?_, (Search.at_start _ name).pairwise_collect _⟩
  · rintro rfl
    exact ends
  · refine (regular.mem_implicitRolesOf name domain role).trans (and_congr_right fun other => ?_)
    constructor
    · rintro ⟨hops, walk⟩
      refine ⟨hops, ?_, walk⟩
      cases walk with
      | stay => exact absurd rfl other
      | on => omega
    · rintro ⟨hops, _, walk⟩
      exact ⟨hops, walk⟩

/-- An office where all accounts are editors. Editors are readers and guests, and readers are editors. -/
def accounts : Setup MemoryStore (List UInt8) where
  model := office
  store :=
    ⟨[⟨"g", ["/account/*", "editor"]⟩, ⟨"g", ["editor", "reader"]⟩, ⟨"g", ["reader", "editor"]⟩,
      ⟨"g", ["reader", "guest"]⟩, ⟨"g", ["editor", "member"]⟩]⟩
  digest := id

/-- Nobody has assigned a role to the seventh account by name. It has the roles of all accounts, and those
    that come with them, each once although two of them lead to each other. -/
theorem implicitRolesOf_closure_accounts :
    ∃ e : Enforcer MemoryStore (List UInt8), e.Reachable ∧
      e = (accounts.enforcer.step (.addNamePredicate "g" Pattern.keyMatch)).2 ∧
      ¬ (∃ row ∈ e.model.rows "g" "g", row.head? = some "/account/7") ∧
      e.model.implicitRolesOf "/account/7" none = ["editor", "member", "reader", "guest"] ∧
      ∃ hops ≥ 1, Walk (e.model.Assigns none) hops "/account/7" "guest" := by
  have observed : accounts.build.isOk = true ∧
      ((accounts.enforcer.step (.addNamePredicate "g" Pattern.keyMatch)).2.model.rows "g" "g").all
        (fun row => row.head? != some "/account/7") = true ∧
      (accounts.enforcer.step (.addNamePredicate "g" Pattern.keyMatch)).2.model.implicitRolesOf
        "/account/7" none = ["editor", "member", "reader", "guest"] := by decide +kernel
  obtain ⟨builds, unnamed, listed⟩ := observed
  have prepared : accounts.model.Prepared := prepared_office
  have reachable : (accounts.enforcer.step (.addNamePredicate "g" Pattern.keyMatch)).2.Reachable :=
    .step _ (.built prepared (Setup.build_eq_enforcer builds))
  obtain ⟨_, _, reached, _⟩ := implicitRolesOf_closure reachable "/account/7" none
  refine ⟨_, reachable, rfl, ?_, listed, ((reached "guest").mp (by rw [listed]; decide)).2⟩
  simpa using unnamed

end Enforcer

end AccessControl

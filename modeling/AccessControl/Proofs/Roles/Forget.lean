import AccessControl.Proofs.Roles.Type

/-! # Role managers that have forgotten their answers

A manager remembers answers to role checks. To forget them changes no answer, and may come before or
after any other operation.
-/

namespace AccessControl

namespace RoleGraph

variable {graph : RoleGraph}

theorem Regular.forget (regular : graph.Regular) : graph.forget.Regular :=
  ⟨regular.keys, regular.links, Memo.Sound.clear _ _⟩

theorem forget_addLink (graph : RoleGraph) (subject role : String) (domain : Option String) :
    (graph.forget.addLink subject role domain).2 =
      (graph.addLink subject role domain).2.forget := by
  have stored : graph.forget.isStored = graph.isStored := rfl
  unfold addLink
  simp only [stored]
  split <;> rfl

theorem forget_deleteLink (graph : RoleGraph) (subject role : String) (domain : Option String) :
    (graph.forget.deleteLink subject role domain).2 =
      (graph.deleteLink subject role domain).2.forget := by
  have stored : graph.forget.isStored = graph.isStored := rfl
  unfold deleteLink
  simp only [stored]
  split <;> rfl

theorem remember_forget (graph : RoleGraph) (name role : String) (domain : Option String) :
    (graph.remember name role domain).forget = graph.forget := by
  unfold remember
  split
  · rfl
  · simp only [RoleGraph.forget, Memo.clear_insert]

end RoleGraph

namespace RoleManager

variable {manager : RoleManager}

/-- Forget all answers. -/
def forget : RoleManager → RoleManager
  | .indexed graph => .indexed graph.forget
  | .listed list => .listed list

@[simp]
theorem forget_forget (manager : RoleManager) : manager.forget.forget = manager.forget := by
  cases manager <;> rfl

/-- To forget answers does not change them. -/
theorem sameAnswers_forget (regular : manager.Regular) : SameAnswers manager manager.forget := by
  have regular' : manager.forget.Regular := by
    cases manager with
    | indexed graph => exact RoleGraph.Regular.forget regular
    | listed list => exact regular
  refine sameAnswers regular regular' ?_ fun link => ?_
  · cases manager <;> exact ⟨rfl, rfl, rfl⟩
  · cases manager <;> exact Iff.rfl

theorem forget_apply (manager : RoleManager) (type : String) (change : LinkChange) (row : Row) :
    manager.forget.apply type change row = (manager.apply type change row).map forget := by
  unfold RoleManager.apply
  split
  · cases manager with
    | indexed graph =>
        cases change with
        | add => exact congrArg (Except.ok ∘ indexed) (graph.forget_addLink _ _ _)
        | remove => exact congrArg (Except.ok ∘ indexed) (graph.forget_deleteLink _ _ _)
    | listed list => cases change <;> rfl
  · rfl

theorem forget_applyAll (manager : RoleManager) (type : String) (change : LinkChange)
    (rows : List Row) :
    manager.forget.applyAll type change rows =
      (manager.applyAll type change rows).map id forget := by
  induction rows generalizing manager with
  | nil => rfl
  | cons row rest ih =>
      simp only [RoleManager.applyAll, forget_apply]
      cases manager.apply type change row with
      | error error => rfl
      | ok changed => exact ih changed

theorem remember_forget (manager : RoleManager) (name role : String) (domain : Option String) :
    (manager.remember name role domain).forget = manager.forget := by
  cases manager with
  | indexed graph => exact congrArg indexed (graph.remember_forget name role domain)
  | listed list => rfl

end RoleManager

namespace RoleType

/-- Forget all answers. -/
def forget (type : RoleType) : RoleType := { type with manager := type.manager.forget }

@[simp]
theorem forget_forget (type : RoleType) : type.forget.forget = type.forget := by
  simp [forget]

/-- A change of role types that does not depend on what is remembered. -/
def Unremembering (change : RoleType → RoleType) : Prop :=
  ∀ type, (change type.forget).forget = (change type).forget

theorem unremembering_buildLinks : Unremembering (·.buildLinks.2) := by
  intro type
  have restarted : type.forget.buildLinks = type.buildLinks := by
    have cleared : type.manager.forget.clear = type.manager.clear := by
      cases type.manager <;> rfl
    simp only [buildLinks, RoleManager.restart, forget, cleared]
  simp only [restarted]

theorem unremembering_linkedIn (manager : RoleManager) : Unremembering (·.linkedIn manager) :=
  fun _ => rfl

theorem unremembering_addNamePredicate (holds : NamePredicate) :
    Unremembering (·.addNamePredicate holds) := by
  intro type
  cases type with
  | mk table manager => cases manager <;> rfl

theorem unremembering_addDomainPredicate (holds : NamePredicate) :
    Unremembering (·.addDomainPredicate holds) := by
  intro type
  cases type with
  | mk table manager => cases manager <;> rfl

theorem forget_changeLinks (type : RoleType) (change : LinkChange) (rows : List Row) :
    (type.forget.changeLinks change rows).2 = (type.changeLinks change rows).2.forget := by
  simp only [changeLinks, forget, RoleManager.forget_applyAll]
  rfl

theorem unremembering_follow (delta : RowDelta) : Unremembering (·.follow delta) := by
  intro type
  simp only [follow, forget_changeLinks, forget_forget]

theorem remember_forget (type : RoleType) (name role : String) (domain : Option String) :
    RoleType.forget { type with manager := type.manager.remember name role domain } =
      type.forget :=
  congrArg (fun manager => { type with manager }) (type.manager.remember_forget name role domain)

end RoleType

end AccessControl

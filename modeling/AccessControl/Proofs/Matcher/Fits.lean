import AccessControl.Proofs.Matcher.ByName

/-! # What fits a scope

An expression that resolves has become a node that asks for declared positions only, and that gives
every function the arguments it needs.
-/

namespace AccessControl

/-- Whether something can be called with so many arguments. In a rule that was loaded itself, no
    other rule can be. -/
def Callee.Takes (scope : Scope) (nested : Bool) (count : Nat) : Callee → Prop
  | .builtin f => count = f.arity
  | .custom f => ∃ name, scope.functions.lookup name = some (.custom f)
  | .role _ => count = 2 ∨ count = 3
  | .rule => nested = false ∧ count = 1

namespace Node

mutual

/-- Whether all positions are those of declared fields, and all calls have the arguments they need. -/
def Fits (scope : Scope) (nested : Bool) : Node → Prop
  | .literal _ => True
  | .request position _ => position < scope.requestFields.length
  | .policy position _ => position < scope.policyFields.length
  | .unary _ operand => operand.Fits scope nested
  | .binary _ left right => left.Fits scope nested ∧ right.Fits scope nested
  | .tuple items => AllFit scope nested items
  | .call callee args => AllFit scope nested args ∧ callee.Takes scope nested args.length

def AllFit (scope : Scope) (nested : Bool) : List Node → Prop
  | [] => True
  | node :: rest => node.Fits scope nested ∧ AllFit scope nested rest

end

end Node

namespace Scope

variable {scope : Scope} {nested : Bool}

theorem takes_of_callee {name : String} {count : Nat} {callee : Callee}
    (resolved : scope.callee nested name count = .ok callee) :
    callee.Takes scope nested count := by
  unfold Scope.callee at resolved
  cases role : scope.roleTypes.lookup name with
  | some fieldCount =>
      simp only [role] at resolved
      split at resolved
      · simp at resolved
      · rw [← Except.ok.inj resolved]
        unfold Callee.Takes
        omega
  | none =>
      simp only [role] at resolved
      split at resolved
      · split at resolved
        · simp at resolved
        · split at resolved
          · rename_i notNested one
            rw [← Except.ok.inj resolved]
            exact ⟨by simpa using notNested, one⟩
          · simp at resolved
      · cases registered : scope.functions.lookup name with
        | none => simp [registered] at resolved
        | some function =>
            simp only [registered] at resolved
            cases function with
            | custom f =>
                rw [← Except.ok.inj resolved]
                exact ⟨name, registered⟩
            | builtin f =>
                simp only at resolved
                split at resolved
                · rename_i count
                  rw [← Except.ok.inj resolved]
                  exact count
                · simp at resolved

theorem fits_reference {base name : String} {path : List String} {node : Node}
    (resolved : scope.reference base name path = .ok node) : node.Fits scope nested := by
  unfold reference at resolved
  split at resolved
  · obtain ⟨position, found, eq⟩ := Except.bind_eq_ok_iff.mp resolved
    rw [← Except.ok.inj eq]
    exact lt_of_positionOf? (field_eq_ok_iff.mp found)
  · split at resolved
    · obtain ⟨position, found, eq⟩ := Except.bind_eq_ok_iff.mp resolved
      rw [← Except.ok.inj eq]
      exact lt_of_positionOf? (field_eq_ok_iff.mp found)
    · simp at resolved

mutual

theorem fits_of_resolve : ∀ {e : Expr} {node : Node}, scope.resolve nested e = .ok node →
    node.Fits scope nested
  | .literal value, node, resolved => by
      rw [← Except.ok.inj resolved]
      trivial
  | .identifier name offset, node, resolved => by simp [resolve] at resolved
  | .field base [] offset, node, resolved => by simp [resolve] at resolved
  | .field base (name :: path) offset, node, resolved => fits_reference resolved
  | .unary op operand, node, resolved => by
      obtain ⟨operand', inner, eq⟩ := Except.bind_eq_ok_iff.mp resolved
      rw [← Except.ok.inj eq]
      have fits := fits_of_resolve inner
      exact fits
  | .binary op left right, node, resolved => by
      obtain ⟨left', first, rest⟩ := Except.bind_eq_ok_iff.mp resolved
      obtain ⟨right', second, eq⟩ := Except.bind_eq_ok_iff.mp rest
      rw [← Except.ok.inj eq]
      exact ⟨fits_of_resolve first, fits_of_resolve second⟩
  | .tuple items, node, resolved => by
      obtain ⟨nodes, all, eq⟩ := Except.bind_eq_ok_iff.mp resolved
      rw [← Except.ok.inj eq]
      exact allFit_of_resolveAll all
  | .call name args offset, node, resolved => by
      obtain ⟨nodes, all, rest⟩ := Except.bind_eq_ok_iff.mp resolved
      obtain ⟨callee, found, eq⟩ := Except.bind_eq_ok_iff.mp rest
      rw [← Except.ok.inj eq]
      exact ⟨allFit_of_resolveAll all, takes_of_callee found⟩

theorem allFit_of_resolveAll : ∀ {es : List Expr} {nodes : List Node},
    scope.resolveAll nested es = .ok nodes → Node.AllFit scope nested nodes
  | [], nodes, resolved => by
      rw [← Except.ok.inj resolved]
      trivial
  | e :: rest, nodes, resolved => by
      obtain ⟨node, first, others⟩ := Except.bind_eq_ok_iff.mp resolved
      obtain ⟨nodes', all, eq⟩ := Except.bind_eq_ok_iff.mp others
      rw [← Except.ok.inj eq]
      exact ⟨fits_of_resolve first, allFit_of_resolveAll all⟩

end

end Scope

end AccessControl

import AccessControl.Decision.Evaluate
import AccessControl.Proofs.Memo
import AccessControl.Proofs.Model.Forget

/-! # What a matcher remembers does not show

A matcher remembers the rules that it has resolved. As long as each is what its text resolves to,
the matcher answers as one that has forgotten them all.
-/

namespace AccessControl

namespace Matcher

/-- Forget all resolved rules. -/
def forget (matcher : Matcher) : Matcher := { matcher with rules := matcher.rules.clear }

/-- Every remembered rule is what its text resolves to. -/
def Sound (matcher : Matcher) : Prop :=
  matcher.rules.Sound fun text node => resolveRule matcher.scope text = .ok node

variable {matcher : Matcher}

theorem sound_forget (matcher : Matcher) : matcher.forget.Sound := Memo.Sound.clear _ _

theorem Sound.rule_eq (sound : matcher.Sound) (text : String) :
    matcher.rule text = resolveRule matcher.scope text := by
  unfold rule
  cases found : matcher.rules.get? text with
  | none => rfl
  | some node =>
      have resolved : resolveRule matcher.scope text = .ok node := Memo.Sound.get? sound found
      exact resolved.symm

theorem forget_of_compile {scope : Scope} {text : String}
    (compiled : compile scope text = .ok matcher) : matcher.forget = matcher := by
  obtain ⟨_, _, compiled⟩ := Except.bind_eq_ok_iff.mp compiled
  obtain ⟨_, _, settled⟩ := Except.bind_eq_ok_iff.mp compiled
  obtain rfl := Except.ok.inj settled
  rfl

theorem Sound.evaluate_forget (sound : matcher.Sound) :
    matcher.forget.evaluate = matcher.evaluate := by
  have rules : matcher.forget.evaluateRule = matcher.evaluateRule := by
    funext env text
    unfold evaluateRule
    rw [sound.rule_eq, matcher.sound_forget.rule_eq]
    rfl
  funext env
  unfold evaluate
  rw [rules]
  rfl

theorem remember_ruleLoaded (matcher : Matcher) (text : String) (rest : List Event) :
    matcher.remember (.ruleLoaded text :: rest) =
      Matcher.remember
        (match matcher.rule text with
        | .ok node => { matcher with rules := matcher.rules.insert text node }
        | .error _ => matcher) rest := rfl

theorem Sound.remember (sound : matcher.Sound) (events : List Event) :
    (matcher.remember events).Sound ∧ (matcher.remember events).forget = matcher.forget := by
  induction events generalizing matcher with
  | nil => exact ⟨sound, rfl⟩
  | cons event rest ih =>
      cases event with
      | roleChecked type name role domain answer => exact ih sound
      | called label args => exact ih sound
      | ruleLoaded text =>
          rw [remember_ruleLoaded, sound.rule_eq]
          cases resolved : resolveRule matcher.scope text with
          | error error => exact ih sound
          | ok node =>
              have kept : Matcher.Sound { matcher with rules := matcher.rules.insert text node } :=
                Memo.Sound.insert sound resolved
              obtain ⟨sound', same⟩ := ih kept
              refine ⟨sound', same.trans ?_⟩
              unfold forget
              rw [Memo.clear_insert]

/-- A matcher that was compiled once and has been evaluated since. It may remember any number of
    rules, and may drop any of them at any moment. -/
inductive CompiledFrom (scope : Scope) (text : String) : Matcher → Prop where
  | compile {matcher : Matcher} (compiled : compile scope text = .ok matcher) :
      CompiledFrom scope text matcher
  | evaluate {matcher : Matcher} (before : CompiledFrom scope text matcher) (env : Bindings) :
      CompiledFrom scope text (matcher.remember (matcher.evaluate env).events)
  | bound {matcher : Matcher} (before : CompiledFrom scope text matcher) (capacity : Nat)
      (victim : List String → Nat) :
      CompiledFrom scope text { matcher with rules := { matcher.rules with capacity, victim } }
  | drop {matcher : Matcher} (before : CompiledFrom scope text matcher) (kept : String → Bool) :
      CompiledFrom scope text { matcher with rules := matcher.rules.restrict kept }

/-- What stays of a compilation, whatever is evaluated: the resolved form of the text, and that all
    remembered rules are what their texts resolve to. -/
structure Resolves (matcher : Matcher) (scope : Scope) (text : String) : Prop where
  text_eq : matcher.text = text
  scope_eq : matcher.scope = scope
  root : ∃ e, Expr.parse text = .ok e ∧ scope.resolve false e = .ok matcher.root
  sound : matcher.Sound

theorem resolves_of_compile {scope : Scope} {text : String}
    (compiled : compile scope text = .ok matcher) : matcher.Resolves scope text := by
  obtain ⟨e, parsed, rest⟩ := Except.bind_eq_ok_iff.mp compiled
  obtain ⟨root, resolved, settled⟩ := Except.bind_eq_ok_iff.mp rest
  obtain rfl := Except.ok.inj settled
  exact ⟨rfl, rfl, ⟨e, parsed, resolved⟩, fun _ member => absurd member List.not_mem_nil⟩

theorem CompiledFrom.resolves {scope : Scope} {text : String}
    (compiled : CompiledFrom scope text matcher) : matcher.Resolves scope text := by
  induction compiled with
  | compile compiled => exact resolves_of_compile compiled
  | evaluate before env ih =>
      obtain ⟨sound, same⟩ := ih.sound.remember _
      have root := congrArg Matcher.root same
      refine ⟨(congrArg Matcher.text same).trans ih.text_eq,
        (congrArg Matcher.scope same).trans ih.scope_eq, ?_, sound⟩
      exact root ▸ ih.root
  | bound before capacity victim ih => exact ⟨ih.text_eq, ih.scope_eq, ih.root, ih.sound⟩
  | drop before kept ih => exact ⟨ih.text_eq, ih.scope_eq, ih.root, ih.sound.restrict kept⟩

end Matcher

namespace Model

/-- Neither what the matcher nor what the role managers remember shows in a decision. -/
theorem Regular.evaluate_forget {model : Model} (regular : model.Regular) {matcher : Matcher}
    (sound : matcher.Sound) (context : Context) (request : List Value) :
    model.forget.evaluate context matcher.forget request =
      model.evaluate context matcher request := by
  unfold evaluate
  rw [regular.hasLink_forget]
  have test : rowTest model.hasLink matcher.forget request =
      rowTest model.hasLink matcher request := by
    unfold rowTest
    rw [sound.evaluate_forget]
    rfl
  unfold evaluateWith
  rw [test]
  rfl

end Model

end AccessControl

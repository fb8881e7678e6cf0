import AccessControl.Error

/-! # Effects

The rows that match a request are folded into one decision by the effect that the model declares. A
fold takes up matched rows in policy order; once it is decided, further rows change nothing. The
rows named in the outcome are the ones that decided it.
-/

namespace AccessControl

/-- How matched rows combine into a decision. -/
inductive EffectKind where
  /-- Some row allows. -/
  | allowOverride
  /-- No row denies. -/
  | denyOverride
  /-- Some row allows and none denies. -/
  | allowAndDeny
  /-- The first row with an opinion decides. -/
  | priority
  deriving DecidableEq

namespace EffectKind

/-- The expression that declares an effect. -/
def expression : EffectKind → String
  | .allowOverride => "some(where (p.eft == allow))"
  | .denyOverride => "!some(where (p.eft == deny))"
  | .allowAndDeny => "some(where (p.eft == allow)) && !some(where (p.eft == deny))"
  | .priority => "priority(p.eft) || deny"

def all : List EffectKind := [.allowOverride, .denyOverride, .allowAndDeny, .priority]

/-- A text without its blanks. -/
def compact (text : String) : List Char := text.toList.filter fun c => !Text.isBlank c

/-- The effect that an expression declares; blanks do not count. -/
def parse (text : String) : Except Error EffectKind :=
  match all.find? fun kind => compact kind.expression == compact text with
  | some kind => .ok kind
  | none => .error (.modelDefinition (.unsupportedEffect text))

end EffectKind

/-- The effect of one policy row. -/
inductive Effect where
  | allow
  | deny
  | indeterminate
  deriving DecidableEq

/-- The effect that a label names; a row without a label allows. -/
def Effect.ofLabel : Option String → Effect
  | none => .allow
  | some label =>
    if label == "allow" then .allow else if label == "deny" then .deny else .indeterminate

/-- The state of a fold over matched rows, which it knows by their positions. -/
structure EffectFold where
  kind : EffectKind
  /-- Rows that allow, latest first, where all of them may be needed. -/
  allowing : List Nat := []
  /-- The decision and the row that forced it. -/
  decided : Option (Bool × Nat) := none

namespace EffectFold

/-- The decision that a matched row with an effect forces at once. -/
def forced : EffectKind → Effect → Option Bool
  | .allowOverride, .allow => some true
  | .denyOverride, .deny => some false
  | .allowAndDeny, .deny => some false
  | .priority, .allow => some true
  | .priority, .deny => some false
  | _, _ => none

def observe (fold : EffectFold) (position : Nat) (effect : Effect) : EffectFold :=
  match fold.decided with
  | some _ => fold
  | none =>
    match forced fold.kind effect with
    | some allowed => { fold with decided := some (allowed, position) }
    | none =>
      if fold.kind = .allowAndDeny ∧ effect = .allow then
        { fold with allowing := position :: fold.allowing }
      else fold

/-- Whether no further row can change the outcome. -/
def isDecided (fold : EffectFold) : Bool := fold.decided.isSome

/-- The outcome and the rows that produced it. -/
def finish (fold : EffectFold) : Bool × List Nat :=
  match fold.decided with
  | some (allowed, position) => (allowed, [position])
  | none =>
    match fold.kind with
    | .allowOverride => (false, [])
    | .priority => (false, [])
    | .denyOverride => (true, [])
    | .allowAndDeny => (!fold.allowing.isEmpty, fold.allowing.reverse)

/-- Take up the rows that match, until the outcome is decided. -/
def observeAll (fold : EffectFold) (position : Nat) : List (Bool × Effect) → EffectFold
  | [] => fold
  | (matched, effect) :: rest =>
    let next := if matched then fold.observe position effect else fold
    if next.isDecided then next else next.observeAll (position + 1) rest

end EffectFold

/-- The outcome of a complete sequence of rows. Without rows nothing is allowed. -/
def combine (kind : EffectKind) (rows : List (Bool × Effect)) : Bool × List Nat :=
  if rows.isEmpty then (false, [])
  else (EffectFold.observeAll { kind } 0 rows).finish

end AccessControl

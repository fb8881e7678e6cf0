import AccessControl.Error

/-! # Evaluations and what they did

An evaluation yields a value or an error, and a record of the calls it made on the way. The record
is kept on failure as well. `result` of a sequence of steps is the sequence of their results, so
that the record never changes a value.
-/

namespace AccessControl

/-- Something that an evaluation did. -/
inductive Event where
  /-- It asked whether a name has a role, and was answered. -/
  | roleChecked (type name role : String) (domain : Option String) (answer : Bool)
  /-- It called a registered function. -/
  | called (label : String) (args : List Value)
  /-- It needed a rule that is given as text. -/
  | ruleLoaded (text : String)

/-- A value or an error, and the events on the way to it, oldest first. -/
structure Traced (α : Type) where
  events : List Event
  result : Except Error α

namespace Traced

variable {α β : Type}

def ofExcept (result : Except Error α) : Traced α := ⟨[], result⟩

def note (event : Event) : Traced Unit := ⟨[event], .ok ()⟩

protected def bind (x : Traced α) (f : α → Traced β) : Traced β :=
  match x.result with
  | .ok a => ⟨x.events ++ (f a).events, (f a).result⟩
  | .error e => ⟨x.events, .error e⟩

instance : Monad Traced where
  pure a := ofExcept (.ok a)
  bind := Traced.bind

instance : MonadLift (Except Error) Traced where
  monadLift := ofExcept

@[simp]
theorem result_pure (a : α) : (pure a : Traced α).result = .ok a := rfl

@[simp]
theorem result_ofExcept (result : Except Error α) : (ofExcept result).result = result := rfl

@[simp]
theorem result_bind (x : Traced α) (f : α → Traced β) :
    (x >>= f).result = x.result >>= fun a => (f a).result := by
  show (Traced.bind x f).result = _
  unfold Traced.bind
  cases x.result <;> rfl

end Traced

end AccessControl

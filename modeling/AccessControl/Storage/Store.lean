import AccessControl.Policy.Change
import AccessControl.Policy.Row

/-! # Stores

A store keeps policy lines outside the model. It can be asked for all of its lines, be given all
lines anew, and follow single changes. What it cannot do it reports as not implemented.
-/

namespace AccessControl

/-- Something that keeps policy lines. -/
class PolicyStore (σ : Type) where
  load : σ → Except StoreError (List PolicyLine)
  /-- Keep these lines and no others. -/
  save : σ → List PolicyLine → Except StoreError Unit × σ
  /-- Follow a change of the rows of a type. -/
  follow : σ → RowSection → String → RowChange → Except StoreError Unit × σ

/-- A store that may be missing. Without one nothing is kept, and no single change is followed. -/
instance {σ : Type} [PolicyStore σ] : PolicyStore (Option σ) where
  load
    | none => .ok []
    | some store => PolicyStore.load store
  save
    | none, _ => (.ok (), none)
    | some store, lines =>
      let (result, store) := PolicyStore.save store lines
      (result, some store)
  follow
    | none, _, _, change => (.error (.notImplemented change.method), none)
    | some store, s, type, change =>
      let (result, store) := PolicyStore.follow store s type change
      (result, some store)

/-- A store that refuses some of its calls, and then does nothing. -/
structure RefusingStore (σ : Type) where
  inner : σ
  refused : StoreMethod → Option StoreError := fun _ => none

instance {σ : Type} [PolicyStore σ] : PolicyStore (RefusingStore σ) where
  load store :=
    match store.refused .loadPolicy with
    | some e => .error e
    | none => PolicyStore.load store.inner
  save store lines :=
    match store.refused .savePolicy with
    | some e => (.error e, store)
    | none =>
      let (result, inner) := PolicyStore.save store.inner lines
      (result, { store with inner })
  follow store s type change :=
    match store.refused change.method with
    | some e => (.error e, store)
    | none =>
      let (result, inner) := PolicyStore.follow store.inner s type change
      (result, { store with inner })

end AccessControl

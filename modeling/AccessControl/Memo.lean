/-! # Bounded memo tables

A memo keeps values that can be computed again, so it may drop any of them to stay within its
capacity. Which one goes is decided by the table itself, from the keys that it holds.
-/

namespace AccessControl

/-- Remembered values by their keys, latest first. -/
structure Memo (κ α : Type) where
  capacity : Nat
  /-- The position of the entry to drop from a full table; by default the oldest one. -/
  victim : List κ → Nat := fun keys => keys.length - 1
  entries : List (κ × α) := []

namespace Memo

variable {κ α : Type}

/-- Drop some entries one after another, each at the position that `victim` picks from the keys, or
    the last one if there is no such position. -/
def dropVictims (victim : List κ → Nat) : Nat → List (κ × α) → List (κ × α)
  | 0, entries => entries
  | n + 1, entries =>
    let position := min (victim (entries.map (·.1))) (entries.length - 1)
    dropVictims victim n (entries.eraseIdx position)

/-- Drop as many entries as must go for there to be room for one more. -/
def shrink (victim : List κ → Nat) (capacity : Nat) (entries : List (κ × α)) : List (κ × α) :=
  dropVictims victim (entries.length + 1 - capacity) entries

variable [BEq κ]

def get? (memo : Memo κ α) (key : κ) : Option α := memo.entries.lookup key

/-- Remember a value. A table of capacity zero remembers nothing. -/
def insert (memo : Memo κ α) (key : κ) (value : α) : Memo κ α :=
  if memo.capacity = 0 then memo
  else if (memo.get? key).isSome then
    { memo with entries := memo.entries.map fun entry =>
        if entry.1 == key then (key, value) else entry }
  else { memo with entries := (key, value) :: shrink memo.victim memo.capacity memo.entries }

def clear (memo : Memo κ α) : Memo κ α := { memo with entries := [] }

end Memo

end AccessControl

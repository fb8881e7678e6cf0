/-! # Search by levels

A level holds the names that can be reached in a number of steps and in no fewer. The search goes
from level to level, for a bounded number of steps.
-/

namespace AccessControl.Search

/-- The names one step after a level that have not been visited, each once. -/
def nextLevel (step : String → List String) (visited frontier : List String) : List String :=
  ((frontier.flatMap step).filter fun name => !visited.contains name).eraseDups

/-- Whether some name that passes a test is reached from a level in at least one step and at most
    `hops` steps. -/
def reaches (step : String → List String) (test : String → Bool) :
    Nat → List String → List String → Bool
  | 0, _, _ => false
  | hops + 1, visited, frontier =>
    if (frontier.flatMap step).any test then true
    else
      match nextLevel step visited frontier with
      | [] => false
      | next => reaches step test hops (visited ++ next) next

/-- The names reached from a level in at least one step and at most `hops` steps, nearest first. -/
def collect (step : String → List String) : Nat → List String → List String → List String
  | 0, _, _ => []
  | hops + 1, visited, frontier =>
    match nextLevel step visited frontier with
    | [] => []
    | next => next ++ collect step hops (visited ++ next) next

end AccessControl.Search

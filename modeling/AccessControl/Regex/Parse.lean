import AccessControl.Regex.Meaning
import AccessControl.Regex.Reader
import AccessControl.Regex.Size

/-! # Expressions from their texts -/

namespace AccessControl.Regex

/-- The expression that a text says, whatever room it takes. -/
def ofText? (text : List Char) : Option Regex := do
  let tree ← Tree.ofText? text
  if Tree.depthLimit < tree.depth .none then none
  (tree.meaning? {}).map (·.1)

/-- The expression of a pattern; `none` for a text that is no pattern, or too large a one. -/
def parse (text : List Char) : Option Regex := (ofText? text).filter Size.fits

end AccessControl.Regex

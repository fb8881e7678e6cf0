import AccessControl.Effect
import AccessControl.Text.Classes

/-! # Definitions

A model is declared by definitions of the form key and text. The key is the letter of a section,
with digits behind it for further types of the section. The texts of request and policy shapes list
field names, those of role types list as many underscores as their rows have values.
-/

namespace AccessControl.Definition

/-- A text without the blanks around it. -/
def trimmed (text : String) : String := String.ofList (Text.trim text.toList)

/-- The parts of a text between commas, without the blanks around them. -/
def parts (text : String) : List String :=
  (text.toList.splitOn ',').map fun part => String.ofList (Text.trim part)

def isFieldChar (c : Char) : Bool := Text.isAlphanumeric c || c == '_'

def isFieldName (text : String) : Bool :=
  match text.toList with
  | [] => false
  | c :: rest => !c.isDigit && (c :: rest).all isFieldChar

/-- The first text of a list that has occurred before. -/
def firstRepeated? (seen : List String) : List String → Option String
  | [] => none
  | text :: rest => if seen.contains text then some text else firstRepeated? (text :: seen) rest

/-- The field names that a shape lists. -/
def fields (key text : String) : Except Error (List String) :=
  let fields := parts text
  match fields.find? fun field => !isFieldName field with
  | some field => .error (.modelDefinition (.invalidField field key))
  | none =>
    match firstRepeated? [] fields with
    | some field => .error (.modelDefinition (.duplicateField field key))
    | none => .ok fields

/-- The fields of a role type, which have numbers for names. -/
def roleFields (key text : String) : Except Error (List String) :=
  let places := parts text
  if places.length < 2 || places.any (· != "_") then
    .error (.modelDefinition (.roleShape key text))
  else .ok ((List.range places.length).map fun i => "_" ++ toString i)

/-- Check that a key is the letter of a section with digits behind it. -/
def checkKey (sec key : String) : Except Error Unit :=
  if !sec.toList.isPrefixOf key.toList then .error (.modelDefinition (.foreignKey key sec))
  else if (key.toList.drop sec.length).all Char.isDigit then .ok ()
  else .error (.modelDefinition (.invalidKey key))

end AccessControl.Definition

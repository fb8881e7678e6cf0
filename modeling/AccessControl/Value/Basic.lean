import AccessControl.NameMap
import AccessControl.Number.Literal
import AccessControl.Number.Notation
import AccessControl.Text.Classes
import AccessControl.Json.Writer

/-! # Values of requests and matchers

A request is a list of values, and a matcher computes with values. Maps carry attributes; their
members stand in the order of their keys, each key once, and `Value.ofMembers` brings them there.
-/

namespace AccessControl

/-- A dynamically typed value. -/
inductive Value where
  | bool (value : Bool)
  | int (value : Int64)
  | float (value : Binary64)
  | str (text : String)
  | list (items : List Value)
  | map (members : List (String × Value))

inductive Kind where
  | bool
  | int
  | float
  | string
  | list
  | map
  deriving DecidableEq

def Kind.name : Kind → String
  | .bool => "bool"
  | .int => "int"
  | .float => "float"
  | .string => "string"
  | .list => "list"
  | .map => "map"

namespace Value

def kind : Value → Kind
  | .bool _ => .bool
  | .int _ => .int
  | .float _ => .float
  | .str _ => .string
  | .list _ => .list
  | .map _ => .map

def text? : Value → Option String
  | .str text => some text
  | _ => none

def bool? : Value → Option Bool
  | .bool b => some b
  | _ => none

/-- The integers a value can hold, as a bound on exact results. -/
def intInRange (n : Int) : Bool := Int64.minValue.toInt ≤ n && n ≤ Int64.maxValue.toInt

/-- The integer value of a number that fits, else the nearest float. -/
def ofInteger (n : Int) : Value :=
  if intInRange n then .int (Int64.ofInt n) else .float (Binary64.ofInt n)

/-- A map of the given members; of members with one key the last counts. -/
def ofMembers (members : List (String × Value)) : Value :=
  .map (members.foldl (fun sorted (key, value) => NameMap.insert key value sorted) [])

/-- The member of a map with a key. -/
def lookup (key : String) (members : List (String × Value)) : Option Value :=
  (members.find? (·.1 == key)).map (·.2)

/-- The numeric view of a value: of numbers, and of texts that hold a number between blanks. -/
def number? : Value → Option Binary64
  | .int n => some (Binary64.ofInt n.toInt)
  | .float x => some x
  | .str text => Binary64.ofText? (String.ofList (Text.trim text.toList))
  | _ => none

def isNumeric : Value → Bool
  | .int _ => true
  | .float _ => true
  | _ => false

mutual

def toJson : Value → Json
  | .bool b => .bool b
  | .int n => .integer n.toInt
  | .float x => .real x
  | .str text => .string text
  | .list items => .array (itemsToJson items)
  | .map members => .object (membersToJson members)

def itemsToJson : List Value → List Json
  | [] => []
  | item :: rest => item.toJson :: itemsToJson rest

def membersToJson : List (String × Value) → List (String × Json)
  | [] => []
  | (key, item) :: rest => (key, item.toJson) :: membersToJson rest

end

mutual

/-- The value of a structured datum; null is the empty text. -/
def ofJson : Json → Value
  | .null => .str ""
  | .bool b => .bool b
  | .integer n => ofInteger n
  | .real x => .float x
  | .string text => .str text
  | .array items => .list (itemsOfJson items)
  | .object members => ofMembers (membersOfJson members)

def itemsOfJson : List Json → List Value
  | [] => []
  | item :: rest => ofJson item :: itemsOfJson rest

def membersOfJson : List (String × Json) → List (String × Value)
  | [] => []
  | (key, item) :: rest => (key, ofJson item) :: membersOfJson rest

end

mutual

/-- The value that a datum spells; null spells none. -/
def spelled? : Json → Option Value
  | .null => none
  | .bool b => some (.bool b)
  | .integer n => some (ofInteger n)
  | .real x => some (.float x)
  | .string text => some (.str text)
  | .array items => (itemsSpelled? items).map .list
  | .object members => (membersSpelled? members).map ofMembers

def itemsSpelled? : List Json → Option (List Value)
  | [] => some []
  | item :: rest => do
    let item ← spelled? item
    let rest ← itemsSpelled? rest
    some (item :: rest)

def membersSpelled? : List (String × Json) → Option (List (String × Value))
  | [] => some []
  | (key, item) :: rest => do
    let item ← spelled? item
    let rest ← membersSpelled? rest
    some ((key, item) :: rest)

end

mutual

/-- A value as a reader sees it: lists in parentheses, maps as structured data. -/
def display : Value → String
  | .bool b => if b then "true" else "false"
  | .int n => toString n.toInt
  | .float x => NumberFormat.plain.render x
  | .str text => text
  | .list items => "(" ++ displayItems items ++ ")"
  | .map members => (Json.object (membersToJson members)).compact

def displayItems : List Value → String
  | [] => ""
  | [item] => item.display
  | item :: rest => item.display ++ ", " ++ displayItems rest

end

/-- The text that a value stands for as a name in a role check. -/
def plainText : Value → String
  | .str text => text
  | value => value.display

end Value

end AccessControl

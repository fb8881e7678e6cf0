import AccessControl.Decision.Blake3
import AccessControl.Text.Utf8
import AccessControl.Value.Basic

/-! # Fingerprints

A decision depends on the types that it is made with, on the request, and on the matcher where one
is given. These are written as bytes, each part behind its length and each value behind a byte for
its kind, so that different parts give different bytes. The hash of the bytes is the fingerprint.
-/

namespace AccessControl

/-- The bytes of a text behind their number. -/
def sizedText (text : String) : List UInt8 :=
  let bytes := Text.encode text.toList
  bytesOfLength bytes.length ++ bytes

namespace Value

mutual

def toBytes : Value → List UInt8
  | .bool b => [0, if b then 1 else 0]
  | .int n => 1 :: bytesOfUInt64 n.toUInt64
  | .float x => 2 :: bytesOfUInt64 x.bits
  | .str text => 3 :: sizedText text
  | .list items => 4 :: bytesOfLength items.length ++ itemsToBytes items
  | .map members => 5 :: bytesOfLength members.length ++ membersToBytes members

def itemsToBytes : List Value → List UInt8
  | [] => []
  | item :: rest => item.toBytes ++ itemsToBytes rest

def membersToBytes : List (String × Value) → List UInt8
  | [] => []
  | (key, item) :: rest => sizedText key ++ item.toBytes ++ membersToBytes rest

end

end Value

/-- What a decision depends on apart from the state of the model. -/
structure DecisionKey where
  /-- The types of request, policy, effect and matcher. -/
  context : List String
  request : List Value
  /-- The matcher that is used in place of the declared one. -/
  matcher : Option String := none

namespace DecisionKey

def toBytes (key : DecisionKey) : List UInt8 :=
  key.context.flatMap sizedText ++ bytesOfLength key.request.length ++
    Value.itemsToBytes key.request ++
    match key.matcher with
    | some text => 1 :: Text.encode text.toList
    | none => [0]

end DecisionKey

/-- A hash of 32 bytes. -/
structure Fingerprint where
  bytes : List UInt8
  deriving DecidableEq

namespace Fingerprint

def ofBytes (bytes : List UInt8) : Fingerprint := ⟨Blake3.hash bytes⟩

def hex (fingerprint : Fingerprint) : String := String.ofList (fingerprint.bytes.flatMap hexOfByte)

end Fingerprint

end AccessControl

import AccessControl.Json.Basic
import AccessControl.Number.Arithmetic
import AccessControl.Number.Literal

/-! # Structured data read from text

A strict reader: one datum between blanks, at most 127 arrays and objects inside each other, no
number beyond the range of a double. A number with a point or an exponent is the value of its
leading digits, as many as fit 64 bits, taken times or over a power of ten, and each of these steps
rounds.
-/

namespace AccessControl.Json

def skipBlanks (text : List Char) : List Char :=
  text.dropWhile fun c => c == ' ' || c == '\n' || c == '\t' || c == '\r'

def expectWord (word : List Char) (text : List Char) : Option (List Char) :=
  if word.isPrefixOf text then some (text.drop word.length) else none

/-! ## Strings -/

def hexDigit? (c : Char) : Option Nat :=
  if c.isDigit then some (c.toNat - '0'.toNat)
  else if 'a' ≤ c && c ≤ 'f' then some (c.toNat - 'a'.toNat + 10)
  else if 'A' ≤ c && c ≤ 'F' then some (c.toNat - 'A'.toNat + 10)
  else none

def readHex4 : List Char → Option (Nat × List Char)
  | a :: b :: c :: d :: rest => do
    let a ← hexDigit? a
    let b ← hexDigit? b
    let c ← hexDigit? c
    let d ← hexDigit? d
    some (((16 * a + b) * 16 + c) * 16 + d, rest)
  | _ => none

/-- The character of an escape that stands for itself or for a control. -/
def shortEscape? : Char → Option Char
  | '"' => some '"'
  | '\\' => some '\\'
  | '/' => some '/'
  | 'b' => some '\x08'
  | 'f' => some '\x0c'
  | 'n' => some '\n'
  | 'r' => some '\r'
  | 't' => some '\t'
  | _ => none

/-- A character given by its code; a pair of surrogates gives one character, and a surrogate alone
    is refused. -/
def readCode (text : List Char) : Option (Char × List Char) := do
  let (high, rest) ← readHex4 text
  if 0xDC00 ≤ high && high ≤ 0xDFFF then none
  else if 0xD800 ≤ high && high ≤ 0xDBFF then
    let rest ← expectWord ['\\', 'u'] rest
    let (low, rest) ← readHex4 rest
    if 0xDC00 ≤ low && low ≤ 0xDFFF then
      some (Char.ofNat (0x10000 + (high - 0xD800) * 0x400 + (low - 0xDC00)), rest)
    else none
  else some (Char.ofNat high, rest)

/-- The characters of a string up to its closing quote. The count bounds the characters read. -/
def readChars : Nat → List Char → Option (List Char × List Char)
  | 0, _ => none
  | _ + 1, [] => none
  | _ + 1, '"' :: rest => some ([], rest)
  | n + 1, '\\' :: 'u' :: rest => do
    let (c, rest) ← readCode rest
    let (cs, rest) ← readChars n rest
    some (c :: cs, rest)
  | n + 1, '\\' :: c :: rest => do
    let c ← shortEscape? c
    let (cs, rest) ← readChars n rest
    some (c :: cs, rest)
  | n + 1, c :: rest => do
    if c.toNat < 0x20 || c == '\\' then none
    let (cs, rest) ← readChars n rest
    some (c :: cs, rest)

/-- A string after its opening quote. -/
def readString (text : List Char) : Option (String × List Char) :=
  (readChars (text.length + 1) text).map fun (cs, rest) => (String.ofList cs, rest)

/-! ## Numbers -/

/-- The leading digits of a number that fit 64 bits, and the power of ten that goes with them. -/
structure Leading where
  digits : Nat
  exponent : Int

def highest64 : Nat := UInt64.size - 1

def appendDigit (digits : Nat) (c : Char) : Nat := 10 * digits + (c.toNat - '0'.toNat)

/-- Take up the digits before the point. From the first one that does not fit, they only count. -/
def Leading.whole (digits : Nat) : List Char → Leading
  | [] => ⟨digits, 0⟩
  | c :: rest =>
    if highest64 < appendDigit digits c then ⟨digits, (c :: rest).length⟩
    else Leading.whole (appendDigit digits c) rest

/-- Take up the digits after the point, up to the first one that does not fit. -/
def Leading.fraction (l : Leading) : List Char → Leading
  | [] => l
  | c :: rest =>
    if highest64 < appendDigit l.digits c then l
    else Leading.fraction ⟨appendDigit l.digits c, l.exponent - 1⟩ rest

/-- Scale by a power of ten in steps of at most `10 ^ 308`; `none` beyond the largest number. -/
def scale : Nat → Binary64 → Int → Option Binary64
  | 0, x, _ => some x
  | n + 1, x, exponent =>
    if exponent.natAbs ≤ 308 then
      let power := Binary64.ofDecimal false 1 exponent.natAbs
      if 0 ≤ exponent then
        let y := x.mul power
        if y.isFinite then some y else none
      else some (x.div power)
    else if x.isZero then some x
    else if 0 ≤ exponent then none
    else scale n (x.div (Binary64.ofDecimal false 1 308)) (exponent + 308)

def Leading.value (l : Leading) (negative : Bool) : Option Binary64 :=
  (scale 4 (Binary64.ofInt l.digits) l.exponent).map fun x => if negative then x.neg else x

def readExponent (text : List Char) : Option (Option Int × List Char) :=
  match text with
  | c :: rest =>
    if c == 'e' || c == 'E' then
      let (negative, unsigned) := splitSign rest
      let (digits, rest) := spanDigits unsigned
      if digits.isEmpty then none
      else
        let n : Int := digitsValue digits
        some (some (if negative then -n else n), rest)
    else some (none, text)
  | [] => some (none, [])

def readFraction (text : List Char) : Option (Option (List Char) × List Char) :=
  match text with
  | '.' :: rest =>
    let (digits, rest) := spanDigits rest
    if digits.isEmpty then none else some (some digits, rest)
  | text => some (none, text)

/-- The digits before the point: a single zero, or a number that begins with no zero. -/
def readWhole (text : List Char) : Option (List Char × List Char) :=
  let (digits, rest) := spanDigits text
  if digits.isEmpty || (digits.head? == some '0' && digits.length != 1) then none
  else some (digits, rest)

/-- A number, its sign already read. -/
def readNumber (negative : Bool) (text : List Char) : Option (Json × List Char) := do
  let (digits, rest) ← readWhole text
  let (fraction, rest) ← readFraction rest
  let (exponent, rest) ← readExponent rest
  let leading := Leading.whole 0 digits
  let n : Int := digitsValue digits
  if fraction.isNone && exponent.isNone && leading.exponent == 0 &&
      (!negative || (0 < n && Int64.minValue.toInt ≤ -n)) then
    some (.integer (if negative then -n else n), rest)
  else
    let l := leading.fraction (fraction.getD [])
    let x ← Leading.value ⟨l.digits, l.exponent + exponent.getD 0⟩ negative
    some (.real x, rest)

/-! ## Arrays, objects and values -/

/-- Items separated by commas, up to a closing character. The count bounds the items read. -/
def readItems {α : Type} (item : List Char → Option (α × List Char)) (close : Char) :
    Nat → List Char → Option (List α × List Char)
  | 0, _ => none
  | n + 1, text => do
    let (first, rest) ← item (skipBlanks text)
    match skipBlanks rest with
    | ',' :: rest => do
      let (others, rest) ← readItems item close n rest
      some (first :: others, rest)
    | c :: rest => if c == close then some ([first], rest) else none
    | [] => none

/-- A bracketed sequence after its opening character; it may be empty. -/
def readSequence {α : Type} (item : List Char → Option (α × List Char)) (close : Char)
    (text : List Char) : Option (List α × List Char) :=
  match skipBlanks text with
  | c :: rest => if c == close then some ([], rest) else readItems item close (text.length + 1) text
  | [] => none

/-- A member of an object: key, colon, value. The key may tell how to read the value. -/
def readMember {α : Type} (value : String → List Char → Option (α × List Char))
    (text : List Char) : Option ((String × α) × List Char) :=
  match text with
  | '"' :: rest => do
    let (key, rest) ← readString rest
    match skipBlanks rest with
    | ':' :: rest => do
      let (item, rest) ← value key (skipBlanks rest)
      some ((key, item), rest)
    | _ => none
  | _ => none

/-- A value at the head of a text, with at most `depth` arrays and objects inside each other. -/
def readValue : Nat → List Char → Option (Json × List Char)
  | depth, text =>
    match text with
    | 'n' :: rest => (expectWord "ull".toList rest).map fun rest => (.null, rest)
    | 't' :: rest => (expectWord "rue".toList rest).map fun rest => (.bool true, rest)
    | 'f' :: rest => (expectWord "alse".toList rest).map fun rest => (.bool false, rest)
    | '"' :: rest => (readString rest).map fun (text, rest) => (.string text, rest)
    | '-' :: rest => readNumber true rest
    | '[' :: rest =>
      match depth with
      | 0 => none
      | depth + 1 =>
        (readSequence (readValue depth) ']' rest).map fun (items, rest) => (.array items, rest)
    | '\x7b' :: rest =>
      match depth with
      | 0 => none
      | depth + 1 =>
        (readSequence (readMember fun _ => readValue depth) '\x7d' rest).map
          fun (members, rest) => (.object members, rest)
    | text => readNumber false text

/-- Arrays and objects may be this deep inside each other. -/
def depthLimit : Nat := 127

/-- What a reader makes of a whole text, with blanks around the datum. -/
def readAll {α : Type} (item : List Char → Option (α × List Char)) (text : String) :
    Option α := do
  let (result, rest) ← item (skipBlanks text.toList)
  if (skipBlanks rest).isEmpty then some result else none

/-- Read a text that holds one datum. -/
def read? (text : String) : Option Json := readAll (readValue depthLimit) text

/-! ## Data that nobody reads

A datum that is passed over need only be well formed. Its numbers may be beyond any range, its
escapes may be surrogates alone, and it may be of any depth. -/

/-- The rest of a text behind the closing quote of a string. -/
def passChars : List Char → Option (List Char)
  | '"' :: rest => some rest
  | '\\' :: 'u' :: a :: b :: c :: d :: rest =>
    if [a, b, c, d].all fun c => (hexDigit? c).isSome then passChars rest else none
  | '\\' :: c :: rest => if (shortEscape? c).isSome then passChars rest else none
  | c :: rest => if c.toNat < 0x20 || c == '\\' then none else passChars rest
  | [] => none

/-- The rest of a text behind a number, its sign already read. -/
def passNumber (text : List Char) : Option (List Char) := do
  let (_, rest) ← readWhole text
  let (_, rest) ← readFraction rest
  let (_, rest) ← readExponent rest
  some rest

/-- A member of an object that is passed over. -/
def passMember (value : List Char → Option (Unit × List Char)) (text : List Char) :
    Option (Unit × List Char) :=
  match text with
  | '"' :: rest => do
    let rest ← passChars rest
    match skipBlanks rest with
    | ':' :: rest => value (skipBlanks rest)
    | _ => none
  | _ => none

/-- The rest of a text behind a datum. The count bounds its depth. -/
def passValue : Nat → List Char → Option (Unit × List Char)
  | 0, _ => none
  | n + 1, text =>
    match text with
    | 'n' :: rest => (expectWord "ull".toList rest).map fun rest => ((), rest)
    | 't' :: rest => (expectWord "rue".toList rest).map fun rest => ((), rest)
    | 'f' :: rest => (expectWord "alse".toList rest).map fun rest => ((), rest)
    | '"' :: rest => (passChars rest).map fun rest => ((), rest)
    | '-' :: rest => (passNumber rest).map fun rest => ((), rest)
    | '[' :: rest => (readSequence (passValue n) ']' rest).map fun (_, rest) => ((), rest)
    | '\x7b' :: rest =>
      (readSequence (passMember (passValue n)) '\x7d' rest).map fun (_, rest) => ((), rest)
    | text => (passNumber text).map fun rest => ((), rest)

/-- Pass over a datum; null stands in for it. -/
def pass (text : List Char) : Option (Json × List Char) :=
  (passValue (text.length + 1) text).map fun (_, rest) => (.null, rest)

end AccessControl.Json

import AccessControl.Json.Reader

/-! # Network addresses and address blocks

An address of version 4 is four decimal bytes, one of version 6 eight hexadecimal groups, of which a
double colon leaves out zeros and the last two may be written as an address of version 4. A block is
an address and the number of leading bits that count.
-/

namespace AccessControl

/-- An address, as the number its bits form. -/
inductive Address where
  | v4 (bits : Nat)
  | v6 (bits : Nat)
  deriving DecidableEq

namespace Address

/-- What may be left out or added when an address is written. -/
structure Spelling where
  /-- Decimal bytes may begin with zeros. -/
  leadingZeros : Bool
  /-- The fewest groups a double colon stands for. -/
  leastOmitted : Nat

/-- The spelling of an address on its own. -/
def alone : Spelling := ⟨false, 1⟩

/-- The spelling of an address in a block. -/
def inBlock : Spelling := ⟨true, 0⟩

/-- A number at the head of a text, with a bound on its digits and its value. -/
def readNumber (hexadecimal : Bool) (mostDigits bound : Nat) (text : List Char) :
    Option (Nat × List Char) :=
  let digit? (c : Char) : Option Nat :=
    if hexadecimal then Json.hexDigit? c else if c.isDigit then Json.hexDigit? c else none
  let digits := text.takeWhile fun c => (digit? c).isSome
  let value := digits.foldl
    (fun n c => (if hexadecimal then 16 else 10) * n + (digit? c).getD 0) 0
  if digits.isEmpty || mostDigits < digits.length || bound ≤ value then none
  else some (value, text.drop digits.length)

def expectChar (c : Char) : List Char → Option (List Char)
  | d :: rest => if c == d then some rest else none
  | [] => none

def readByte (s : Spelling) (text : List Char) : Option (Nat × List Char) := do
  let (n, rest) ← readNumber false 3 256 text
  if !s.leadingZeros && text.head? == some '0' && rest.length + 1 < text.length then none
  some (n, rest)

def readV4 (s : Spelling) (text : List Char) : Option (Nat × List Char) := do
  let (a, rest) ← readByte s text
  let (b, rest) ← readByte s (← expectChar '.' rest)
  let (c, rest) ← readByte s (← expectChar '.' rest)
  let (d, rest) ← readByte s (← expectChar '.' rest)
  some (((a * 256 + b) * 256 + c) * 256 + d, rest)

/-- Up to `room` groups, each but the first behind a colon; an address of version 4 fills the last
    two. The flag says that there was one. -/
def readGroups (s : Spelling) : Nat → Bool → List Char → List Nat × Bool × List Char
  | 0, _, text => ([], false, text)
  | room + 1, first, text =>
    match if first then some text else expectChar ':' text with
    | none => ([], false, text)
    | some body =>
      match if room = 0 then none else readV4 s body with
      | some (n, rest) => ([n / 65536, n % 65536], true, rest)
      | none =>
        match readNumber true 4 65536 body with
        | some (g, rest) =>
          let (groups, embedded, rest) := readGroups s room false rest
          (g :: groups, embedded, rest)
        | none => ([], false, text)

/-- The number that groups of sixteen bits form. -/
def joinGroups (groups : List Nat) : Nat := groups.foldl (fun n g => n * 65536 + g) 0

/-- Eight groups, or fewer around a double colon. -/
def readV6 (s : Spelling) (text : List Char) : Option (Nat × List Char) := do
  let (head, embedded, rest) := readGroups s 8 true text
  if head.length = 8 then return (joinGroups head, rest)
  if embedded then none
  let rest ← expectChar ':' rest
  let rest ← expectChar ':' rest
  let (tail, _, rest) := readGroups s (8 - head.length - s.leastOmitted) true rest
  return (joinGroups (head ++ List.replicate (8 - head.length - tail.length) 0 ++ tail), rest)

def ofText? (text : List Char) : Option Address :=
  match readV4 alone text with
  | some (n, []) => some (.v4 n)
  | _ =>
    match readV6 alone text with
    | some (n, []) => some (.v6 n)
    | _ => none

end Address

/-- All addresses that share their leading bits with one address. -/
structure AddressBlock where
  base : Address
  leading : Nat

namespace AddressBlock

/-- The length of a block at the end of a text. -/
def readLength (mostDigits bound : Nat) (text : List Char) : Option Nat := do
  let rest ← Address.expectChar '/' text
  let (n, rest) ← Address.readNumber false mostDigits bound rest
  if rest.isEmpty then some n else none

def ofText? (text : List Char) : Option AddressBlock :=
  let v4 : Option AddressBlock := do
    let (n, rest) ← Address.readV4 Address.inBlock text
    let leading ← readLength 2 33 rest
    some ⟨.v4 n, leading⟩
  let v6 : Option AddressBlock := do
    let (n, rest) ← Address.readV6 Address.inBlock text
    let leading ← readLength 3 129 rest
    some ⟨.v6 n, leading⟩
  v4.orElse fun _ => v6

/-- Whether an address lies in a block; versions do not mix. -/
def contains (b : AddressBlock) (a : Address) : Bool :=
  match b.base, a with
  | .v4 base, .v4 bits => base >>> (32 - b.leading) == bits >>> (32 - b.leading)
  | .v6 base, .v6 bits => base >>> (128 - b.leading) == bits >>> (128 - b.leading)
  | _, _ => false

end AddressBlock

end AccessControl

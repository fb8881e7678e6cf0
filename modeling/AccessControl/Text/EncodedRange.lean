import AccessControl.Text.CodePointSet

/-! # Ranges of characters as bytes

The encodings of the characters in a range are given by sequences of byte ranges. A sequence stands
for all byte strings with one byte of each of its ranges in order, and each encoding belongs to one
sequence.
-/

namespace AccessControl.EncodedRange

/-- An inclusive range of bytes. -/
abbrev ByteRange := Nat × Nat

/-- The ranges of code points that are encoded in one length. Surrogates have no encoding. -/
def lengthBlocks : List (Nat × Nat) :=
  [(0, 0x7F), (0x80, 0x7FF), (0x800, 0xD7FF), (0xE000, 0xFFFF), (0x10000, 0x10FFFF)]

/-- Cut a range so that each part either lies within one block of a size or consists of whole
    blocks. -/
def align (size : Nat) (range : Nat × Nat) : List (Nat × Nat) :=
  let (low, high) := range
  let tail (low : Nat) : List (Nat × Nat) :=
    let start := high / size * size
    if low / size == high / size || high + 1 == start + size then [(low, high)]
    else [(low, start - 1), (start, high)]
  if high < 128 || low / size == high / size then [(low, high)]
  else if low % size == 0 then tail low
  else
    let start := (low / size + 1) * size
    (low, start - 1) :: tail start

/-- The bytes of a code point. -/
def bytesOf (n : Nat) : List Nat :=
  if n < 0x80 then [n]
  else if n < 0x800 then [0xC0 + n / 64, 0x80 + n % 64]
  else if n < 0x10000 then [0xE0 + n / 4096, 0x80 + n / 64 % 64, 0x80 + n % 64]
  else [0xF0 + n / 262144, 0x80 + n / 4096 % 64, 0x80 + n / 64 % 64, 0x80 + n % 64]

/-- The sequences of a set of characters, in ascending order. -/
def sequences (s : CodePointSet) : List (List ByteRange) :=
  let aligned := (CodePointSet.common lengthBlocks s.ranges)
    |>.flatMap (align 64) |>.flatMap (align 4096) |>.flatMap (align 262144)
  aligned.map fun (low, high) => (bytesOf low).zip (bytesOf high)

/-- Gather neighbouring sequences that begin alike: what they begin with, and what follows it. -/
def byHead (sequences : List (List ByteRange)) : List (ByteRange × List (List ByteRange)) :=
  sequences.foldr (fun sequence groups =>
    match sequence, groups with
    | [], groups => groups
    | head :: tail, (other, tails) :: groups =>
      if head = other then (other, (tail :: tails)) :: groups
      else (head, [tail]) :: (other, tails) :: groups
    | head :: tail, [] => [(head, [tail])]) []

end AccessControl.EncodedRange

/-! # Texts as bytes

Offsets into a text count the bytes of its encoding. `decode` reads bytes back and puts the
replacement character where they are no encoding.
-/

namespace AccessControl.Text

def encode (text : List Char) : List UInt8 := text.flatMap String.utf8EncodeChar

/-- Stands for bytes that are no character. -/
def replacement : Char := '\uFFFD'

/-- The character at the head of some bytes. -/
def firstChar? (bytes : List UInt8) : Option Char := (bytes.take 4).toByteArray.utf8DecodeChar? 0

/-- Read characters from bytes behind the given number of bytes, which have been read already. A
    byte that begins no character becomes the replacement character. -/
def decodeAfter : Nat → List UInt8 → List Char
  | _, [] => []
  | skipped + 1, _ :: rest => decodeAfter skipped rest
  | 0, byte :: rest =>
    match firstChar? (byte :: rest) with
    | some c => c :: decodeAfter (c.utf8Size - 1) rest
    | none => replacement :: decodeAfter 0 rest

def decode (bytes : List UInt8) : List Char := decodeAfter 0 bytes

end AccessControl.Text

import AccessControl.Pattern
import Mathlib.Data.List.Infix

/-! # Patterns that end in a star

Such a pattern matches what begins as it does before its star, and the ending of the key is the
rest. Both are found by slicing bytes at the place of the star. The slices are within the texts, and
the place lies between two characters of each key that matches: bytes begin alike just if texts do.
-/

namespace AccessControl

/-! ## Bytes of texts -/

namespace Text

variable {text front : List Char} {c : Char} {bytes : List UInt8}

theorem encode_cons (c : Char) (text : List Char) :
    encode (c :: text) = String.utf8EncodeChar c ++ encode text := List.flatMap_cons ..

theorem encode_append (front back : List Char) :
    encode (front ++ back) = encode front ++ encode back := List.flatMap_append ..

theorem length_encode (text : List Char) :
    (encode text).length = (String.ofList text).utf8ByteSize := by
  induction text with
  | nil => rfl
  | cons c rest ih => simp [encode_cons, ih, String.ofList_cons]

theorem firstChar?_append (c : Char) (bytes : List UInt8) :
    firstChar? (String.utf8EncodeChar c ++ bytes) = some c := by
  have short : (String.utf8EncodeChar c).length ≤ 4 := by
    rw [String.length_utf8EncodeChar]
    exact c.utf8Size_le_four
  rw [firstChar?, List.take_append, List.take_of_length_le short]
  simpa using ByteArray.utf8DecodeChar?_utf8EncodeChar_append

theorem decodeAfter_append (skipped bytes : List UInt8) :
    decodeAfter skipped.length (skipped ++ bytes) = decodeAfter 0 bytes := by
  induction skipped with
  | nil => rfl
  | cons byte rest ih => exact ih

theorem decode_encode (text : List Char) : decode (encode text) = text := by
  induction text with
  | nil => rfl
  | cons c rest ih =>
      have first := firstChar?_append c (encode rest)
      have size := String.length_utf8EncodeChar c
      rw [encode_cons]
      cases encoded : String.utf8EncodeChar c with
      | nil => exact absurd encoded String.utf8EncodeChar_ne_nil
      | cons byte others =>
          rw [encoded] at first size
          have length : c.utf8Size - 1 = others.length := by simp [← size]
          rw [decode, List.cons_append, decodeAfter, ← List.cons_append, first]
          dsimp only
          rw [length, decodeAfter_append]
          exact congrArg (c :: ·) ih

theorem encode_prefix_iff : encode front <+: encode text ↔ front <+: text := by
  constructor
  · rintro ⟨bytes, same⟩
    induction front generalizing text with
    | nil => exact List.nil_prefix
    | cons c front ih =>
        rw [encode_cons, List.append_assoc] at same
        cases text with
        | nil =>
            exact absurd (List.append_eq_nil_iff.mp same).1 String.utf8EncodeChar_ne_nil
        | cons d text =>
            rw [encode_cons] at same
            have first := congrArg firstChar? same
            rw [firstChar?_append, firstChar?_append] at first
            obtain rfl := Option.some.inj first
            exact List.cons_prefix_cons.mpr ⟨rfl, ih (List.append_cancel_left same)⟩
  · rintro ⟨back, rfl⟩
    exact ⟨encode back, (encode_append front back).symm⟩

theorem fromUTF8?_encode (text : List Char) :
    String.fromUTF8? (encode text).toByteArray = some (String.ofList text) := by
  have valid : (encode text).toByteArray.IsValidUTF8 := (String.ofList text).isValidUTF8
  rw [String.fromUTF8?, dif_pos valid]
  rfl

end Text

namespace Pattern

/-! ## What stands before the star -/

variable {before chars rest : List Char}

theorem beforeStar?_eq_none (absent : '*' ∉ chars) : beforeStar? chars = none := by
  induction chars with
  | nil => rfl
  | cons c chars ih =>
      obtain ⟨other, behind⟩ := not_or.mp (mt List.mem_cons.mpr absent)
      simp [beforeStar?, Ne.symm other, ih behind]

theorem beforeStar?_append (first : '*' ∉ before) (rest : List Char) :
    beforeStar? (before ++ '*' :: rest) = some before := by
  induction before with
  | nil => simp [beforeStar?]
  | cons c before ih =>
      obtain ⟨other, behind⟩ := not_or.mp (mt List.mem_cons.mpr first)
      simp [beforeStar?, Ne.symm other, ih behind]

theorem star_cases (chars : List Char) :
    '*' ∉ chars ∨ ∃ before rest, chars = before ++ '*' :: rest ∧ '*' ∉ before := by
  by_cases star : '*' ∈ chars
  · obtain ⟨before, rest, cut, first⟩ := List.eq_append_cons_of_mem star
    exact .inr ⟨before, rest, cut, first⟩
  · exact .inl star

/-! ## Matches and endings -/

variable {key pattern : String}

theorem keyMatch_of_no_star (absent : '*' ∉ pattern.toList) :
    keyMatch key pattern = (key == pattern) := by
  rw [keyMatch, beforeStar?_eq_none absent]

theorem keyGet_of_no_star (absent : '*' ∉ pattern.toList) : keyGet key pattern = "" := by
  rw [keyGet, beforeStar?_eq_none absent]

/-- A key matches just if it begins as the pattern does. Where it is no longer than that, beginning
    alike is being equal. -/
theorem keyMatch_iff (cut : pattern.toList = before ++ '*' :: rest) (first : '*' ∉ before) :
    keyMatch key pattern = true ↔ before <+: key.toList := by
  rw [keyMatch, cut, beforeStar?_append first, ← Text.encode_prefix_iff, List.prefix_iff_eq_take]
  dsimp only
  split
  case isTrue longer => exact beq_iff_eq.trans eq_comm
  case isFalse short =>
    rw [List.take_of_length_le (Nat.le_of_not_lt short)]
    exact beq_iff_eq.trans eq_comm

theorem keyGet_of_begins (cut : pattern.toList = before ++ '*' :: rest) (first : '*' ∉ before)
    {ending : List Char} (whole : key.toList = before ++ ending) :
    keyGet key pattern = String.ofList ending := by
  rw [keyGet, cut, beforeStar?_append first, whole, Text.encode_append]
  cases ending with
  | nil => simp [Text.encode]
  | cons c ending =>
      have longer : 0 < (Text.encode (c :: ending)).length := by
        rw [Text.encode_cons, List.length_append, String.length_utf8EncodeChar]
        exact Nat.add_pos_left c.utf8Size_pos _
      simp [longer, Text.decode_encode]

theorem keyGet_of_not_begins (cut : pattern.toList = before ++ '*' :: rest) (first : '*' ∉ before)
    (other : ¬before <+: key.toList) : keyGet key pattern = "" := by
  rw [← Text.encode_prefix_iff, List.prefix_iff_eq_take] at other
  rw [keyGet, cut, beforeStar?_append first]
  simp [Ne.symm other]

/-! ## Slices that may not be there -/

namespace Strict

/-- The place of the first star, in bytes. -/
def starPlace? : List Char → Option Nat
  | [] => none
  | c :: rest => if c == '*' then some 0 else (starPlace? rest).map (c.utf8Size + ·)

/-- The bytes before a place, if there are so many. -/
def front? (bytes : List UInt8) (place : Nat) : Option (List UInt8) :=
  if place ≤ bytes.length then some (bytes.take place) else none

/-- The bytes from a place on, if there are so many before it. -/
def back? (bytes : List UInt8) (place : Nat) : Option (List UInt8) :=
  if place ≤ bytes.length then some (bytes.drop place) else none

/-- The bytes of a text before a place, if the place lies between two of its characters. -/
def textFront? (text : String) (place : Nat) : Option (List UInt8) :=
  if String.Pos.Raw.IsValid text ⟨place⟩ then front? (Text.encode text.toList) place else none

/-- `keyMatch`, with slices that may not be there. -/
def keyMatch (key pattern : String) : Option Bool :=
  match starPlace? pattern.toList with
  | none => some (key == pattern)
  | some place =>
    let keyBytes := Text.encode key.toList
    if place < keyBytes.length then do
      return (← front? keyBytes place) == (← front? (Text.encode pattern.toList) place)
    else do
      return keyBytes == (← textFront? pattern place)

/-- `keyGet`, with slices that may not be there and an ending that may be no text. -/
def keyGet (key pattern : String) : Option String :=
  match starPlace? pattern.toList with
  | none => some ""
  | some place =>
    let keyBytes := Text.encode key.toList
    if place < keyBytes.length then do
      if (← front? keyBytes place) == (← front? (Text.encode pattern.toList) place) then
        String.fromUTF8? (← back? keyBytes place).toByteArray
      else
        some ""
    else
      some ""

end Strict

theorem starPlace?_eq (chars : List Char) :
    Strict.starPlace? chars =
      (beforeStar? chars).map fun before => (Text.encode before).length := by
  induction chars with
  | nil => rfl
  | cons c chars ih =>
      rw [Strict.starPlace?, beforeStar?, ih]
      split
      · rfl
      · simp [Function.comp_def, Text.encode_cons]

theorem front?_encode (before behind : List Char) :
    Strict.front? (Text.encode (before ++ behind)) (Text.encode before).length
      = some (Text.encode before) := by
  simp [Strict.front?, Text.encode_append]

theorem front?_of_lt {bytes : List UInt8} {place : Nat} (within : place < bytes.length) :
    Strict.front? bytes place = some (bytes.take place) := if_pos within.le

theorem back?_of_lt {bytes : List UInt8} {place : Nat} (within : place < bytes.length) :
    Strict.back? bytes place = some (bytes.drop place) := if_pos within.le

theorem isValid_of_append {text : String} (cut : text.toList = before ++ rest) :
    String.Pos.Raw.IsValid text ⟨(Text.encode before).length⟩ := by
  rw [String.Pos.Raw.isValid_iff_exists_append, Text.length_encode]
  refine ⟨String.ofList before, String.ofList rest, ?_, rfl⟩
  rw [← String.ofList_append, ← cut, String.ofList_toList]

theorem textFront?_encode (cut : pattern.toList = before ++ rest) :
    Strict.textFront? pattern (Text.encode before).length = some (Text.encode before) := by
  rw [Strict.textFront?, if_pos (isValid_of_append cut), cut, front?_encode]

/-- No slice of `keyMatch` is out of range. -/
theorem strict_keyMatch (key pattern : String) :
    Strict.keyMatch key pattern = some (keyMatch key pattern) := by
  rw [Strict.keyMatch, starPlace?_eq, keyMatch]
  rcases star_cases pattern.toList with absent | ⟨before, rest, cut, first⟩
  · rw [beforeStar?_eq_none absent]
    rfl
  · have star : beforeStar? pattern.toList = some before := by rw [cut, beforeStar?_append first]
    rw [star, Option.map_some]
    dsimp only
    rw [textFront?_encode cut, cut, front?_encode]
    split
    case isTrue longer =>
      rw [front?_of_lt longer]
      rfl
    case isFalse => rfl

/-- No slice of `keyGet` is out of range, and the ending that it takes is a text. -/
theorem strict_keyGet (key pattern : String) :
    Strict.keyGet key pattern = some (keyGet key pattern) := by
  rw [Strict.keyGet, starPlace?_eq, keyGet]
  rcases star_cases pattern.toList with absent | ⟨before, rest, cut, first⟩
  · rw [beforeStar?_eq_none absent]
    rfl
  · rw [cut, beforeStar?_append first, Option.map_some]
    dsimp only
    rw [front?_encode]
    split
    case isFalse short => rw [decide_eq_false short, Bool.false_and, if_neg Bool.false_ne_true]
    case isTrue longer =>
      rw [front?_of_lt longer, back?_of_lt longer, decide_eq_true longer, Bool.true_and]
      by_cases alike :
          (Text.encode key.toList).take (Text.encode before).length = Text.encode before
      · obtain ⟨ending, whole⟩ : before <+: key.toList := by
          rw [← Text.encode_prefix_iff, List.prefix_iff_eq_take]
          exact alike.symm
        have behind :
            (Text.encode key.toList).drop (Text.encode before).length = Text.encode ending := by
          rw [← whole, Text.encode_append, List.drop_left]
        simp [alike, behind, Text.fromUTF8?_encode, Text.decode_encode]
      · simp [alike]

/-- Without a star a pattern matches itself and has no ending. With one it matches what begins with
    the part before it, and the ending is the rest, cut off between two characters; what does not
    match has none. No slice is out of range and no ending needs a replacement character. -/
theorem keyMatch_fits_keyGet (key pattern : String) :
    ('*' ∉ pattern.toList →
      (keyMatch key pattern = true ↔ key = pattern) ∧ keyGet key pattern = "") ∧
    (∀ before rest, pattern = before ++ "*" ++ rest → '*' ∉ before.toList →
      (keyMatch key pattern = true ↔ before.toList <+: key.toList) ∧
      (keyMatch key pattern = true → before ++ keyGet key pattern = key ∧
        String.Pos.Raw.IsValid key before.rawEndPos) ∧
      (keyMatch key pattern = false → keyGet key pattern = "")) ∧
    Strict.keyMatch key pattern = some (keyMatch key pattern) ∧
    Strict.keyGet key pattern = some (keyGet key pattern) := by
  refine ⟨fun absent => ⟨?_, keyGet_of_no_star absent⟩, fun before rest split first => ?_,
    strict_keyMatch key pattern, strict_keyGet key pattern⟩
  · rw [keyMatch_of_no_star absent, beq_iff_eq]
  · have cut : pattern.toList = before.toList ++ '*' :: rest.toList := by simp [split]
    have begins : keyMatch key pattern = true ↔ before.toList <+: key.toList :=
      keyMatch_iff cut first
    refine ⟨begins, fun holds => ?_, fun fails => ?_⟩
    · obtain ⟨ending, whole⟩ := begins.mp holds
      have same : before ++ String.ofList ending = key := by
        rw [← String.ofList_toList (s := before), ← String.ofList_append, whole,
          String.ofList_toList]
      rw [keyGet_of_begins cut first whole.symm]
      exact ⟨same, String.Pos.Raw.isValid_iff_exists_append.mpr ⟨before, _, same.symm, rfl⟩⟩
    · refine keyGet_of_not_begins cut first fun starts => ?_
      rw [begins.mpr starts] at fails
      cases fails

/-- Two keys whose characters take two bytes: one begins as the pattern does. -/
theorem keyMatch_fits_keyGet_twoBytes :
    keyMatch "éß" "é*" = true ∧ "é" ++ keyGet "éß" "é*" = "éß" ∧
      keyMatch "ßé" "é*" = false ∧ keyGet "ßé" "é*" = "" := by
  obtain ⟨begins, fits, -⟩ :=
    (keyMatch_fits_keyGet "éß" "é*").2.1 "é" "" (by decide) (by decide)
  have holds : keyMatch "éß" "é*" = true := begins.mpr ⟨['ß'], by decide⟩
  obtain ⟨begins', -, nothing⟩ :=
    (keyMatch_fits_keyGet "ßé" "é*").2.1 "é" "" (by decide) (by decide)
  have fails : keyMatch "ßé" "é*" = false := by
    rw [Bool.eq_false_iff, ne_eq, begins']
    decide
  exact ⟨holds, (fits holds).1, fails, nothing fails⟩

end Pattern

end AccessControl

import AccessControl.Proofs.Matcher.Written

/-! # Where tokens begin

The scanner notes where a token begins before it knows the token. So every token that it gives out
has the offset of one of the characters of its text, and the end mark that of the end.
-/

namespace AccessControl

namespace ScanState

/-- Where the token that is being read has begun. -/
def begun? : ScanState → Option Nat
  | .between => none
  | .operator _ offset => some offset
  | .string _ offset _ _ => some offset
  | .number offset _ _ => some offset
  | .word offset _ => some offset

variable {s next : ScanState} {place : Nat → Prop} {offset : Nat} {c : Char} {text : List Char}
  {done tokens : List PlacedToken}

/-- All that is given out, and what is being read, begins at certain places. -/
def BeginsAt (place : Nat → Prop) (done : List PlacedToken) (next : ScanState) : Prop :=
  (∀ t ∈ done, place t.offset) ∧ ∀ offset ∈ next.begun?, place offset

theorem beginsAt_start (here : place offset) (started : start offset c = .ok (done, next)) :
    BeginsAt place done next := by
  unfold start at started
  repeat' split at started
  all_goals cases started
  all_goals simp [BeginsAt, begun?, here]

theorem place_of_finish (begun : ∀ offset ∈ s.begun?, place offset) (finished : s.finish = .ok done) :
    ∀ t ∈ done, place t.offset := by
  cases s with
  | between =>
      obtain rfl := Except.ok.inj finished
      simp
  | operator first offset | number offset reversed point =>
      obtain ⟨token, _, last⟩ := Except.bind_eq_ok_iff.mp finished
      obtain rfl := Except.ok.inj last
      simpa [begun?] using begun
  | string => cases finished
  | word offset reversed =>
      obtain rfl := Except.ok.inj finished
      simpa [begun?] using begun

theorem beginsAt_restart (begun : ∀ offset ∈ s.begun?, place offset) (here : place offset)
    (restarted : s.restart offset c = .ok (done, next)) : BeginsAt place done next := by
  obtain ⟨before, finished, rest⟩ := Except.bind_eq_ok_iff.mp restarted
  obtain ⟨⟨more, after⟩, started, last⟩ := Except.bind_eq_ok_iff.mp rest
  obtain ⟨rfl, rfl⟩ := Prod.mk.inj (Except.ok.inj last)
  obtain ⟨others, reading⟩ := beginsAt_start here started
  refine ⟨fun t member => ?_, reading⟩
  rcases List.mem_append.mp member with member | member
  · exact place_of_finish begun finished t member
  · exact others t member

theorem beginsAt_advance (begun : ∀ offset ∈ s.begun?, place offset) (here : place offset)
    (advanced : s.advance offset c = .ok (done, next)) : BeginsAt place done next := by
  cases s with
  | between => exact beginsAt_start here advanced
  | operator first offset' =>
      simp only [advance] at advanced
      split at advanced
      · obtain ⟨rfl, rfl⟩ := Prod.mk.inj (Except.ok.inj advanced)
        simpa [BeginsAt, begun?] using begun
      · exact beginsAt_restart begun here advanced
  | string quote offset' reversed escaped =>
      cases escaped <;> simp only [advance] at advanced <;> repeat' split at advanced
      all_goals
        obtain ⟨rfl, rfl⟩ := Prod.mk.inj (Except.ok.inj advanced)
        simpa [BeginsAt, begun?] using begun
  | number offset' reversed point =>
      simp only [advance] at advanced
      repeat' split at advanced
      case isFalse.isFalse => exact beginsAt_restart begun here advanced
      all_goals
        obtain ⟨rfl, rfl⟩ := Prod.mk.inj (Except.ok.inj advanced)
        simpa [BeginsAt, begun?] using begun
  | word offset' reversed =>
      simp only [advance] at advanced
      split at advanced
      · obtain ⟨rfl, rfl⟩ := Prod.mk.inj (Except.ok.inj advanced)
        simpa [BeginsAt, begun?] using begun
      · exact beginsAt_restart begun here advanced

end ScanState

/-- An offset lies between two characters of a text, or at one of its ends. -/
def BetweenChars (text : List Char) (offset : Nat) : Prop :=
  ∃ front back, text = front ++ back ∧ byteLength front = offset

theorem betweenChars_of_scan {s : ScanState} {front rest : List Char} {tokens : List PlacedToken}
    (begun : ∀ offset ∈ s.begun?, BetweenChars (front ++ rest) offset)
    (scanned : s.scan (byteLength front) rest = .ok tokens) :
    ∀ t ∈ tokens, BetweenChars (front ++ rest) t.offset := by
  have here : BetweenChars (front ++ rest) (byteLength front) := ⟨front, rest, rfl, rfl⟩
  induction rest generalizing s front tokens with
  | nil =>
      obtain ⟨last, finished, all⟩ := Except.bind_eq_ok_iff.mp scanned
      obtain rfl := Except.ok.inj all
      intro t member
      rcases List.mem_append.mp member with member | member
      · exact ScanState.place_of_finish begun finished t member
      · obtain rfl := List.mem_singleton.mp member
        exact here
  | cons c rest ih =>
      obtain ⟨⟨done, next⟩, advanced, others⟩ := Except.bind_eq_ok_iff.mp scanned
      obtain ⟨others, behind, all⟩ := Except.bind_eq_ok_iff.mp others
      obtain rfl := Except.ok.inj all
      obtain ⟨given, reading⟩ := ScanState.beginsAt_advance begun here advanced
      have whole : front ++ c :: rest = (front ++ [c]) ++ rest := by simp
      have length : byteLength front + c.utf8Size = byteLength (front ++ [c]) := by simp
      rw [whole] at reading
      rw [length] at behind
      intro t member
      rcases List.mem_append.mp member with member | member
      · exact given t member
      · rw [whole]
        exact ih reading behind ⟨_, rest, rfl, rfl⟩ t member

/-- Every token begins between two characters of its text, or at its end. -/
theorem valid_of_tokenize {text : String} {tokens : List PlacedToken}
    (tokenized : tokenize text = .ok tokens) {t : PlacedToken} (member : t ∈ tokens) :
    String.Pos.Raw.IsValid text ⟨t.offset⟩ := by
  have nothing : ∀ offset ∈ ScanState.between.begun?, BetweenChars ([] ++ text.toList) offset := by
    simp [ScanState.begun?]
  obtain ⟨front, back, whole, length⟩ := betweenChars_of_scan nothing tokenized t member
  refine String.Pos.Raw.isValid_iff_exists_append.mpr
    ⟨String.ofList front, String.ofList back, ?_, String.Pos.Raw.ext length.symm⟩
  rw [← String.ofList_append, ← whole, List.nil_append, String.ofList_toList]

end AccessControl

import AccessControl.Decision.Fingerprint
import Mathlib.Data.List.Basic

/-! # Different keys have different bytes

The bytes of a key can be read back: every part stands behind its length or its kind, so that no
part runs into the next one. This holds as long as lengths fit the words that they are written in.
-/

namespace AccessControl

/-! ## Words and texts -/

theorem bytesOfUInt32_inj {a b : UInt32} (same : bytesOfUInt32 a = bytesOfUInt32 b) : a = b := by
  simp only [bytesOfUInt32, List.cons.injEq, ← UInt8.toNat_inj, UInt32.toNat_toUInt8,
    UInt32.toNat_shiftRight, and_true] at same
  simp [Nat.shiftRight_eq_div_pow] at same
  have boundA := a.toNat_lt
  have boundB := b.toNat_lt
  rw [← UInt32.toNat_inj]
  omega

theorem bytesOfUInt64_inj {a b : UInt64} (same : bytesOfUInt64 a = bytesOfUInt64 b) : a = b := by
  obtain ⟨low, high⟩ := List.append_inj same rfl
  have low := congrArg UInt32.toNat (bytesOfUInt32_inj low)
  have high := congrArg UInt32.toNat (bytesOfUInt32_inj high)
  simp [Nat.shiftRight_eq_div_pow] at low high
  have boundA := a.toNat_lt
  have boundB := b.toNat_lt
  rw [← UInt64.toNat_inj]
  omega

theorem bytesOfUInt64_append_inj {a b : UInt64} {s t : List UInt8}
    (same : bytesOfUInt64 a ++ s = bytesOfUInt64 b ++ t) : a = b ∧ s = t := by
  obtain ⟨words, rest⟩ := List.append_inj same rfl
  exact ⟨bytesOfUInt64_inj words, rest⟩

/-- Whether a length fits a word. -/
def lengthFits (n : Nat) : Bool := n < UInt64.size

theorem bytesOfLength_append_inj {m n : Nat} (fitsM : lengthFits m) (fitsN : lengthFits n)
    {s t : List UInt8} (same : bytesOfLength m ++ s = bytesOfLength n ++ t) : m = n ∧ s = t := by
  obtain ⟨words, rest⟩ := bytesOfUInt64_append_inj same
  have sizes := congrArg UInt64.toNat words
  simp only [lengthFits, decide_eq_true_eq] at fitsM fitsN
  rw [UInt64.toNat_ofNat_of_lt' fitsM, UInt64.toNat_ofNat_of_lt' fitsN] at sizes
  exact ⟨sizes, rest⟩

theorem Text.encode_inj {a b : List Char} (same : encode a = encode b) : a = b := by
  have encoded : a.utf8Encode = b.utf8Encode := congrArg List.toByteArray same
  have decoded := congrArg ByteArray.utf8Decode? encoded
  simpa using decoded

/-- Whether the length of a text in bytes fits a word. -/
def textFits (text : String) : Bool := lengthFits (Text.encode text.toList).length

theorem sizedText_append_inj {a b : String} (fitsA : textFits a) (fitsB : textFits b)
    {s t : List UInt8} (same : sizedText a ++ s = sizedText b ++ t) : a = b ∧ s = t := by
  unfold sizedText at same
  simp only [List.append_assoc] at same
  obtain ⟨sizes, same⟩ := bytesOfLength_append_inj fitsA fitsB same
  obtain ⟨texts, rest⟩ := List.append_inj same sizes
  exact ⟨String.toList_inj.mp (Text.encode_inj texts), rest⟩

/-! ## Values -/

namespace Value

mutual

/-- Whether all lengths in a value fit a word. -/
def fits : Value → Bool
  | .bool _ => true
  | .int _ => true
  | .float _ => true
  | .str text => textFits text
  | .list items => lengthFits items.length && itemsFit items
  | .map members => lengthFits members.length && membersFit members

def itemsFit : List Value → Bool
  | [] => true
  | item :: rest => item.fits && itemsFit rest

def membersFit : List (String × Value) → Bool
  | [] => true
  | (key, item) :: rest => textFits key && item.fits && membersFit rest

end

mutual

/-- The bytes of a value end where they end, whatever comes behind them. -/
theorem toBytes_append_inj : ∀ (a b : Value), a.fits → b.fits → ∀ {s t : List UInt8},
    a.toBytes ++ s = b.toBytes ++ t → a = b ∧ s = t
  | .bool a, b, _, _, s, t, same => by
      cases b <;> simp [toBytes] at same
      rename_i b
      cases a <;> cases b <;> simp_all
  | .int a, b, _, _, s, t, same => by
      cases b <;> simp [toBytes] at same
      obtain ⟨words, rest⟩ := bytesOfUInt64_append_inj same
      exact ⟨congrArg (fun bits => Value.int ⟨bits⟩) words, rest⟩
  | .float a, b, _, _, s, t, same => by
      cases b <;> simp [toBytes] at same
      obtain ⟨words, rest⟩ := bytesOfUInt64_append_inj same
      exact ⟨congrArg (fun bits => Value.float ⟨bits⟩) words, rest⟩
  | .str a, b, fitsA, fitsB, s, t, same => by
      cases b <;> simp [toBytes] at same
      obtain ⟨texts, rest⟩ := sizedText_append_inj fitsA fitsB same
      exact ⟨congrArg Value.str texts, rest⟩
  | .list a, b, fitsA, fitsB, s, t, same => by
      cases b <;> simp [toBytes] at same
      rename_i b
      simp only [fits, Bool.and_eq_true] at fitsA fitsB
      obtain ⟨lengths, same⟩ := bytesOfLength_append_inj fitsA.1 fitsB.1 same
      obtain ⟨items, rest⟩ := itemsToBytes_append_inj a b fitsA.2 fitsB.2 lengths same
      exact ⟨congrArg Value.list items, rest⟩
  | .map a, b, fitsA, fitsB, s, t, same => by
      cases b <;> simp [toBytes] at same
      rename_i b
      simp only [fits, Bool.and_eq_true] at fitsA fitsB
      obtain ⟨lengths, same⟩ := bytesOfLength_append_inj fitsA.1 fitsB.1 same
      obtain ⟨members, rest⟩ := membersToBytes_append_inj a b fitsA.2 fitsB.2 lengths same
      exact ⟨congrArg Value.map members, rest⟩

theorem itemsToBytes_append_inj : ∀ (a b : List Value), itemsFit a → itemsFit b →
    a.length = b.length → ∀ {s t : List UInt8},
    itemsToBytes a ++ s = itemsToBytes b ++ t → a = b ∧ s = t
  | [], b, _, _, lengths, s, t, same => by
      obtain rfl := List.length_eq_zero_iff.mp lengths.symm
      exact ⟨rfl, same⟩
  | item :: rest, b, fitsA, fitsB, lengths, s, t, same => by
      match b, lengths with
      | item' :: rest', lengths =>
          simp only [itemsFit, Bool.and_eq_true] at fitsA fitsB
          simp only [itemsToBytes, List.append_assoc] at same
          obtain ⟨first, others⟩ := toBytes_append_inj item item' fitsA.1 fitsB.1 same
          obtain ⟨items, tail⟩ := itemsToBytes_append_inj rest rest' fitsA.2 fitsB.2
            (Nat.succ.inj lengths) others
          exact ⟨by rw [first, items], tail⟩

theorem membersToBytes_append_inj : ∀ (a b : List (String × Value)), membersFit a → membersFit b →
    a.length = b.length → ∀ {s t : List UInt8},
    membersToBytes a ++ s = membersToBytes b ++ t → a = b ∧ s = t
  | [], b, _, _, lengths, s, t, same => by
      obtain rfl := List.length_eq_zero_iff.mp lengths.symm
      exact ⟨rfl, same⟩
  | (key, item) :: rest, b, fitsA, fitsB, lengths, s, t, same => by
      match b, lengths with
      | (key', item') :: rest', lengths =>
          simp only [membersFit, Bool.and_eq_true] at fitsA fitsB
          simp only [membersToBytes, List.append_assoc] at same
          obtain ⟨keys, others⟩ := sizedText_append_inj fitsA.1.1 fitsB.1.1 same
          obtain ⟨first, others⟩ := toBytes_append_inj item item' fitsA.1.2 fitsB.1.2 others
          obtain ⟨members, tail⟩ := membersToBytes_append_inj rest rest' fitsA.2 fitsB.2
            (Nat.succ.inj lengths) others
          exact ⟨by rw [keys, first, members], tail⟩

end

end Value

/-! ## Keys -/

namespace DecisionKey

/-- Whether all lengths in a key fit a word. The matcher stands at the end, without its length. -/
def fits (key : DecisionKey) : Bool :=
  key.context.all textFits && lengthFits key.request.length && Value.itemsFit key.request

theorem contextBytes_append_inj {a b : List String} (fitsA : a.all textFits)
    (fitsB : b.all textFits) (lengths : a.length = b.length) {s t : List UInt8}
    (same : a.flatMap sizedText ++ s = b.flatMap sizedText ++ t) : a = b ∧ s = t := by
  induction a generalizing b with
  | nil =>
      obtain rfl := List.length_eq_zero_iff.mp lengths.symm
      exact ⟨rfl, same⟩
  | cons text rest ih =>
      match b, lengths with
      | text' :: rest', lengths =>
          simp only [List.all_cons, Bool.and_eq_true] at fitsA fitsB
          simp only [List.flatMap_cons, List.append_assoc] at same
          obtain ⟨first, others⟩ := sizedText_append_inj fitsA.1 fitsB.1 same
          obtain ⟨texts, tail⟩ := ih fitsA.2 fitsB.2 (Nat.succ.inj lengths) others
          exact ⟨by rw [first, texts], tail⟩

/-- Keys with the same bytes are the same. -/
theorem toBytes_inj {a b : DecisionKey} (fitsA : a.fits) (fitsB : b.fits)
    (lengths : a.context.length = b.context.length) (same : a.toBytes = b.toBytes) : a = b := by
  simp only [fits, Bool.and_eq_true] at fitsA fitsB
  simp only [toBytes, List.append_assoc] at same
  obtain ⟨contexts, same⟩ := contextBytes_append_inj fitsA.1.1 fitsB.1.1 lengths same
  obtain ⟨counts, same⟩ := bytesOfLength_append_inj fitsA.1.2 fitsB.1.2 same
  obtain ⟨requests, matchers⟩ :=
    Value.itemsToBytes_append_inj _ _ fitsA.2 fitsB.2 counts same
  have given : a.matcher = b.matcher := by
    cases atA : a.matcher <;> cases atB : b.matcher <;> simp [atA, atB] at matchers
    · rfl
    · rw [String.toList_inj.mp (Text.encode_inj matchers)]
  obtain ⟨context, request, matcher⟩ := a
  simp only at contexts requests given
  rw [contexts, requests, given]

end DecisionKey

end AccessControl

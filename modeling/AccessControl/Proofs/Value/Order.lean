import AccessControl.Matcher.Operators
import AccessControl.Proofs.Number.Integers

/-! # Order and equality of values

Values that can be ordered are ordered and compared alike: as texts if both are texts, else by their
numeric views. Two integers make the only difference. They are equal if they are the same integer,
but are ordered by the numbers nearest to them, which beyond `2 ^ 53` may be one number.
-/

namespace AccessControl

namespace Binary64

theorem compare?_eq_some_iff {x y : Binary64} {o : Ordering} :
    x.compare? y = some o ↔ x.isNaN = false ∧ y.isNaN = false ∧ compare x.rank y.rank = o := by
  unfold compare?
  cases x.isNaN <;> cases y.isNaN <;> simp

theorem equals_of_compare? {x y : Binary64} {o : Ordering} (found : x.compare? y = some o) :
    x.equals y = (o == .eq) := by
  obtain ⟨known, known', rfl⟩ := compare?_eq_some_iff.mp found
  unfold equals
  rw [known, known', Bool.eq_iff_iff]
  simp

end Binary64

namespace Value

/-- Two different integers with one nearest number. -/
inductive Conflated : Value → Value → Prop where
  | intro {m n : Int64} (apart : m ≠ n)
      (near : Binary64.ofInt m.toInt = Binary64.ofInt n.toInt) : Conflated (.int m) (.int n)

/-- A comparison evaluates, and holds. -/
def Holds (op : BinaryOp) (a b : Value) : Prop := op.apply a b = .ok (.bool true)

/-- The operators place two values alike: apart or together, and integers in their own order. -/
structure PlacedAlike (a b : Value) : Prop where
  /-- Exactly one of them holds. -/
  exactlyOne : (Holds .less a b ∧ ¬Holds .equal a b ∧ ¬Holds .greater a b) ∨
    (¬Holds .less a b ∧ Holds .equal a b ∧ ¬Holds .greater a b) ∨
    (¬Holds .less a b ∧ ¬Holds .equal a b ∧ Holds .greater a b)
  lessEqual : Holds .lessEqual a b ↔ Holds .less a b ∨ Holds .equal a b
  greaterEqual : Holds .greaterEqual a b ↔ Holds .greater a b ∨ Holds .equal a b
  integers (m n : Int64) : a = .int m → b = .int n →
    (Holds .less a b ↔ m.toInt < n.toInt) ∧ (Holds .greater a b ↔ n.toInt < m.toInt)

/-! ## The order behind the operators -/

theorem ordering_eq_ok {op : BinaryOp} {a b : Value} {o : Ordering}
    (placed : ordering op a b = .ok o) (op' : BinaryOp) : ordering op' a b = .ok o := by
  revert placed
  unfold ordering
  split
  · exact id
  · split
    · exact id
    · intro placed
      cases placed

/-- What an operator that compares makes of an order. -/
def accepts? : BinaryOp → Option (Ordering → Bool)
  | .less => some (· == .lt)
  | .lessEqual => some (· != .gt)
  | .greater => some (· == .gt)
  | .greaterEqual => some (· != .lt)
  | _ => none

theorem apply_of_ordering {op op' : BinaryOp} {accepts : Ordering → Bool} {a b : Value}
    {o : Ordering} (placed : ordering op' a b = .ok o) (compares : accepts? op = some accepts) :
    op.apply a b = .ok (.bool (accepts o)) := by
  have compared_eq (accepts : Ordering → Bool) :
      compared op accepts a b = .ok (.bool (accepts o)) := by
    rw [compared, ordering_eq_ok placed op]
    rfl
  cases op <;> cases compares <;> exact compared_eq _

theorem ordering_of_apply {op : BinaryOp} {accepts : Ordering → Bool} {a b answer : Value}
    (compares : accepts? op = some accepts) (answered : op.apply a b = .ok answer) :
    ∃ o, ordering op a b = .ok o := by
  have placed_of (accepts : Ordering → Bool) (answered : compared op accepts a b = .ok answer) :
      ∃ o, ordering op a b = .ok o := by
    unfold compared at answered
    cases placed : ordering op a b with
    | error e =>
        rw [placed] at answered
        cases answered
    | ok o => exact ⟨o, rfl⟩
  cases op <;> cases compares <;> exact placed_of _ answered

/-! ## Equality against the order -/

theorem natAbs_toInt_le (n : Int64) : n.toInt.natAbs ≤ 2 ^ 63 := by
  have low := n.le_toInt
  have high := n.toInt_lt
  omega

theorem ordering_int (op : BinaryOp) (m n : Int64) :
    ordering op (.int m) (.int n) =
      .ok (compare (Binary64.ofInt m.toInt).rank (Binary64.ofInt n.toInt).rank) := by
  have placed := Binary64.compare?_eq_some_iff.mpr
    ⟨Binary64.isNaN_ofInt (natAbs_toInt_le m), Binary64.isNaN_ofInt (natAbs_toInt_le n), rfl⟩
  unfold ordering number?
  simp only [placed]

/-- Where one value is a number, both are compared and ordered as numbers. -/
theorem numericallyEqual_of_ordering {op : BinaryOp} {a b : Value} {o : Ordering}
    (number : a.isNumeric || b.isNumeric) (placed : ordering op a b = .ok o) :
    numericallyEqual a b = (o == .eq) := by
  unfold ordering at placed
  split at placed
  · cases number
  · split at placed
    next left right =>
      unfold numericallyEqual
      rw [left, right]
      simp only [number, Bool.true_and]
      split at placed
      next found =>
        cases placed
        exact Binary64.equals_of_compare? found
      next => cases placed
    next => cases placed

theorem number?_of_ordering {op : BinaryOp} {a b : Value} {o : Ordering}
    (placed : ordering op a b = .ok o) :
    (∃ s t, a = .str s ∧ b = .str t ∧ compare s t = o) ∨ a.number?.isSome ∧ b.number?.isSome := by
  unfold ordering at placed
  split at placed
  next s t => exact .inl ⟨s, t, rfl, rfl, Except.ok.inj placed⟩
  · split at placed
    next left right => exact .inr ⟨left ▸ rfl, right ▸ rfl⟩
    next => cases placed

/-- Values other than two integers are equal if their order says so. -/
theorem looselyEqual_of_ordering {op : BinaryOp} {a b : Value} {o : Ordering}
    (placed : ordering op a b = .ok o) (mixed : ∀ m n, a = .int m → b ≠ .int n) :
    a.looselyEqual b = (o == .eq) := by
  have texts (s t : String) : (s == t) = (compare s t == .eq) := by
    rw [Bool.eq_iff_iff]
    simp
  have numbers (number : a.isNumeric || b.isNumeric)
      (numeric : a.looselyEqual b = numericallyEqual a b) : a.looselyEqual b = (o == .eq) :=
    numeric.trans (numericallyEqual_of_ordering number placed)
  rcases number?_of_ordering placed with ⟨s, t, rfl, rfl, rfl⟩ | ⟨left, right⟩
  · exact texts s t
  · -- what is no number and no text has no numeric view
    cases a with
    | bool | list | map => cases left
    | str s =>
        cases b with
        | bool | list | map => cases right
        | str t =>
            obtain rfl : compare s t = o := Except.ok.inj placed
            exact texts s t
        | int | float => exact numbers rfl (by simp only [looselyEqual])
    | int m =>
        cases b with
        | bool | list | map => cases right
        | int n => exact absurd rfl (mixed m n rfl)
        | float | str => exact numbers rfl (by simp only [looselyEqual])
    | float x =>
        cases b with
        | bool | list | map => cases right
        | int | float | str => exact numbers rfl (by simp only [looselyEqual])

theorem conflated_int_iff {m n : Int64} : Conflated (.int m) (.int n) ↔
    m ≠ n ∧ (Binary64.ofInt m.toInt).rank = (Binary64.ofInt n.toInt).rank :=
  ⟨fun ⟨apart, near⟩ => ⟨apart, congrArg Binary64.rank near⟩,
    fun ⟨apart, same⟩ =>
      ⟨apart, Binary64.ofInt_eq_of_rank (natAbs_toInt_le m) (natAbs_toInt_le n) same⟩⟩

theorem looselyEqual_iff_of_ordering {op : BinaryOp} {a b : Value} {o : Ordering}
    (placed : ordering op a b = .ok o) :
    a.looselyEqual b = (o == .eq) ↔ ¬Conflated a b := by
  by_cases integers : ∃ m n, a = .int m ∧ b = .int n
  · obtain ⟨m, n, rfl, rfl⟩ := integers
    obtain rfl := Except.ok.inj ((ordering_int op m n).symm.trans placed)
    show (m == n) = _ ↔ _
    rw [conflated_int_iff, Bool.eq_iff_iff]
    by_cases same : m = n
    · subst same
      simp
    · simp [same]
  · have mixed (m n : Int64) (left : a = .int m) : b ≠ .int n :=
      fun right => integers ⟨m, n, left, right⟩
    refine iff_of_true (looselyEqual_of_ordering placed mixed) ?_
    rintro ⟨_, _⟩
    exact integers ⟨_, _, rfl, rfl⟩

theorem toInt_lt_of_rank {m n : Int64}
    (less : (Binary64.ofInt m.toInt).rank < (Binary64.ofInt n.toInt).rank) :
    m.toInt < n.toInt := by
  by_contra notLess
  have := Binary64.rank_ofInt_mono (natAbs_toInt_le n) (natAbs_toInt_le m) (not_lt.mp notLess)
  omega

theorem rank_lt_of_not_conflated {m n : Int64} (less : m.toInt < n.toInt)
    (apart : ¬Conflated (.int m) (.int n)) :
    (Binary64.ofInt m.toInt).rank < (Binary64.ofInt n.toInt).rank := by
  have differ : m ≠ n := by
    rintro rfl
    exact lt_irrefl _ less
  refine lt_of_le_of_ne
    (Binary64.rank_ofInt_mono (natAbs_toInt_le m) (natAbs_toInt_le n) less.le) ?_
  exact fun same => apart (conflated_int_iff.mpr ⟨differ, same⟩)

theorem Conflated.symm {a b : Value} : Conflated a b → Conflated b a
  | ⟨apart, near⟩ => ⟨apart.symm, near.symm⟩

/-- Integers up to `2 ^ 53` are numbers, each its own. -/
theorem not_conflated_of_natAbs_le {m n : Int64} (small : m.toInt.natAbs ≤ 2 ^ 53)
    (small' : n.toInt.natAbs ≤ 2 ^ 53) : ¬Conflated (.int m) (.int n) := by
  intro conflated
  obtain ⟨differ, same⟩ := conflated_int_iff.mp conflated
  rcases lt_trichotomy m.toInt n.toInt with less | equal | greater
  · exact absurd same (Binary64.rank_ofInt_lt small small' less).ne
  · exact differ (Int64.toInt_inj.mp equal)
  · exact absurd same (Binary64.rank_ofInt_lt small' small greater).ne'

/-! ## What the operators say -/

theorem holds_iff_of_ordering {op op' : BinaryOp} {accepts : Ordering → Bool} {a b : Value}
    {o : Ordering} (placed : ordering op' a b = .ok o) (compares : accepts? op = some accepts) :
    Holds op a b ↔ accepts o = true := by
  rw [Holds, apply_of_ordering placed compares]
  simp

theorem holds_equal_iff {a b : Value} : Holds .equal a b ↔ a.looselyEqual b = true := by
  rw [Holds, BinaryOp.apply]
  simp

theorem holds_of_ordering {op : BinaryOp} {a b : Value} {o : Ordering}
    (placed : ordering op a b = .ok o) :
    (Holds .less a b ↔ o = .lt) ∧ (Holds .greater a b ↔ o = .gt) ∧
      (Holds .lessEqual a b ↔ o ≠ .gt) ∧ (Holds .greaterEqual a b ↔ o ≠ .lt) := by
  refine ⟨?_, ?_, ?_, ?_⟩ <;> rw [holds_iff_of_ordering placed rfl] <;> simp

/-- The operators place values alike exactly if equality agrees with the order. -/
theorem placedAlike_iff_looselyEqual {op : BinaryOp} {a b : Value} {o : Ordering}
    (placed : ordering op a b = .ok o) : PlacedAlike a b ↔ a.looselyEqual b = (o == .eq) := by
  obtain ⟨less, greater, lessEqual, greaterEqual⟩ := holds_of_ordering placed
  constructor
  · intro alike
    have one := alike.exactlyOne
    rw [less, greater, holds_equal_iff] at one
    cases o <;> simp_all
  · intro agrees
    refine ⟨?_, ?_, ?_, ?_⟩
    · rw [less, greater, holds_equal_iff, agrees]
      cases o <;> simp
    · rw [lessEqual, less, holds_equal_iff, agrees]
      cases o <;> simp
    · rw [greaterEqual, greater, holds_equal_iff, agrees]
      cases o <;> simp
    · rintro m n rfl rfl
      have apart := (looselyEqual_iff_of_ordering placed).mp agrees
      obtain rfl := Except.ok.inj ((ordering_int op m n).symm.trans placed)
      rw [less, greater, compare_lt_iff_lt, compare_gt_iff_gt]
      exact ⟨⟨toInt_lt_of_rank, fun less => rank_lt_of_not_conflated less apart⟩,
        ⟨toInt_lt_of_rank, fun less =>
          rank_lt_of_not_conflated less fun conflated => apart conflated.symm⟩⟩

/-- Values that can be ordered get an answer from each operator that compares. The answers agree on
    the place of the values unless two integers are conflated: of these each is at most the other,
    and they are neither equal nor apart. An answer never inverts the order of two integers, and
    up to `2 ^ 53` none are conflated. -/
theorem placedAlike_iff {a b answer : Value} (ordered : BinaryOp.less.apply a b = .ok answer) :
    (∀ op ∈ [BinaryOp.less, .equal, .greater, .lessEqual, .greaterEqual],
      ∃ holds, op.apply a b = .ok (.bool holds)) ∧
    (PlacedAlike a b ↔ ¬Conflated a b) ∧
    (Conflated a b → ¬Holds .less a b ∧ ¬Holds .equal a b ∧ ¬Holds .greater a b ∧
      Holds .lessEqual a b ∧ Holds .greaterEqual a b) ∧
    ∀ m n : Int64, a = .int m → b = .int n →
      (Holds .less a b → m.toInt < n.toInt) ∧ (Holds .greater a b → n.toInt < m.toInt) ∧
      (m.toInt.natAbs ≤ 2 ^ 53 → n.toInt.natAbs ≤ 2 ^ 53 → ¬Conflated a b) := by
  obtain ⟨o, placed⟩ := ordering_of_apply rfl ordered
  refine ⟨?_, ?_, ?_, ?_⟩
  · intro op member
    simp only [List.mem_cons, List.not_mem_nil, or_false] at member
    rcases member with rfl | rfl | rfl | rfl | rfl
    · exact ⟨_, apply_of_ordering placed rfl⟩
    · exact ⟨_, rfl⟩
    · exact ⟨_, apply_of_ordering placed rfl⟩
    · exact ⟨_, apply_of_ordering placed rfl⟩
    · exact ⟨_, apply_of_ordering placed rfl⟩
  · rw [placedAlike_iff_looselyEqual placed, looselyEqual_iff_of_ordering placed]
  · rintro ⟨apart, near⟩
    rename_i m n
    obtain rfl := Except.ok.inj ((ordering_int _ m n).symm.trans placed)
    have same : compare (Binary64.ofInt m.toInt).rank (Binary64.ofInt n.toInt).rank = .eq := by
      rw [near, compare_eq_iff_eq]
    obtain ⟨less, greater, lessEqual, greaterEqual⟩ := holds_of_ordering (same ▸ placed)
    rw [less, greater, lessEqual, greaterEqual, holds_equal_iff]
    exact ⟨by decide, by simpa [looselyEqual] using apart, by decide, by decide, by decide⟩
  · rintro m n rfl rfl
    obtain rfl := Except.ok.inj ((ordering_int _ m n).symm.trans placed)
    obtain ⟨less, greater, -, -⟩ := holds_of_ordering placed
    rw [less, greater, compare_lt_iff_lt, compare_gt_iff_gt]
    exact ⟨toInt_lt_of_rank, toInt_lt_of_rank, not_conflated_of_natAbs_le⟩

theorem placedAlike_iff_mixed : BinaryOp.less.apply (.int 2) (.str " 2.5 ") = .ok (.bool true) ∧
    PlacedAlike (.int 2) (.str " 2.5 ") := by
  have ordered : BinaryOp.less.apply (.int 2) (.str " 2.5 ") = .ok (.bool true) := rfl
  exact ⟨ordered, (placedAlike_iff ordered).2.1.mpr (by rintro ⟨⟩)⟩

/-- The first integer that is no number is not apart from its neighbour, nor equal to it. -/
theorem not_placedAlike_neighbours :
    BinaryOp.less.apply (.int 9007199254740992) (.int 9007199254740993) = .ok (.bool false) ∧
    BinaryOp.equal.apply (.int 9007199254740992) (.int 9007199254740993) = .ok (.bool false) ∧
    BinaryOp.greater.apply (.int 9007199254740992) (.int 9007199254740993) = .ok (.bool false) ∧
    ¬PlacedAlike (.int 9007199254740992) (.int 9007199254740993) := by
  have less : BinaryOp.less.apply (.int 9007199254740992) (.int 9007199254740993) =
      .ok (.bool false) := rfl
  have equal : BinaryOp.equal.apply (.int 9007199254740992) (.int 9007199254740993) =
      .ok (.bool false) := rfl
  have greater : BinaryOp.greater.apply (.int 9007199254740992) (.int 9007199254740993) =
      .ok (.bool false) := rfl
  refine ⟨less, equal, greater, fun alike => ?_⟩
  have one := alike.exactlyOne
  rw [Holds, Holds, Holds, less, equal, greater] at one
  simp at one

end Value

end AccessControl

import AccessControl.Proofs.Pattern.Segments
import Mathlib.Data.List.Nodup

/-! # Names that are bound more than once

A name that is repeated in a pattern must stand for one text. Only the preferred split of a key is
asked whether it does, although another split may say so. The texts before the first wildcard and
behind the last one are the same in all splits. So the answer is right for all keys exactly if no name
between two wildcards stands anywhere else.
-/

namespace AccessControl.Pattern

open Regex

/-! ## Bindings -/

/-- All occurrences of a name stand for one text. -/
def Agree (bound : List (List Char × List Char)) : Prop :=
  ∀ name text text', (name, text) ∈ bound → (name, text') ∈ bound → text = text'

theorem consistent_iff {bound : List (List Char × List Char)} :
    consistent bound = true ↔ Agree bound := by
  have first {name text : List Char} (member : (name, text) ∈ bound) :
      ∃ text', bound.lookup name = some text' ∧ (name, text') ∈ bound := by
    cases found : bound.lookup name with
    | none => exact absurd (List.lookup_eq_none_iff.mp found _ member) (by simp)
    | some text' =>
        obtain ⟨before, behind, split, _⟩ := List.lookup_eq_some_iff.mp found
        exact ⟨text', rfl, by simp [split]⟩
  rw [consistent, List.all_eq_true]
  constructor
  · intro each name text text' member member'
    obtain ⟨one, found, _⟩ := first member
    have same := each _ member
    have same' := each _ member'
    simp only [found, Option.all_some, beq_iff_eq] at same same'
    exact same.symm.trans same'
  · rintro agree ⟨name, text⟩ member
    obtain ⟨one, found, here⟩ := first member
    simpa [found] using agree name one text here member

theorem mapM_groups (texts : Nat → Option (List Char)) {bound : List (List Char × List Char)}
    (offset : Nat) (groups : ∀ k entry, bound[k]? = some entry → texts (offset + k) = some entry.2) :
    ((bound.map (·.1)).zipIdx offset).mapM (fun (name, position) =>
      (texts position).map fun text => (name, text)) = some bound := by
  induction bound generalizing offset with
  | nil => rfl
  | cons entry bound ih =>
      have first : texts offset = some entry.2 := groups 0 entry rfl
      have others := ih (offset + 1) fun k entry' here => by
        rw [Nat.succ_add_eq_add_succ]
        exact groups (k + 1) entry' here
      simp only [List.map_cons, List.zipIdx_cons, List.mapM_cons, first, others, Option.map_some]
      rfl

variable {pattern : String} {parts : List PathPart}

/-- Only the preferred split of a key is asked whether its bindings agree. -/
theorem keyMatch4_iff (pieces : piecesOf bracedVariable pattern = parts.flatMap (·.pieces))
    (plain : ∀ part ∈ parts, part.IsPlain) (small : fits bracedVariable pattern true = true)
    {key : String} :
    keyMatch4 key pattern = true ↔ ∃ bound, Preferred parts key.toList bound ∧ Agree bound := by
  have read : capturing? bracedVariable pattern = some (expression true parts) :=
    (capturing?_eq _ _).trans (parse_pieces pieces plain small)
  simp only [keyMatch4, read, pieces, names_pieces]
  cases found : (expression true parts).find? key.toList with
  | none =>
      refine iff_of_false Bool.false_ne_true fun ⟨bound, preferred, _⟩ => ?_
      have some : ((expression true parts).find? key.toList).isSome = true :=
        isSome_find?_expression_iff.mpr ⟨bound, preferred.splits⟩
      rw [found] at some
      cases some
  | some u =>
      obtain ⟨bound, preferred, groups⟩ := preferred_of_find? found
      have bindings := mapM_groups (fun k => groupText? key.toList u (k + 1)) 0
        fun k entry here => (Nat.zero_add k).symm ▸ groups k entry here
      rw [preferred.splits.names] at bindings
      simp only [bindings, consistent_iff]
      constructor
      · exact fun agree => ⟨bound, preferred, agree⟩
      · rintro ⟨bound', preferred', agree⟩
        rwa [preferred.unique preferred']

/-! ## Settled patterns -/

/-- The names of the variables in order. -/
def namesOf (segments : List Segment) : List (List Char) := variableNames (partsOf segments)

@[simp]
theorem namesOf_nil : namesOf [] = [] := rfl

theorem namesOf_append (segments others : List Segment) :
    namesOf (segments ++ others) = namesOf segments ++ namesOf others := by
  rw [namesOf, partsOf_append]
  exact List.filterMap_append

@[simp]
theorem namesOf_wildcard (segments : List Segment) :
    namesOf (.wildcard :: segments) = namesOf segments := rfl

/-- No name that stands between two wildcards stands anywhere else. -/
def Settled (segments : List Segment) : Prop :=
  ∀ before middle after, segments = before ++ .wildcard :: (middle ++ .wildcard :: after) →
    ∀ name ∈ namesOf middle, (namesOf segments).count name = 1

theorem map_fst_bindings {segments : List Segment} {values : List (List Char)}
    (takes : List.Forall₂ Segment.Takes segments values) :
    (bindings segments values).map (·.1) = namesOf segments :=
  (splits_partsOf_iff.mpr ⟨values, takes, rfl, rfl⟩).names

theorem exists_text_of_mem_namesOf {segments : List Segment} {values : List (List Char)}
    (takes : List.Forall₂ Segment.Takes segments values) {name : List Char}
    (member : name ∈ namesOf segments) : ∃ text, (name, text) ∈ bindings segments values := by
  rw [← map_fst_bindings takes] at member
  obtain ⟨⟨_, text⟩, here, rfl⟩ := List.mem_map.mp member
  exact ⟨text, here⟩

theorem takes_append {segments segments' : List Segment} {values : List (List Char)}
    (takes : List.Forall₂ Segment.Takes (segments ++ segments') values) :
    ∃ first last, values = first ++ last ∧ List.Forall₂ Segment.Takes segments first ∧
      List.Forall₂ Segment.Takes segments' last := by
  induction segments generalizing values with
  | nil => exact ⟨[], values, rfl, .nil, takes⟩
  | cons segment segments ih =>
      cases takes with
      | cons here others =>
          obtain ⟨first, last, rfl, takes, takes'⟩ := ih others
          exact ⟨_ :: first, last, rfl, .cons here takes, takes'⟩

theorem exists_frame (segments : List Segment) :
    ∃ first middle last, segments = first ++ (middle ++ last) ∧ .wildcard ∉ first ∧
      .wildcard ∉ last ∧ (middle = [] ∨ middle = [.wildcard] ∨
        ∃ inner, middle = .wildcard :: (inner ++ [.wildcard])) := by
  by_cases some : .wildcard ∈ segments
  · obtain ⟨first, rest, rfl, none⟩ := List.eq_append_cons_of_mem some
    by_cases more : .wildcard ∈ rest
    · obtain ⟨last, inner, split, none'⟩ := List.eq_append_cons_of_mem (List.mem_reverse.mpr more)
      obtain rfl := (List.reverse_eq_iff.mp split)
      refine ⟨first, .wildcard :: (inner.reverse ++ [.wildcard]), last.reverse, by simp, none,
        by simpa using none', .inr (.inr ⟨_, rfl⟩)⟩
    · exact ⟨first, [.wildcard], rest, rfl, none, more, .inr (.inl rfl)⟩
  · exact ⟨segments, [], [], by simp, some, List.not_mem_nil, .inl rfl⟩

theorem eq_of_count_eq_one {bound : List (List Char × List Char)} {name text text' : List Char}
    (once : (bound.map (·.1)).count name = 1) (member : (name, text) ∈ bound)
    (member' : (name, text') ∈ bound) : text = text' := by
  obtain ⟨before, behind, rfl⟩ := List.append_of_mem member
  have none : name ∉ before.map (·.1) ∧ name ∉ behind.map (·.1) := by
    rw [← List.count_eq_zero, ← List.count_eq_zero]
    simp only [List.map_append, List.map_cons, List.count_append, List.count_cons_self] at once
    omega
  rw [List.mem_append, List.mem_cons] at member'
  obtain here | same | here := member'
  · exact absurd (List.mem_map_of_mem here) none.1
  · exact (congrArg Prod.snd same).symm
  · exact absurd (List.mem_map_of_mem here) none.2

/-- In a settled pattern one split agrees as well as another. -/
theorem Settled.agree {segments : List Segment} (settled : Settled segments)
    {values values' : List (List Char)} (takes : List.Forall₂ Segment.Takes segments values)
    (takes' : List.Forall₂ Segment.Takes segments values') (same : joined values = joined values')
    (agree : Agree (bindings segments values)) : Agree (bindings segments values') := by
  have names := map_fst_bindings takes'
  obtain ⟨first, middle, last, rfl, none, none', shape⟩ := exists_frame segments
  have once : ∀ name ∈ namesOf middle,
      (namesOf (first ++ (middle ++ last))).count name = 1 := by
    obtain rfl | rfl | ⟨inner, rfl⟩ := shape
    · nofun
    · nofun
    · intro name member
      have inside : name ∈ namesOf inner := by simpa [namesOf_append] using member
      exact settled first inner last (by simp) name inside
  obtain ⟨a, _, rfl, takesA, takes⟩ := takes_append takes
  obtain ⟨m, c, rfl, takesM, takesC⟩ := takes_append takes
  obtain ⟨a', _, rfl, takesA', takes'⟩ := takes_append takes'
  obtain ⟨m', c', rfl, takesM', takesC'⟩ := takes_append takes'
  -- what stands before the first wildcard and behind the last one is the same in all splits
  rw [joined_append, joined_append a'] at same
  obtain ⟨rfl, rest⟩ := joined_forced (slash_notMem_of_takes takesA none)
    (slash_notMem_of_takes takesA' none) (takesA.length_eq.symm.trans takesA'.length_eq) same
  have length := takesC.length_eq.symm.trans takesC'.length_eq
  obtain rfl : c = c' := by
    rw [joined_append, joined_append] at rest
    obtain ⟨before, _, suffix⟩ | ⟨before, _, suffix⟩ := List.append_eq_append_iff.mp rest
    · exact joined_suffix (slash_notMem_of_takes takesC none') length suffix
    · exact (joined_suffix (slash_notMem_of_takes takesC' none') length.symm suffix).symm
  simp only [bindings_append takesA.length_eq, bindings_append takesM.length_eq,
    bindings_append takesM'.length_eq] at agree names ⊢
  intro name text text' member member'
  by_cases inner : name ∈ namesOf middle
  · exact eq_of_count_eq_one (names ▸ once name inner) member member'
  · have outside {text : List Char} (member : (name, text) ∈
        bindings first a ++ (bindings middle m' ++ bindings last c)) :
        (name, text) ∈ bindings first a ++ (bindings middle m ++ bindings last c) := by
      simp only [List.mem_append] at member ⊢
      refine member.imp_right (Or.imp_left fun here => absurd ?_ inner)
      exact map_fst_bindings takesM' ▸ List.mem_map_of_mem here
    exact agree name text text' (outside member) (outside member')

/-- Names do no harm if none is repeated, or if there are no two wildcards. -/
theorem settled_of {segments : List Segment}
    (simple : (namesOf segments).Nodup ∨ segments.count .wildcard ≤ 1) : Settled segments := by
  rintro before middle after rfl name member
  obtain distinct | few := simple
  · refine List.count_eq_one_of_mem distinct ?_
    simp [namesOf_append, member]
  · simp only [List.count_append, List.count_cons_self] at few
    omega

/-! ## Patterns that are not settled -/

/-- A text that a segment stands for, of a given length if it is a variable. -/
def Segment.sample (n : Nat) : Segment → List Char
  | .text word => word.chars
  | .wildcard => []
  | .named _ _ => List.replicate (n + 1) 'x'

/-- A text for each segment, of another length for each variable. -/
def samples : List Segment → List (List Char)
  | [] => []
  | segment :: segments => segment.sample (segments.length + 1) :: samples segments

theorem Segment.takes_sample (n : Nat) (segment : Segment) : segment.Takes (segment.sample n) := by
  cases segment with
  | text word => rfl
  | wildcard => exact List.not_mem_nil
  | named => exact ⟨nofun, fun member => absurd (List.eq_of_mem_replicate member) (by decide)⟩

theorem Segment.isNameChar_sample {n : Nat} {segment : Segment} :
    ∀ c ∈ segment.sample n, isNameChar c = true := by
  cases segment with
  | text word => exact word.plain
  | wildcard => nofun
  | named =>
      intro c member
      rw [List.eq_of_mem_replicate member]
      rfl

theorem takes_map_sample (segments : List Segment) :
    List.Forall₂ Segment.Takes segments (segments.map (·.sample 0)) :=
  List.forall₂_map_right_iff.mpr (List.forall₂_same.mpr fun segment _ => segment.takes_sample 0)

theorem takes_samples (segments : List Segment) :
    List.Forall₂ Segment.Takes segments (samples segments) := by
  induction segments with
  | nil => exact .nil
  | cons segment segments ih => exact .cons (segment.takes_sample _) ih

theorem notMem_map_sample {segments : List Segment} {c : Char} (other : isNameChar c = false) :
    ∀ value ∈ segments.map (·.sample 0), c ∉ value := by
  intro value member
  obtain ⟨segment, _, rfl⟩ := List.mem_map.mp member
  exact notMem_of_isNameChar Segment.isNameChar_sample other

theorem notMem_samples {segments : List Segment} {c : Char} (other : isNameChar c = false) :
    ∀ value ∈ samples segments, c ∉ value := by
  induction segments with
  | nil => nofun
  | cons segment segments ih =>
      exact List.forall_mem_cons.mpr ⟨notMem_of_isNameChar Segment.isNameChar_sample other, ih⟩

theorem newline_notMem_joined {values : List (List Char)} (line : ∀ value ∈ values, '\n' ∉ value) :
    '\n' ∉ joined values ++ ['/'] := by
  simp only [joined, List.mem_append, List.mem_flatMap, List.mem_cons]
  rintro (⟨value, member, slash | inside⟩ | slash | nowhere)
  · exact absurd slash (by decide)
  · exact line value member inside
  · exact absurd slash (by decide)
  · cases nowhere

theorem bindings_map_sample {segments : List Segment} {entry : List Char × List Char}
    (member : entry ∈ bindings segments (segments.map (·.sample 0))) : entry.2 = ['x'] := by
  induction segments with
  | nil => cases member
  | cons segment segments ih =>
      obtain here | later := List.mem_append.mp member
      · cases segment with
        | text | wildcard => cases here
        | named => exact List.mem_singleton.mp here ▸ rfl
      · exact ih later

theorem bindings_samples (segments : List Segment) :
    (bindings segments (samples segments)).Nodup ∧
      ∀ entry ∈ bindings segments (samples segments),
        1 < entry.2.length ∧ entry.2.length ≤ segments.length + 1 := by
  induction segments with
  | nil => exact ⟨.nil, nofun⟩
  | cons segment segments ih =>
      obtain ⟨nodup, lengths⟩ := ih
      have longer : ∀ entry ∈ bindings segments (samples segments),
          1 < entry.2.length ∧ entry.2.length ≤ segments.length + 1 + 1 :=
        fun entry member => (lengths entry member).imp_right Nat.le_succ_of_le
      cases segment with
      | text | wildcard => exact ⟨nodup, longer⟩
      | named name some =>
          have length : ((Segment.named name some).sample (segments.length + 1)).length =
              segments.length + 1 + 1 := List.length_replicate
          refine ⟨List.nodup_cons.mpr ⟨fun member => ?_, nodup⟩, List.forall_mem_cons.mpr ⟨?_, longer⟩⟩
          · have := (lengths _ member).2
            dsimp only at this
            omega
          · rw [List.length_cons]
            dsimp only
            omega

theorem nodup_namesOf_of_agree {segments : List Segment}
    (agree : Agree (bindings segments (samples segments))) : (namesOf segments).Nodup := by
  rw [← map_fst_bindings (takes_samples segments)]
  refine (bindings_samples segments).1.map_on fun entry member entry' member' same => ?_
  refine Prod.ext same (agree entry.1 entry.2 entry'.2 member ?_)
  rwa [same]

theorem exists_of_not_settled {segments : List Segment} (unsettled : ¬Settled segments) :
    ∃ first middle last name, segments = first ++ .wildcard :: (middle ++ .wildcard :: last) ∧
      .wildcard ∉ first ∧ name ∈ namesOf middle ∧ (namesOf segments).count name ≠ 1 := by
  unfold Settled at unsettled
  push Not at unsettled
  obtain ⟨before, middle, after, split, name, member, more⟩ := unsettled
  by_cases earlier : .wildcard ∈ before
  · obtain ⟨first, between, rfl, none⟩ := List.eq_append_cons_of_mem earlier
    refine ⟨first, between ++ .wildcard :: middle, after, name, by simp [split], none, ?_, more⟩
    rw [namesOf_append, namesOf_wildcard]
    exact List.mem_append_right _ member
  · exact ⟨before, middle, after, name, split, earlier, member, more⟩

theorem not_agree_samples {first middle last : List Segment} {name : List Char}
    (member : name ∈ namesOf middle)
    (more : (namesOf (first ++ .wildcard :: (middle ++ .wildcard :: last))).count name ≠ 1) :
    ¬Agree (bindings first (first.map (·.sample 0)) ++ (bindings middle (samples middle) ++
      bindings last (last.map (·.sample 0)))) := by
  intro agree
  have inner : Agree (bindings middle (samples middle)) := fun name text text' member member' =>
    agree name text text' (by simp [member]) (by simp [member'])
  have once := List.count_eq_one_of_mem (nodup_namesOf_of_agree inner) member
  obtain ⟨text, here⟩ := exists_text_of_mem_namesOf (takes_samples middle) member
  have long := ((bindings_samples middle).2 _ here).1
  have elsewhere {segments : List Segment}
      (part : bindings segments (segments.map (·.sample 0)) ⊆ bindings first
        (first.map (·.sample 0)) ++ (bindings middle (samples middle) ++
          bindings last (last.map (·.sample 0)))) : name ∉ namesOf segments := by
    intro other
    obtain ⟨text', there⟩ := exists_text_of_mem_namesOf (takes_map_sample segments) other
    obtain rfl : text' = ['x'] := bindings_map_sample there
    obtain rfl := agree name text ['x'] (by simp [here]) (part there)
    exact Nat.lt_irrefl 1 long
  have before : name ∉ namesOf first := elsewhere (List.subset_append_left _ _)
  have behind : name ∉ namesOf last := elsewhere fun _ inside => by simp [inside]
  refine more ?_
  simp only [namesOf_append, namesOf_wildcard, List.count_append, once,
    List.count_eq_zero.mpr before, List.count_eq_zero.mpr behind]

/-- The first wildcard goes as far as what is behind it can be split without slashes. -/
theorem Preferred.bound_eq {first rest : List Segment} (none : .wildcard ∉ first)
    {values values' : List (List Char)} (takes : List.Forall₂ Segment.Takes first values)
    {before : List Char} (line : '\n' ∉ before) (takes' : List.Forall₂ Segment.Takes rest values')
    (plain : ∀ value ∈ values', '/' ∉ value) {bound : List (List Char × List Char)}
    (preferred : Preferred (partsOf (first ++ .wildcard :: rest))
      (joined values ++ '/' :: (before ++ joined values')) bound) :
    bound = bindings first values ++ bindings rest values' := by
  have row : partsOf (first ++ .wildcard :: rest) =
      partsOf first ++ ([.literal '/'] ++ .wildcard :: partsOf rest) := partsOf_append _ _
  rw [row] at preferred
  obtain ⟨start, _, _, _, whole, rfl, splits, behind⟩ := preferred.append
  obtain ⟨slash, _, _, _, rfl, rfl, splits', opened⟩ := behind.append
  obtain ⟨rfl, rfl⟩ := splits_singleton_iff.mp splits'
  obtain ⟨starts, takesFirst, rfl, rfl⟩ := splits_partsOf_iff.mp splits
  cases opened with
  | @cons _ taken _ _ key longest _ ending =>
      obtain ⟨ends, takesRest, rfl, rfl⟩ := splits_partsOf_iff.mp ending.splits
      have whole : joined values ++ joined [before ++ joined values'] =
          joined starts ++ joined [taken ++ joined ends] := by
        simpa [joined] using whole
      obtain ⟨rfl, rest⟩ := joined_forced (slash_notMem_of_takes takes none)
        (slash_notMem_of_takes takesFirst none)
        (takes.length_eq.symm.trans takesFirst.length_eq) whole
      have rest : taken ++ joined ends = before ++ joined values' := by
        simpa [joined] using rest.symm
      have further := longest before (joined values') line rest
        ⟨_, splits_partsOf_iff.mpr ⟨values', takes', rfl, rfl⟩⟩
      obtain ⟨more, rfl⟩ : before <+: taken :=
        List.prefix_of_prefix_length_le ⟨_, rest.symm⟩ (List.prefix_append _ _) further
      rw [List.append_assoc] at rest
      have suffix := List.append_cancel_left rest
      rw [joined_suffix plain (takes'.length_eq.symm.trans takesRest.length_eq) suffix.symm]
      simp [PathPart.binding]

/-- There is a key that splits with agreement, but not in the preferred split: there the middle has
    samples that do not agree. -/
theorem exists_missed {segments : List Segment} (unsettled : ¬Settled segments) :
    ∃ key, (∃ bound, Splits (partsOf segments) key bound ∧ Agree bound) ∧
      ¬∃ bound, Preferred (partsOf segments) key bound ∧ Agree bound := by
  obtain ⟨first, middle, last, name, rfl, none, member, more⟩ := exists_of_not_settled unsettled
  let plain (segments : List Segment) := segments.map (·.sample 0)
  let passed := joined (plain middle) ++ ['/']
  let passed' := joined (samples middle) ++ ['/']
  refine ⟨joined (plain first) ++ '/' :: (passed ++ joined (samples middle ++ [] :: plain last)),
    ⟨_, splits_partsOf_iff.mpr
      ⟨plain first ++ [] :: (plain middle ++ passed' :: plain last), ?_, ?_, rfl⟩, ?_⟩, ?_⟩
  · have passes' : Segment.wildcard.Takes passed' := newline_notMem_joined (notMem_samples rfl)
    exact List.rel_append (takes_map_sample first) (.cons List.not_mem_nil
      (List.rel_append (takes_map_sample middle) (.cons passes' (takes_map_sample last))))
  · simp [passed, passed', joined_append, joined_cons]
  · have around : bindings (first ++ .wildcard :: (middle ++ .wildcard :: last))
        (plain first ++ [] :: (plain middle ++ passed' :: plain last)) = bindings first (plain first) ++
          (bindings middle (plain middle) ++ bindings last (plain last)) :=
      (bindings_append (List.length_map _).symm _ _).trans
        (congrArg (_ ++ ·) (bindings_append (List.length_map _).symm _ _))
    have one {name text : List Char} (member : (name, text) ∈ bindings first (plain first) ++
        (bindings middle (plain middle) ++ bindings last (plain last))) : text = ['x'] := by
      simp only [List.mem_append] at member
      obtain here | here | here := member <;> exact bindings_map_sample here
    rw [around]
    exact fun name text text' member member' => (one member).trans (one member').symm
  · rintro ⟨bound, preferred, agree⟩
    have passes : '\n' ∉ passed := newline_notMem_joined (notMem_map_sample rfl)
    have slashes : ∀ value ∈ samples middle ++ [] :: plain last, '/' ∉ value :=
      List.forall_mem_append.mpr ⟨notMem_samples rfl,
        List.forall_mem_cons.mpr ⟨List.not_mem_nil, notMem_map_sample rfl⟩⟩
    have behind : List.Forall₂ Segment.Takes (middle ++ .wildcard :: last)
        (samples middle ++ [] :: plain last) :=
      List.rel_append (takes_samples middle) (.cons List.not_mem_nil (takes_map_sample last))
    rw [preferred.bound_eq none (takes_map_sample first) passes behind slashes,
      bindings_append (takes_samples middle).length_eq] at agree
    exact not_agree_samples member more agree

/-! ## Bindings that are found -/

section

variable {segments : List Segment} (small : fits bracedVariable (patternOf segments) true = true)

include small

theorem keyMatch4_patternOf_iff {key : String} :
    keyMatch4 key (patternOf segments) = true ↔
      ∃ bound, Preferred (partsOf segments) key.toList bound ∧ Agree bound :=
  keyMatch4_iff (piecesOf_patternOf segments) (isPlain_partsOf segments) small

/-- A key matches a pattern with variables in braces just if its preferred split agrees: part by part
    from the left, the longest text is taken that leaves a split of the rest, and each name must stand
    for one text there. So some split agrees if a key matches. That one does is enough for all keys
    exactly if no name between two wildcards stands anywhere else in the pattern. -/
theorem bracedPattern_binds :
    (∀ key, keyMatch4 key (patternOf segments) = true ↔
      ∃ bound, Preferred (partsOf segments) key.toList bound ∧ Agree bound) ∧
    (∀ key, keyMatch4 key (patternOf segments) = true →
      ∃ bound, Splits (partsOf segments) key.toList bound ∧ Agree bound) ∧
    ((∀ key, keyMatch4 key (patternOf segments) = true ↔
      ∃ bound, Splits (partsOf segments) key.toList bound ∧ Agree bound) ↔ Settled segments) := by
  have sound (key : String) (found : keyMatch4 key (patternOf segments) = true) :
      ∃ bound, Splits (partsOf segments) key.toList bound ∧ Agree bound := by
    obtain ⟨bound, preferred, agree⟩ := (keyMatch4_patternOf_iff small).mp found
    exact ⟨bound, preferred.splits, agree⟩
  refine ⟨fun key => keyMatch4_patternOf_iff small, sound, fun finds => ?_, fun settled key => ?_⟩
  · by_contra unsettled
    obtain ⟨key, agreeing, missed⟩ := exists_missed unsettled
    have found := (finds (String.ofList key)).mpr (by rwa [String.toList_ofList])
    rw [keyMatch4_patternOf_iff small, String.toList_ofList] at found
    exact missed found
  · refine ⟨sound key, ?_⟩
    rintro ⟨bound, splits, agree⟩
    obtain ⟨bound', preferred⟩ := exists_preferred_iff.mpr ⟨bound, splits⟩
    obtain ⟨values, takes, whole, rfl⟩ := splits_partsOf_iff.mp splits
    obtain ⟨values', takes', whole', rfl⟩ := splits_partsOf_iff.mp preferred.splits
    exact (keyMatch4_patternOf_iff small).mpr
      ⟨_, preferred, settled.agree takes takes' (whole.symm.trans whole') agree⟩

end

/-- A segment that is the variable `a`. -/
def variableA : Segment := .named ⟨['a'], List.forall_mem_singleton.mpr rfl⟩ (List.cons_ne_nil _ _)

/-- With one wildcard, a name may stand on both sides of it. -/
theorem bracedPattern_binds_around :
    patternOf [variableA, .wildcard, variableA] = "/\x7ba\x7d/*/\x7ba\x7d" ∧
      fits bracedVariable (patternOf [variableA, .wildcard, variableA]) true = true ∧
      Settled [variableA, .wildcard, variableA] ∧
      (∃ bound, Splits (partsOf [variableA, .wildcard, variableA]) "/x/y/z/x".toList bound ∧
        Agree bound) ∧
      ¬∃ bound, Splits (partsOf [variableA, .wildcard, variableA]) "/x/y/z/w".toList bound ∧
        Agree bound := by
  have small : fits bracedVariable (patternOf [variableA, .wildcard, variableA]) true = true := by
    decide +kernel
  have settled : Settled [variableA, .wildcard, variableA] := settled_of (.inr (by decide))
  have finds := (bracedPattern_binds small).2.2.mpr settled
  refine ⟨rfl, small, settled, (finds "/x/y/z/x").mp (by decide +kernel), ?_⟩
  rw [← finds "/x/y/z/w"]
  decide +kernel

/-- The wildcards stand for `w` and `u/v`, and the name for `x`. But the first wildcard takes `w/x/u`,
    which leaves `v` and `x` for the name. -/
theorem keyMatch4_misses_binding :
    patternOf [.wildcard, variableA, .wildcard, variableA] = "/*/\x7ba\x7d/*/\x7ba\x7d" ∧
      fits bracedVariable (patternOf [.wildcard, variableA, .wildcard, variableA]) true = true ∧
      (∃ bound, Splits (partsOf [.wildcard, variableA, .wildcard, variableA]) "/w/x/u/v/x".toList
        bound ∧ Agree bound) ∧
      keyMatch3 "/w/x/u/v/x" "/*/\x7ba\x7d/*/\x7ba\x7d" = true ∧
      keyMatch4 "/w/x/u/v/x" "/*/\x7ba\x7d/*/\x7ba\x7d" = false := by
  have splits : Splits (partsOf [.wildcard, variableA, .wildcard, variableA]) "/w/x/u/v/x".toList
      [(['a'], ['x']), (['a'], ['x'])] := by
    refine splits_partsOf_iff.mpr ⟨[['w'], ['x'], ['u', '/', 'v'], ['x']], ?_, rfl, rfl⟩
    simp [Segment.Takes, variableA]
  exact ⟨rfl, by decide +kernel, ⟨_, splits, consistent_iff.mp rfl⟩, by decide +kernel,
    by decide +kernel⟩

end AccessControl.Pattern

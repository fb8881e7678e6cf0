import AccessControl.Proofs.Matcher.Conditions
import AccessControl.Proofs.Matcher.Written
import AccessControl.Proofs.Model.Named

/-! # Fields that matchers can name

Which texts are names is decided twice: by the list of a shape and by the scanner. The scanner wants
a name to begin like a word and keeps three words for itself, of which the list knows nothing. A
declared field can be used if the scanner reads its name as one, and otherwise no matcher can
mention it.
-/

namespace AccessControl

/-! ## Words -/

/-- A text that the scanner reads as one word. -/
structure IsWord (text : List Char) : Prop where
  some : text ≠ []
  begins : ∀ c ∈ text.head?, Token.startsWord c = true
  continued : ∀ c ∈ text, Token.continuesWord c = true

namespace IsWord

open ScanState

variable {text : List Char}

theorem passes (isWord : IsWord text) (offset : Nat) :
    between.Passes offset text [] (word offset text.reverse) := by
  cases text with
  | nil => exact absurd rfl isWord.some
  | cons c others =>
      rw [List.reverse_cons]
      exact .silent (start_word (isWord.begins c rfl) offset)
        (passes_word (List.forall_mem_cons.mp isWord.continued).2)

theorem scan_eq (isWord : IsWord text) (offset : Nat) :
    between.scan offset text =
      .ok [⟨Token.ofWord (String.ofList text), offset⟩, ⟨.endMark, offset + byteLength text⟩] := by
  have passed := isWord.passes offset []
  rw [List.append_nil] at passed
  rw [passed]
  simp [scan, finish, Except.map]

theorem scan_point (isWord : IsWord text) (rest : List Char) :
    between.scan 0 (text ++ '.' :: rest) =
      (between.scan (byteLength text + 1) rest).map
        ([⟨Token.ofWord (String.ofList text), 0⟩, ⟨.dot, byteLength text⟩] ++ ·) := by
  have completed : (word 0 text.reverse).advance (0 + byteLength text) '.' =
      .ok ([⟨Token.ofWord (String.ofList text), 0⟩, ⟨.dot, byteLength text⟩], between) := by
    have foreign : Token.continuesWord '.' = false := by decide
    simp only [advance, foreign, Bool.false_eq_true, if_false, restart, finish,
      List.reverse_reverse, Nat.zero_add]
    rfl
  have passed := (isWord.passes 0).append (.last completed) rest
  have point : '.'.utf8Size = 1 := by decide
  simpa [point] using passed

end IsWord

/-! ## Keys and fields -/

/-- Whether the scanner reads a field name as an identifier. -/
structure Nameable (field : String) : Prop where
  begins : ∀ c ∈ field.toList.head?, Token.startsWord c = true
  free : field ∉ ["true", "false", "in"]

/-- How a matcher mentions a field of a type. -/
def fieldText (key field : String) : String := key ++ "." ++ field

/-- The tokens of such a text. -/
def fieldTokens (key field : String) : List PlacedToken :=
  [⟨.identifier key, 0⟩, ⟨.dot, key.utf8ByteSize⟩, ⟨.identifier field, key.utf8ByteSize + 1⟩,
    ⟨.endMark, (fieldText key field).utf8ByteSize⟩]

namespace Definition

theorem isWord_of_checkKey {s : Section} {key : String} (proper : checkKey s.key key = .ok ()) :
    IsWord key.toList := by
  obtain ⟨digits, whole, digital⟩ := toList_of_checkKey proper
  have continued : ∀ c ∈ digits, Token.continuesWord c = true := by
    intro c member
    rcases ScanState.eq_of_isDigit (digital c member) with
      rfl | rfl | rfl | rfl | rfl | rfl | rfl | rfl | rfl | rfl <;> decide
  rw [whole]
  cases s <;> exact ⟨List.cons_ne_nil _ _, by simp [Section.key]; decide,
    List.forall_mem_cons.mpr ⟨by decide, continued⟩⟩

theorem free_of_checkKey {s : Section} {key : String} (proper : checkKey s.key key = .ok ()) :
    key ∉ ["true", "false", "in"] := by
  have letter := Section.letterOf_of_checkKey proper
  intro kept
  simp only [List.mem_cons, List.not_mem_nil, or_false] at kept
  rcases kept with rfl | rfl | rfl <;> cases s <;> exact absurd letter (by decide)

theorem firstRepeated?_eq_none {seen texts : List String}
    (none : firstRepeated? seen texts = none) : texts.Nodup ∧ ∀ text ∈ texts, text ∉ seen := by
  induction texts generalizing seen with
  | nil => simp
  | cons text rest ih =>
      simp only [firstRepeated?] at none
      split at none
      · simp at none
      · rename_i new
        obtain ⟨distinct, apart⟩ := ih none
        simp only [List.mem_cons, not_or] at apart
        refine ⟨List.nodup_cons.mpr ⟨fun member => (apart text member).1 rfl, distinct⟩, ?_⟩
        exact List.forall_mem_cons.mpr
          ⟨by simpa using new, fun other member => (apart other member).2⟩

/-- A shape has the fields that its text lists; all of them are names, and no two are the same. -/
theorem fields_eq_ok {key text : String} {fields : List String}
    (read : Definition.fields key text = .ok fields) :
    fields = parts text ∧ (∀ field ∈ fields, isFieldName field = true) ∧ fields.Nodup := by
  simp only [Definition.fields] at read
  split at read
  · simp at read
  · rename_i valid
    split at read
    · simp at read
    · rename_i distinct
      obtain rfl := Except.ok.inj read
      exact ⟨rfl, by simpa using valid, (firstRepeated?_eq_none distinct).1⟩

theorem isWord_of_isFieldName {field : String} (valid : isFieldName field = true)
    (begins : ∀ c ∈ field.toList.head?, Token.startsWord c = true) : IsWord field.toList := by
  unfold isFieldName at valid
  split at valid
  · simp at valid
  · rename_i c rest whole
    rw [whole] at begins ⊢
    simp only [Bool.and_eq_true, List.all_eq_true] at valid
    exact ⟨List.cons_ne_nil _ _, begins, valid.2⟩

end Definition

/-! ## Reading a reference -/

section

variable {s : Section} {key field : String}

theorem tokenize_fieldText (proper : Definition.checkKey s.key key = .ok ()) (field : String) :
    tokenize (fieldText key field) =
      (ScanState.between.scan (key.utf8ByteSize + 1) field.toList).map
        ([⟨.identifier key, 0⟩, ⟨.dot, key.utf8ByteSize⟩] ++ ·) := by
  have whole : (fieldText key field).toList = key.toList ++ '.' :: field.toList := by
    simp [fieldText]
  have length : byteLength key.toList = key.utf8ByteSize := by simp [byteLength]
  rw [tokenize, whole, (Definition.isWord_of_checkKey proper).scan_point, length,
    String.ofList_toList, Token.ofWord_of_free (Definition.free_of_checkKey proper)]

theorem Nameable.tokenize_eq (nameable : Nameable field)
    (proper : Definition.checkKey s.key key = .ok ())
    (valid : Definition.isFieldName field = true) :
    tokenize (fieldText key field) = .ok (fieldTokens key field) := by
  have isWord := Definition.isWord_of_isFieldName valid nameable.begins
  have length : (fieldText key field).utf8ByteSize =
      key.utf8ByteSize + 1 + byteLength field.toList := by
    simp [fieldText, byteLength, String.utf8ByteSize_append]
    rfl
  rw [tokenize_fieldText proper, isWord.scan_eq, String.ofList_toList,
    Token.ofWord_of_free nameable.free, fieldTokens, length]
  rfl

theorem Nameable.parse_eq (nameable : Nameable field)
    (proper : Definition.checkKey s.key key = .ok ())
    (valid : Definition.isFieldName field = true) :
    Expr.parse (fieldText key field) = .ok (.field key [field] 0) := by
  rw [Expr.parse, nameable.tokenize_eq proper valid]
  rfl

/-- A field that cannot be named is refused where it stands, by the scanner or as a keyword. -/
theorem parse_of_not_nameable (unnameable : ¬ Nameable field)
    (proper : Definition.checkKey s.key key = .ok ())
    (valid : Definition.isFieldName field = true) :
    ∃ reason, Expr.parse (fieldText key field) =
      .error (.matcherSyntax (key.utf8ByteSize + 1) reason) := by
  rw [Expr.parse, tokenize_fieldText proper]
  by_cases begins : ∀ c ∈ field.toList.head?, Token.startsWord c = true
  · have isWord := Definition.isWord_of_isFieldName valid begins
    have kept : field ∈ ["true", "false", "in"] := by
      by_contra free
      exact unnameable ⟨begins, free⟩
    rw [isWord.scan_eq, String.ofList_toList]
    simp only [List.mem_cons, List.not_mem_nil, or_false] at kept
    rcases kept with rfl | rfl | rfl <;> exact ⟨_, rfl⟩
  · unfold Definition.isFieldName at valid
    split at valid
    · simp at valid
    · rename_i c rest whole
      simp only [Bool.and_eq_true, List.all_cons, Bool.not_eq_true'] at valid
      have foreign : Token.startsWord c = false := by simpa [whole] using begins
      have refused := ScanState.start_of_continuesWord valid.2.1 valid.1 (key.utf8ByteSize + 1)
      rw [foreign] at refused
      refine ⟨.unexpectedCharacter c, ?_⟩
      rw [whole, ScanState.scan, ScanState.advance, refused]
      rfl

end

/-! ## Shapes -/

/-- What has fields that matchers name: requests and rows of policies. -/
inductive Shape where
  | request
  | policy

namespace Shape

def toSection : Shape → Section
  | .request => .request
  | .policy => .policy

/-- The fields that a model declares for a type. -/
def fields (shape : Shape) (model : Model) (type : String) : Except Error (List String) :=
  match shape with
  | .request => model.request type
  | .policy => (model.policy type).map (·.fields)

/-- The type of this shape that is in scope. -/
def keyIn (shape : Shape) (scope : Scope) : String :=
  match shape with
  | .request => scope.requestKey
  | .policy => scope.policyKey

/-- What stands for a position once a matcher is compiled. -/
def node (shape : Shape) (position : Nat) : Node :=
  match shape with
  | .request => .request position []
  | .policy => .policy position []

/-- The tuple that an evaluation is about. -/
def values (shape : Shape) (env : Bindings) : List Value :=
  match shape with
  | .request => env.request
  | .policy => env.row.map Value.str

theorem evaluate_node (shape : Shape) {env : Bindings} {onRule : String → Traced Value}
    {position : Nat} {value : Value} (present : (shape.values env)[position]? = some value) :
    (shape.node position).evaluate env onRule = Traced.ofExcept (.ok value) := by
  cases shape with
  | request =>
      have present : env.request[position]? = some value := present
      simp [node, Node.evaluate, Bindings.requestValue, present, Value.follow]
  | policy =>
      have texts : (env.row.map Value.str)[position]? = some value := present
      rw [List.getElem?_map, Option.map_eq_some_iff] at texts
      obtain ⟨text, there, rfl⟩ := texts
      simp [node, Node.evaluate, Bindings.policyValue, there, Value.follow]

end Shape

theorem Scope.positionOf?_of_nodup {fields : List String} (distinct : fields.Nodup) {position : Nat}
    {field : String} (listed : fields[position]? = some field) :
    Scope.positionOf? fields field = some position := by
  obtain ⟨other, found⟩ := Scope.exists_field "" (List.mem_of_getElem? listed)
  have known := Scope.field_eq_ok_iff.mp found
  obtain ⟨entry, first, rfl⟩ := Option.map_eq_some_iff.mp known
  have member : entry ∈ fields.zipIdx := List.mem_reverse.mp (List.mem_of_find?_eq_some first)
  have named : entry.1 = field := by simpa using List.find?_some first
  have there : fields[entry.2]? = some field := by
    rw [← named]
    exact List.mem_zipIdx_iff_getElem?.mp member
  have bound := Scope.lt_of_positionOf? known
  rw [known, (List.getElem?_inj bound distinct).mp (there.trans listed.symm)]

namespace Model

variable {model model' : Model}

theorem SameDeclarations.request (same : SameDeclarations model model') (type : String) :
    model'.request type = model.request type := by
  unfold Model.request
  rw [same.requests]

theorem request_declare {s : Section} {key text : String}
    (declared : model.declare s key text = .ok model') {type : String} {fields : List String}
    (found : model'.request type = .ok fields) :
    (s = .request ∧ type = key) ∨ model.request type = .ok fields := by
  cases s with
  | request =>
      obtain ⟨_, _, settled⟩ := Except.bind_eq_ok_iff.mp declared
      obtain rfl := Except.ok.inj settled
      by_cases here : type = key
      · exact .inl ⟨rfl, here⟩
      · simp only [Model.request, named, NameMap.get?_insert, if_neg here] at found
        exact .inr found
  | policy | role | effect =>
      obtain ⟨_, _, settled⟩ := Except.bind_eq_ok_iff.mp declared
      obtain rfl := Except.ok.inj settled
      exact .inr found
  | matcher =>
      obtain rfl := Except.ok.inj declared
      exact .inr found

theorem Prepared.letterOf_request (prepared : model.Prepared) {type : String}
    {fields : List String} (declared : model.request type = .ok fields) :
    Section.letterOf type = Section.request.key := by
  induction prepared with
  | empty => cases declared
  | define _ defined ih =>
      rcases define_eq_ok defined with rfl | ⟨s, named, proper, made⟩
      · exact ih declared
      · rcases request_declare made declared with ⟨rfl, rfl⟩ | before
        · exact Section.letterOf_of_checkKey (Section.key_of_ofKey named ▸ proper)
        · exact ih before
  | apply before made ih =>
      obtain ⟨table, table', changed⟩ := before.wellFormed.apply made
      have same := changed.placed ▸ declarations_setTable changed.found changed.outcome.shape
      exact ih (same.request type ▸ declared)
  | @clear model _ ih => exact ih (model.declarations_clear.request type ▸ declared)
  | @load model lines _ ih => exact ih ((model.declarations_load lines).request type ▸ declared)
  | @buildLinks model before ih =>
      exact ih (before.wellFormed.declarations_buildLinks.request type ▸ declared)
  | @changeLinks model type' change rows _ ih =>
      exact ih ((model.declarations_changeLinks type' change rows).request type ▸ declared)
  | @setManager model type' manager _ ih =>
      exact ih ((model.declarations_setManager type' manager).request type ▸ declared)

end Model

/-! ## Declared fields -/

/-- A field can be used: the text that mentions it is read as a reference to it. Wherever its type
    is declared with these fields and is in scope, the reference stands for the position of the
    field, and so for the value there if there are as many values as fields. -/
structure Usable (shape : Shape) (key : String) (fields : List String) (position : Nat)
    (field : String) : Prop where
  tokenized : tokenize (fieldText key field) = .ok (fieldTokens key field)
  parsed : Expr.parse (fieldText key field) = .ok (.field key [field] 0)
  resolved : ∀ {model : Model} {requestType policyType : String} {scope : Scope}, model.Prepared →
    shape.fields model key = .ok fields → model.scope requestType policyType = .ok scope →
    shape.keyIn scope = key → ∀ functions nested,
      ({ scope with functions } : Scope).resolve nested (.field key [field] 0) =
        .ok (shape.node position)
  evaluated : ∀ {env : Bindings}, (shape.values env).length = fields.length →
    ∃ value, (shape.values env)[position]? = some value ∧
      ∀ onRule, (shape.node position).evaluate env onRule = Traced.ofExcept (.ok value)

namespace Model

variable {model model' : Model}

/-- What a definition declares has the fields that its text lists. -/
theorem fields_define {shape : Shape} {key text : String}
    (defined : model.define shape.toSection.key key text = .ok (true, model')) :
    Definition.checkKey shape.toSection.key key = .ok () ∧
      Definition.fields key text = .ok (Definition.parts text) ∧
        shape.fields model' key = .ok (Definition.parts text) := by
  obtain ⟨s, known, defined⟩ := Except.bind_eq_ok_iff.mp defined
  obtain ⟨_, proper, defined⟩ := Except.bind_eq_ok_iff.mp defined
  split at defined
  · simp at defined
  · obtain ⟨_, declared, settled⟩ := Except.bind_eq_ok_iff.mp defined
    obtain ⟨_, rfl⟩ := Prod.mk.inj (Except.ok.inj settled)
    cases shape with
    | request =>
        obtain rfl : Section.request = s := Except.ok.inj known
        obtain ⟨fields, read, settled⟩ := Except.bind_eq_ok_iff.mp declared
        obtain ⟨rfl, _⟩ := Definition.fields_eq_ok read
        obtain rfl := Except.ok.inj settled
        simp [proper, read, Shape.fields, Model.request, named, NameMap.get?_insert]
    | policy =>
        obtain rfl : Section.policy = s := Except.ok.inj known
        obtain ⟨fields, read, settled⟩ := Except.bind_eq_ok_iff.mp declared
        obtain ⟨rfl, _⟩ := Definition.fields_eq_ok read
        obtain rfl := Except.ok.inj settled
        simp [proper, read, Shape.fields, Model.policy, named, NameMap.get?_insert]

theorem resolve_field {shape : Shape} {key : String} {fields : List String}
    (prepared : model.Prepared) (letter : Section.letterOf key = shape.toSection.key)
    (declared : shape.fields model key = .ok fields) {requestType policyType : String}
    {scope : Scope} (visible : model.scope requestType policyType = .ok scope)
    (named : shape.keyIn scope = key) (distinct : fields.Nodup) {position : Nat} {field : String}
    (listed : fields[position]? = some field) (functions : Functions) (nested : Bool) :
    ({ scope with functions } : Scope).resolve nested (.field key [field] 0) =
      .ok (shape.node position) := by
  obtain ⟨requestFields, request, visible⟩ := Except.bind_eq_ok_iff.mp visible
  obtain ⟨table, policy, settled⟩ := Except.bind_eq_ok_iff.mp visible
  obtain rfl := Except.ok.inj settled
  have found (base : String) : Scope.field base fields field = .ok position :=
    Scope.field_eq_ok_iff.mpr (Scope.positionOf?_of_nodup distinct listed)
  cases shape with
  | request =>
      obtain rfl : requestType = key := named
      obtain rfl : requestFields = fields := Except.ok.inj (request.symm.trans declared)
      simp [Scope.resolve, Scope.reference, found, Shape.node]
  | policy =>
      obtain rfl : policyType = key := named
      obtain ⟨_, there, rfl⟩ := Except.map_eq_ok_iff.mp declared
      obtain rfl := Except.ok.inj (policy.symm.trans there)
      -- A request type cannot hide a policy type of the same name.
      have apart : policyType ≠ requestType := by
        rintro rfl
        exact absurd (letter.symm.trans (prepared.letterOf_request request)) (by decide)
      simp [Scope.resolve, Scope.reference, found, apart, Shape.node]

/-- Every field of a request or policy that has been declared can be used if it can be named. If
    not, the text that mentions it is refused at the field. -/
theorem declared_fields_usable {shape : Shape} {key text : String}
    (defined : model.define shape.toSection.key key text = .ok (true, model')) :
    shape.fields model' key = .ok (Definition.parts text) ∧
      ∀ position field, (Definition.parts text)[position]? = some field →
        (Nameable field → Usable shape key (Definition.parts text) position field) ∧
        (¬ Nameable field → ∃ reason, Expr.parse (fieldText key field) =
          .error (.matcherSyntax (key.utf8ByteSize + 1) reason)) := by
  obtain ⟨proper, read, declared⟩ := fields_define defined
  obtain ⟨_, valid, distinct⟩ := Definition.fields_eq_ok read
  refine ⟨declared, fun position field listed => ?_⟩
  have valid := valid field (List.mem_of_getElem? listed)
  constructor
  · intro nameable
    refine
      { tokenized := nameable.tokenize_eq proper valid
        parsed := nameable.parse_eq proper valid
        resolved := fun prepared known visible named functions nested =>
          resolve_field prepared (Section.letterOf_of_checkKey proper) known visible named distinct
            listed functions nested
        evaluated := fun {env} lengths => ?_ }
    have bound : position < (shape.values env).length :=
      lengths ▸ (List.getElem?_eq_some_iff.mp listed).1
    exact ⟨_, List.getElem?_eq_getElem bound, fun _ => shape.evaluate_node (by simp [bound])⟩
  · exact fun unnameable => parse_of_not_nameable unnameable proper valid

/-- A model with one request type. -/
def ofRequest (text : String) (fields : List String) : Model where
  requests := [("r", ⟨text, fields⟩)]

/-- A name may begin with a keyword. -/
theorem inner_field_usable :
    ({} : Model).define "r" "r" "sub, inner" =
        .ok (true, ofRequest "sub, inner" ["sub", "inner"]) ∧
      Nameable "inner" ∧ Usable .request "r" ["sub", "inner"] 1 "inner" := by
  have defined : ({} : Model).define Shape.request.toSection.key "r" "sub, inner" =
      .ok (true, ofRequest "sub, inner" ["sub", "inner"]) := rfl
  have nameable : Nameable "inner" := by
    refine ⟨fun c first => ?_, by decide⟩
    obtain rfl : 'i' = c := Option.some.inj first
    rfl
  obtain ⟨_, usable⟩ := declared_fields_usable defined
  exact ⟨defined, nameable, (usable 1 "inner" rfl).1 nameable⟩

/-- A field with the name of a keyword is declared in vain. -/
theorem keyword_field_unusable :
    ({} : Model).define "r" "r" "sub, in" = .ok (true, ofRequest "sub, in" ["sub", "in"]) ∧
      (Definition.parts "sub, in")[1]? = some "in" ∧
      tokenize "r.in" = .ok [⟨.identifier "r", 0⟩, ⟨.dot, 1⟩, ⟨.inWord, 2⟩, ⟨.endMark, 4⟩] ∧
      Expr.parse "r.in" = .error (.matcherSyntax 2 (.unexpectedToken .fieldName .inWord)) :=
  ⟨rfl, rfl, rfl, rfl⟩

end Model

end AccessControl

import AgentAlgebra.Directions
import AgentAlgebra.Proofs.Forms
import AgentAlgebra.Proofs.Types
/-!
# Forms of types

A type is read from a value by its kind and from what stands beside the kind. `Form` says which values
are forms of which types: besides the one that is written there are objects with further fields, kinds
that are objects themselves, kinds without parts that have `null` beside them, and arrays of the kind
and its content. A value is read as a type exactly if it is a form of it, and what is written of types,
legal inputs and signatures is a form of them.
-/

namespace AgentAlgebra

namespace ValueType

/-- A value names a kind, as an object by the name of the field or as the first of two items, and has
some content or none beside it. -/
inductive Tagged : Value → String → Option Value → Prop
  | object {names : Names} {field : Fin names.size → Value} {symbol : Value} {kind : String}
    (held : (Value.object names field).field? "kind" = some symbol)
    (named : symbol.symbol? = some kind) :
    Tagged (.object names field) kind ((Value.object names field).field? "of")
  | array {item : Fin 2 → Value} {kind : String} (named : (item 0).text? = some kind) :
    Tagged (.array 2 item) kind (some (item 1))

/-- The kind of a type. -/
def kind : ValueType → String
  | .any => "any"
  | .scalar kind => kind.name
  | .list _ => "list"
  | .pair _ _ => "pair"
  | .record _ _ => "record"

/-- Whether a value is a form of a type: it names the kind, and its content is made of forms of what the
type is made of. Beside a kind without parts there is nothing but `null`. -/
def Form : ValueType → Value → Prop
  | .any, value => ∃ content, Tagged value "any" content ∧ content.all (·.isNull) = true
  | .scalar kind, value => ∃ content, Tagged value kind.name content ∧ content.all (·.isNull) = true
  | .list item, value => ∃ content, Tagged value "list" (some content) ∧ Form item content
  | .pair left right, value => ∃ content : Fin 2 → Value,
    Tagged value "pair" (some (.array 2 content)) ∧ Form left (content 0) ∧ Form right (content 1)
  | .record names field, value => ∃ content : Fin names.size → Value,
    Tagged value "record" (some (.object names content)) ∧ ∀ i, Form (field i) (content i)

theorem readings_two (item : Fin 2 → Value) : readings (.array 2 item) =
    { isNull := false, text := none, symbol := none, record := none
      type := (readings (item 0)).text.bind fun kind => ofKind? kind (some (readings (item 1)))
      pair := (readings (item 0)).type.bind fun left => (readings (item 1)).type.bind fun right =>
        some (.pair left right) } := by
  have parts : (Vector.ofFn fun i => readings (item i)).toList =
      [readings (item 0), readings (item 1)] := rfl
  rw [readings, parts]
  rfl

theorem readings_other {size : Nat} (item : Fin size → Value) (other : size ≠ 2) :
    readings (.array size item) = ⟨false, none, none, none, none, none⟩ := by
  rw [readings]
  split
  · rename_i two
    have length := congrArg List.length two
    simp at length
    exact absurd length other
  · rfl

theorem readings_object (names : Names) (field : Fin names.size → Value) :
    readings (.object names field) =
      { isNull := false, text := none, pair := none
        symbol := (Value.object names field).symbol?
        type := (names.index? "kind").bind fun i => (readings (field i)).symbol.bind fun kind =>
          ofKind? kind ((names.index? "of").map fun j => readings (field j))
        record := (collect? fun i => ofValue? (field i)).map (.record names) } := by
  rw [readings]
  simp [ofValue?]

/-- Only arrays of two and objects are read as what has parts. -/
theorem readings_cases (value : Value) : (∃ item : Fin 2 → Value, value = .array 2 item) ∨
    (∃ (names : Names) (field : Fin names.size → Value), value = .object names field) ∨
    readings value = ⟨value.isNull, value.text?, value.symbol?, none, none, none⟩ := by
  cases value with
  | array size item =>
    by_cases two : size = 2
    · subst two
      exact .inl ⟨item, rfl⟩
    · exact .inr (.inr (readings_other item two))
  | object names field => exact .inr (.inl ⟨names, field, rfl⟩)
  | null => exact .inr (.inr rfl)
  | bool b => exact .inr (.inr rfl)
  | number n => exact .inr (.inr rfl)
  | text s => exact .inr (.inr rfl)

/-- A value is read as `null`, as a text and as a symbol just as it is one. -/
theorem readings_plain (value : Value) : (readings value).isNull = value.isNull ∧
    (readings value).text = value.text? ∧ (readings value).symbol = value.symbol? := by
  rcases readings_cases value with ⟨item, rfl⟩ | ⟨names, field, rfl⟩ | plain
  · rw [readings_two]
    exact ⟨rfl, rfl, rfl⟩
  · rw [readings_object]
    exact ⟨rfl, rfl, rfl⟩
  · rw [plain]
    exact ⟨rfl, rfl, rfl⟩

/-- A value is read as a type by the kind that it names and by the readings of its content. -/
theorem ofValue?_eq_some {value : Value} {type : ValueType} : ofValue? value = some type ↔
    ∃ kind content, Tagged value kind content ∧ ofKind? kind (content.map readings) = some type := by
  unfold ofValue?
  constructor
  · intro read
    rcases readings_cases value with ⟨item, rfl⟩ | ⟨names, field, rfl⟩ | plain
    · rw [readings_two] at read
      obtain ⟨kind, named, read⟩ := Option.bind_eq_some_iff.mp read
      rw [(readings_plain _).2.1] at named
      exact ⟨kind, _, .array named, read⟩
    · rw [readings_object] at read
      obtain ⟨i, held, read⟩ := Option.bind_eq_some_iff.mp read
      obtain ⟨kind, named, read⟩ := Option.bind_eq_some_iff.mp read
      rw [(readings_plain _).2.2] at named
      refine ⟨kind, _, .object (congrArg (Option.map field) held) named, ?_⟩
      rw [Value.field?, Option.map_map]
      exact read
    · rw [plain] at read
      cases read
  · rintro ⟨kind, content, tagged, read⟩
    cases tagged with
    | @array item kind named =>
      rw [readings_two, (readings_plain _).2.1, named]
      exact read
    | @object names field symbol kind held named =>
      obtain ⟨i, index, rfl⟩ := Option.map_eq_some_iff.mp held
      rw [Value.field?, Option.map_map] at read
      rw [readings_object]
      dsimp only
      rw [index, Option.bind_some, (readings_plain _).2.2, named]
      exact read

theorem pair_readings_eq_some {value : Value} {type : ValueType} :
    (readings value).pair = some type ↔ ∃ (item : Fin 2 → Value) (left right : ValueType),
      value = .array 2 item ∧ type = .pair left right ∧
        ofValue? (item 0) = some left ∧ ofValue? (item 1) = some right := by
  constructor
  · intro read
    rcases readings_cases value with ⟨item, rfl⟩ | ⟨names, field, rfl⟩ | plain
    · rw [readings_two] at read
      obtain ⟨left, first, read⟩ := Option.bind_eq_some_iff.mp read
      obtain ⟨right, second, same⟩ := Option.bind_eq_some_iff.mp read
      exact ⟨item, left, right, rfl, (Option.some.inj same).symm, first, second⟩
    · rw [readings_object] at read
      cases read
    · rw [plain] at read
      cases read
  · rintro ⟨item, left, right, rfl, rfl, first, second⟩
    unfold ofValue? at first second
    rw [readings_two, first, second]
    rfl

theorem record_readings_eq_some {value : Value} {type : ValueType} :
    (readings value).record = some type ↔ ∃ (names : Names) (content : Fin names.size → Value)
      (field : Fin names.size → ValueType), value = .object names content ∧
        type = .record names field ∧ ∀ i, ofValue? (content i) = some (field i) := by
  constructor
  · intro read
    rcases readings_cases value with ⟨item, rfl⟩ | ⟨names, content, rfl⟩ | plain
    · rw [readings_two] at read
      cases read
    · rw [readings_object] at read
      obtain ⟨field, whole, rfl⟩ := Option.map_eq_some_iff.mp read
      exact ⟨names, content, field, rfl, rfl, collect?_eq_some.mp whole⟩
    · rw [plain] at read
      cases read
  · rintro ⟨names, content, field, rfl, rfl, each⟩
    rw [readings_object]
    exact Option.map_eq_some_iff.mpr ⟨field, collect?_eq_some.mpr each, rfl⟩

/-- What is read is of the kind that was named. -/
theorem kind_of_ofKind? {kind : String} {content : Option Value} {type : ValueType}
    (read : ofKind? kind (content.map readings) = some type) : kind = type.kind := by
  have bare {whole : ValueType} (read : (if (content.map readings).all (·.isNull) = true
      then some whole else none) = some type) : whole = type :=
    Option.some.inj (Option.ite_none_right_eq_some.mp read).2
  unfold ofKind? at read
  dsimp only at read
  split at read
  · exact bare read ▸ rfl
  · exact bare read ▸ rfl
  · exact bare read ▸ rfl
  · exact bare read ▸ rfl
  · exact bare read ▸ rfl
  · obtain ⟨reading, -, read⟩ := Option.bind_eq_some_iff.mp read
    obtain ⟨item, -, same⟩ := Option.bind_eq_some_iff.mp read
    exact Option.some.inj same ▸ rfl
  · obtain ⟨reading, held, read⟩ := Option.bind_eq_some_iff.mp read
    obtain ⟨inner, -, rfl⟩ := Option.map_eq_some_iff.mp held
    obtain ⟨item, left, right, -, rfl, -⟩ := pair_readings_eq_some.mp read
    rfl
  · obtain ⟨reading, held, read⟩ := Option.bind_eq_some_iff.mp read
    obtain ⟨inner, -, rfl⟩ := Option.map_eq_some_iff.mp held
    obtain ⟨names, inside, field, -, rfl, -⟩ := record_readings_eq_some.mp read
    rfl
  · cases read

theorem all_isNull_readings (content : Option Value) :
    (content.map readings).all (·.isNull) = content.all (·.isNull) := by
  cases content with
  | none => rfl
  | some content => exact (readings_plain content).1

/-- A kind without parts is read as its type if there is nothing but `null` beside it. -/
theorem ofKind?_bare (type : ValueType) {content : Option Value}
    (bare : ∀ reading, ofKind? type.kind reading =
      if reading.all (·.isNull) = true then some type else none) :
    ofKind? type.kind (content.map readings) = some type ↔ content.all (·.isNull) = true := by
  rw [bare, all_isNull_readings, Option.ite_none_right_eq_some, and_iff_left rfl]

/-- Only a value that names the kind of a type is read as the type. -/
theorem ofValue?_eq_some_iff_kind {value : Value} {type : ValueType} :
    ofValue? value = some type ↔ ∃ content, Tagged value type.kind content ∧
      ofKind? type.kind (content.map readings) = some type := by
  rw [ofValue?_eq_some]
  constructor
  · rintro ⟨kind, content, tagged, read⟩
    obtain rfl := kind_of_ofKind? read
    exact ⟨content, tagged, read⟩
  · rintro ⟨content, tagged, read⟩
    exact ⟨type.kind, content, tagged, read⟩

/-- A value is read as a type exactly if it is a form of it. -/
theorem ofValue?_eq_some_iff_form {value : Value} {type : ValueType} :
    ofValue? value = some type ↔ type.Form value := by
  induction type generalizing value with
  | any =>
    rw [ofValue?_eq_some_iff_kind]
    exact exists_congr fun content => and_congr_right fun _ =>
      ofKind?_bare .any fun _ => rfl
  | scalar kind =>
    rw [ofValue?_eq_some_iff_kind]
    have bare (reading : Option Readings) : ofKind? kind.name reading =
        if reading.all (·.isNull) = true then some (.scalar kind) else none := by
      cases kind <;> rfl
    exact exists_congr fun content => and_congr_right fun _ =>
      ofKind?_bare (.scalar kind) bare
  | list item ih =>
    rw [ofValue?_eq_some_iff_kind]
    constructor
    · rintro ⟨content, tagged, read⟩
      obtain ⟨reading, held, read⟩ := Option.bind_eq_some_iff.mp read
      obtain ⟨inner, rfl, rfl⟩ := Option.map_eq_some_iff.mp held
      obtain ⟨item, read, same⟩ := Option.bind_eq_some_iff.mp read
      cases same
      exact ⟨inner, tagged, ih.mp read⟩
    · rintro ⟨inner, tagged, form⟩
      refine ⟨some inner, tagged, ?_⟩
      exact Option.bind_eq_some_iff.mpr ⟨item, ih.mpr form, rfl⟩
  | pair left right ihLeft ihRight =>
    rw [ofValue?_eq_some_iff_kind]
    constructor
    · rintro ⟨content, tagged, read⟩
      obtain ⟨reading, held, read⟩ := Option.bind_eq_some_iff.mp read
      obtain ⟨inner, rfl, rfl⟩ := Option.map_eq_some_iff.mp held
      obtain ⟨item, left, right, rfl, same, first, second⟩ := pair_readings_eq_some.mp read
      cases same
      exact ⟨item, tagged, ihLeft.mp first, ihRight.mp second⟩
    · rintro ⟨item, tagged, first, second⟩
      refine ⟨some (.array 2 item), tagged, ?_⟩
      exact pair_readings_eq_some.mpr
        ⟨item, left, right, rfl, rfl, ihLeft.mpr first, ihRight.mpr second⟩
  | record names field ih =>
    rw [ofValue?_eq_some_iff_kind]
    constructor
    · rintro ⟨content, tagged, read⟩
      obtain ⟨reading, held, read⟩ := Option.bind_eq_some_iff.mp read
      obtain ⟨inner, rfl, rfl⟩ := Option.map_eq_some_iff.mp held
      obtain ⟨names, content, field, rfl, same, each⟩ := record_readings_eq_some.mp read
      cases same
      exact ⟨content, tagged, fun i => (ih i).mp (each i)⟩
    · rintro ⟨content, tagged, each⟩
      refine ⟨some (.object names content), tagged, ?_⟩
      exact record_readings_eq_some.mpr
        ⟨names, content, field, rfl, rfl, fun i => (ih i).mpr (each i)⟩

/-- A kind that is an object, a further field, and a content that is an array of a kind and its content:
all of this is read, as another form of a list of lists of numbers. -/
example : (ofValue? (.record [("kind", .record [("list", .null)]), ("note", .null),
    ("of", .pair (.text "list") (.record [("kind", .text "number"), ("of", .null)]))])).map
      toString = some "[[number]]" := by
  decide +kernel

/-- A listed kind is named, with what is listed beside it. -/
theorem tagged_record {kind : String} {fields : List (String × Value)}
    (distinct : ((("kind", Value.text kind) :: fields).map (·.1)).Nodup) :
    Tagged (.record (("kind", .text kind) :: fields)) kind (fields.lookup "of") := by
  have held (name : String) : (Value.record (("kind", .text kind) :: fields)).field? name =
      if name = "kind" then some (.text kind) else fields.lookup name := by
    rw [Value.field?_record_of_distinct distinct, Fields.lookup_cons]
  have tagged := Tagged.object (held "kind") rfl
  rwa [← Value.ofFields, ← Value.record, held "of"] at tagged

/-- What is written of a type is a form of it. -/
theorem form_toValue (type : ValueType) : type.Form type.toValue := by
  induction type with
  | any => exact ⟨none, tagged_record (by simp), rfl⟩
  | scalar kind => exact ⟨none, tagged_record (by simp), rfl⟩
  | list item ih => exact ⟨item.toValue, tagged_record (by simp), ih⟩
  | pair left right ihLeft ihRight =>
    exact ⟨_, tagged_record (by simp), ihLeft, ihRight⟩
  | record names field ih =>
    refine ⟨fun i => (field i).toValue, ?_, ih⟩
    rw [toValue, Value.ofFamily_eq]
    exact tagged_record (by simp)

/-- A type is read back from what is written of it. -/
@[simp]
theorem ofValue?_toValue (type : ValueType) : ofValue? type.toValue = some type :=
  ofValue?_eq_some_iff_form.mpr type.form_toValue

end ValueType

namespace Directions

@[simp]
theorem ofValue?_toValue (directions : Directions) :
    ofValue? directions.toValue = some directions := by
  cases directions with
  | finite inputs =>
    have read : ofValue? (finite inputs).toValue = (Value.ofList inputs).items?.map .finite := rfl
    rw [read, Value.items?_ofList]
    rfl
  | typed type =>
    have read : ofValue? (typed type).toValue = (ValueType.ofValue? type.toValue).map .typed := rfl
    rw [read, ValueType.ofValue?_toValue]
    rfl

end Directions

namespace Signature

@[simp]
theorem ofValue?_toValue (signature : Signature) :
    ofValue? signature.toValue = some signature := by
  unfold ofValue? toValue
  rw [Value.members?_record (by simp)]
  simp [Fields.lookup_cons]

end Signature

/-- Whatever is read is read again once it is written. -/
theorem bind_read_back {α : Type} {read : Value → Option α} {write : α → Value}
    (back : ∀ a, read (write a) = some a) (given : Option α) :
    (given.bind fun a => read (write a)) = given := by
  simp only [back]
  exact Option.bind_fun_some given

/-- Types, sets of legal inputs and signatures are read back from what is written of them. Whatever
value one of them is read from, written and read again it is the same; where none is read there is
none. -/
theorem types_read_back :
    (∀ type : ValueType, ValueType.ofValue? type.toValue = some type) ∧
    (∀ directions : Directions, Directions.ofValue? directions.toValue = some directions) ∧
    (∀ signature : Signature, Signature.ofValue? signature.toValue = some signature) ∧
    ∀ value : Value,
      ((ValueType.ofValue? value).bind fun type => ValueType.ofValue? type.toValue) =
        ValueType.ofValue? value ∧
      ((Directions.ofValue? value).bind fun directions =>
        Directions.ofValue? directions.toValue) = Directions.ofValue? value ∧
      ((Signature.ofValue? value).bind fun signature => Signature.ofValue? signature.toValue) =
        Signature.ofValue? value :=
  ⟨ValueType.ofValue?_toValue, Directions.ofValue?_toValue, Signature.ofValue?_toValue,
    fun value => ⟨bind_read_back ValueType.ofValue?_toValue _,
      bind_read_back Directions.ofValue?_toValue _, bind_read_back Signature.ofValue?_toValue _⟩⟩

end AgentAlgebra

import AgentAlgebra.Proofs.Values
import AgentAlgebra.ValueType
/-!
# Membership in types

What the values of a type of each shape look like. A record type describes the objects that hold,
for each of its names, a value of the type given there; since it says nothing of other names, a type
of more names describes fewer values. Every type describes some value, and two types that describe
the same values are the same type.
-/

namespace AgentAlgebra

namespace Names

variable {α β : Type} {s t : Names} {family : Fin s.size → α} {other : Fin t.size → β}

/-- A test of every member of a family against what another family gives for the same name, and that
fails where the other gives nothing. -/
theorem all_lookup (test : α → β → Bool) {each : Fin s.size → Bool}
    (absent : ∀ i, t.index? (s.name i) = none → each i = false)
    (present : ∀ i j, t.index? (s.name i) = some j → each i = test (family i) (other j)) :
    (List.finRange s.size).all each = true ↔
      ∀ name a, s.lookup family name = some a →
        ∃ b, t.lookup other name = some b ∧ test a b = true := by
  rw [List.all_eq_true]
  constructor
  · intro all name a found
    obtain ⟨i, rfl, rfl⟩ := lookup_eq_some.mp found
    have passed := all i (List.mem_finRange i)
    cases here : t.index? (s.name i) with
    | none =>
      rw [absent i here] at passed
      exact nomatch passed
    | some j =>
      rw [present i j here] at passed
      exact ⟨other j, by simp [lookup, here], passed⟩
  · intro all i _
    obtain ⟨b, found, passed⟩ := all (s.name i) (family i) (lookup_name i)
    obtain ⟨j, here, rfl⟩ := lookup_eq_some.mp found
    rw [present i j (index?_eq_some.mpr here)]
    exact passed

end Names

namespace ValueType

variable {t u : ValueType} {value : Value}

@[simp]
theorem admits_any (value : Value) : any.admits value = true := by
  cases value <;> rfl

@[simp]
theorem admits_scalar (kind : Scalar) (value : Value) :
    (scalar kind).admits value = kind.admits value := by
  cases value <;> rfl

theorem admits_bool : bool.admits value = true ↔ ∃ b, value = .bool b := by
  cases value <;> simp [bool, Scalar.admits]

@[simp]
theorem admits_list_array {size : Nat} {item : Fin size → Value} :
    (list t).admits (.array size item) = true ↔ ∀ i, t.admits (item i) = true := by
  have scanned : (list t).admits (.array size item) =
      (List.finRange size).all fun i => t.admits (item i) := rfl
  simp [scanned]

theorem admits_list :
    (list t).admits value = true ↔
      ∃ size item, value = .array size item ∧ ∀ i, t.admits (item i) = true := by
  constructor
  · intro inside
    cases value with
    | array size item => exact ⟨size, item, rfl, admits_list_array.mp inside⟩
    | _ => exact nomatch inside
  · rintro ⟨size, item, rfl, inside⟩
    exact admits_list_array.mpr inside

theorem not_admits_list (other : ∀ size item, value ≠ .array size item) :
    (list t).admits value = false := by
  cases value with
  | array size item => exact absurd rfl (other size item)
  | _ => rfl

@[simp]
theorem admits_pair_pair {a b : Value} :
    (pair t u).admits (.pair a b) = true ↔ t.admits a = true ∧ u.admits b = true := by
  exact Bool.and_eq_true_iff

theorem admits_pair :
    (pair t u).admits value = true ↔
      ∃ a b, value = .pair a b ∧ t.admits a = true ∧ u.admits b = true := by
  constructor
  · intro inside
    cases value with
    | array size item =>
      obtain _ | _ | _ | more := size
      · exact nomatch inside
      · exact nomatch inside
      · rw [Value.array_two item] at inside ⊢
        exact ⟨item 0, item 1, rfl, admits_pair_pair.mp inside⟩
      · exact nomatch inside
    | _ => exact nomatch inside
  · rintro ⟨a, b, rfl, inside⟩
    exact admits_pair_pair.mpr inside

section

variable {names held : Names} {field : Fin names.size → ValueType} {content : Fin held.size → Value}

theorem admits_record_object :
    (record names field).admits (.object held content) = true ↔
      ∀ name t, names.lookup field name = some t →
        ∃ value, held.lookup content name = some value ∧ t.admits value = true := by
  refine Names.all_lookup admits ?_ ?_
  · intro i here
    rw [here]
  · intro i j here
    rw [here]

theorem admits_record :
    (record names field).admits value = true ↔
      ∃ held content, value = .object held content ∧
        ∀ name t, names.lookup field name = some t →
          ∃ part, held.lookup content name = some part ∧ t.admits part = true := by
  constructor
  · intro inside
    cases value with
    | object held content => exact ⟨held, content, rfl, admits_record_object.mp inside⟩
    | _ => exact nomatch inside
  · rintro ⟨held, content, rfl, inside⟩
    exact admits_record_object.mpr inside

theorem not_admits_record (other : ∀ held content, value ≠ .object held content) :
    (record names field).admits value = false := by
  cases value with
  | object held content => exact absurd rfl (other held content)
  | _ => rfl

end

/-- A value holds what a type demands, name by name. -/
def Holds (types : Fields ValueType) (values : Fields Value) : Prop :=
  ∀ name t, types.get? name = some t →
    ∃ value, values.get? name = some value ∧ t.admits value = true

theorem admits_ofFields {types : Fields ValueType} {values : Fields Value} :
    (ofFields types).admits (.ofFields values) = true ↔ Holds types values := by
  unfold ofFields Value.ofFields Holds
  simp only [admits_record_object, Fields.lookup_names]

theorem Holds.insert {types : Fields ValueType} {values : Fields Value} (holds : Holds types values)
    (name : String) (inside : t.admits value = true) :
    Holds (types.insert name t) (values.insert name value) := by
  intro wanted u found
  rw [Fields.get?_insert] at found ⊢
  by_cases same : wanted = name
  · rw [if_pos same] at found ⊢
    obtain rfl := Option.some.inj found
    exact ⟨value, rfl, inside⟩
  · rw [if_neg same] at found ⊢
    exact holds wanted u found

/-- A listed object is of a listed record type if the lists agree field by field. -/
theorem admits_recordOf {types : List (String × ValueType)} {values : List (String × Value)}
    (each : List.Forall₂ (fun type value => type.1 = value.1 ∧ type.2.admits value.2 = true)
      types values) : (recordOf types).admits (.record values) = true := by
  -- What has been put in so far holds what has been demanded so far.
  have whole (demanded : Fields ValueType) (held : Fields Value) (holds : Holds demanded held) :
      Holds (types.foldl (fun fields entry => fields.insert entry.1 entry.2) demanded)
        (values.foldl (fun fields entry => fields.insert entry.1 entry.2) held) := by
    induction each generalizing demanded held with
    | nil => exact holds
    | @cons type value _ _ first _ ih =>
      obtain ⟨name, t⟩ := type
      obtain ⟨rfl, inside⟩ := first
      exact ih _ _ (holds.insert value.1 inside)
  exact admits_ofFields.mpr (whole .empty .empty fun name t found => nomatch found)

/-- Some value of the type. -/
def exemplar : ValueType → Value
  | .any | .scalar .null => .null
  | .scalar .bool => .bool true
  | .scalar .number => .ofInt 0
  | .scalar .text => .text ""
  | .list _ => .ofList []
  | .pair left right => .pair left.exemplar right.exemplar
  | .record names field => .object names fun i => (field i).exemplar

theorem admits_empty (t : ValueType) : (list t).admits (.ofList []) = true :=
  admits_list_array.mpr fun i => i.elim0

/-- Every type describes some value. -/
theorem admits_exemplar (t : ValueType) : t.admits t.exemplar = true := by
  induction t with
  | any => rfl
  | scalar kind => cases kind <;> rfl
  | list item _ => exact admits_empty item
  | pair left right ihLeft ihRight => exact admits_pair_pair.mpr ⟨ihLeft, ihRight⟩
  | record names field ih =>
    refine admits_record_object.mpr fun name t found => ?_
    obtain ⟨i, rfl, rfl⟩ := Names.lookup_eq_some.mp found
    exact ⟨(field i).exemplar, Names.lookup_name i, ih i⟩

/-- All values of the one type are values of the other. -/
def Included (t u : ValueType) : Prop := ∀ value, t.admits value = true → u.admits value = true

namespace Included

theorem of_list (included : Included (list t) (list u)) : Included t u := by
  intro value inside
  have single : (list t).admits (.array 1 fun _ => value) = true :=
    admits_list_array.mpr fun _ => inside
  exact admits_list_array.mp (included _ single) 0

theorem of_pair {t' u' : ValueType} (included : Included (pair t u) (pair t' u')) :
    Included t t' ∧ Included u u' := by
  constructor
  · intro value inside
    exact (admits_pair_pair.mp
      (included (.pair value u.exemplar) (admits_pair_pair.mpr ⟨inside, admits_exemplar u⟩))).1
  · intro value inside
    exact (admits_pair_pair.mp
      (included (.pair t.exemplar value) (admits_pair_pair.mpr ⟨admits_exemplar t, inside⟩))).2

/-- A record type within another has all of the other's names, with types within the other's. -/
theorem of_record {names names' : Names} {field : Fin names.size → ValueType}
    {field' : Fin names'.size → ValueType}
    (included : Included (record names field) (record names' field')) {name : String}
    (found : names'.lookup field' name = some u) :
    ∃ t, names.lookup field name = some t ∧ Included t u := by
  obtain ⟨part, held, -⟩ :=
    admits_record_object.mp (included _ (admits_exemplar (record names field))) name u found
  obtain ⟨i, rfl, -⟩ := Names.lookup_eq_some.mp held
  refine ⟨field i, Names.lookup_name i, fun value inside => ?_⟩
  let content : Fin names.size → Value := fun j => if j = i then value else (field j).exemplar
  have whole : (record names field).admits (.object names content) = true := by
    refine admits_record_object.mpr fun name t found => ?_
    obtain ⟨j, rfl, rfl⟩ := Names.lookup_eq_some.mp found
    refine ⟨content j, Names.lookup_name j, ?_⟩
    by_cases same : j = i
    · simpa [content, same] using inside
    · simpa [content, same] using admits_exemplar (field j)
  obtain ⟨part, held, inside'⟩ :=
    admits_record_object.mp (included _ whole) (names.name i) u found
  rw [Names.lookup_name] at held
  obtain rfl := Option.some.inj held
  simpa [content] using inside'

theorem names_eq {names names' : Names} {field : Fin names.size → ValueType}
    {field' : Fin names'.size → ValueType}
    (included : Included (record names field) (record names' field'))
    (includes : Included (record names' field') (record names field)) : names = names' := by
  apply Names.ext_mem
  intro name
  constructor
  · intro mem
    obtain ⟨u, found⟩ := Names.exists_lookup field mem
    obtain ⟨t, held, -⟩ := includes.of_record found
    exact Names.mem_of_lookup held
  · intro mem
    obtain ⟨u, found⟩ := Names.exists_lookup field' mem
    obtain ⟨t, held, -⟩ := included.of_record found
    exact Names.mem_of_lookup held

/-- A type is determined by the values it describes. -/
theorem antisymm (included : Included t u) (includes : Included u t) : t = u := by
  induction t generalizing u with
  | any =>
    have null := included .null rfl
    have truth := included (.bool true) rfl
    cases u with
    | any => rfl
    | scalar kind => cases kind <;> simp [Scalar.admits] at null truth
    | _ => exact nomatch null
  | scalar kind =>
    have self := included _ (admits_exemplar (scalar kind))
    have null := includes .null
    have truth := includes (.bool true)
    cases u with
    | any => cases kind <;> simp [Scalar.admits] at null truth
    | scalar kind' =>
      cases kind <;> cases kind' <;> simp [exemplar, Scalar.admits, Value.ofInt] at self ⊢
    | _ => cases kind <;> exact nomatch self
  | list item ih =>
    have nothing := included _ (admits_empty item)
    have null := includes .null
    cases u with
    | any => exact nomatch null rfl
    | list item' => rw [ih included.of_list includes.of_list]
    | scalar kind => cases kind <;> simp [Value.ofList, Value.ofArray, Scalar.admits] at nothing
    | _ => exact nomatch nothing
  | pair left right ihLeft ihRight =>
    have self := included _ (admits_exemplar (pair left right))
    have null := includes .null
    have nothing := includes (.ofList [])
    cases u with
    | any => exact nomatch null rfl
    | list item => exact nomatch nothing (admits_empty item)
    | pair left' right' =>
      rw [ihLeft included.of_pair.1 includes.of_pair.1,
        ihRight included.of_pair.2 includes.of_pair.2]
    | scalar kind => cases kind <;> simp [exemplar, Value.pair, Scalar.admits] at self
    | record names field => exact nomatch self
  | record names field ih =>
    have self := included _ (admits_exemplar (record names field))
    have null := includes .null
    cases u with
    | any => exact nomatch null rfl
    | record names' field' =>
      obtain rfl := names_eq included includes
      congr 1
      funext i
      obtain ⟨t, held, below⟩ := included.of_record (Names.lookup_name i)
      obtain ⟨t', held', above⟩ := includes.of_record (Names.lookup_name i)
      rw [Names.lookup_name] at held held'
      obtain rfl := Option.some.inj held
      obtain rfl := Option.some.inj held'
      exact ih i below above
    | scalar kind => cases kind <;> simp [exemplar, Scalar.admits] at self
    | _ => exact nomatch self

end Included

end ValueType

end AgentAlgebra

import AgentAlgebra.Proofs.Names
import AgentAlgebra.Value.Basic
/-!
# Values and their parts

An array of two or three is determined by its items, and an object by what it gives for each name.
Comparing values is an equivalence, doubles included, since none of them is without a value; values
that compare equal need not be the same, since the two zeros do.
-/

namespace AgentAlgebra

/-- What counts of a number when it is compared: its kind and its value. -/
def Number.worth : Number → Int ⊕ Int
  | .integer z => .inl z
  | .double x => .inr x.units

theorem Number.beq_eq_true {a b : Number} : (a == b) = true ↔ a.worth = b.worth := by
  cases a with
  | integer z => cases b <;> simp [worth, BEq.beq, beq]
  | double x =>
    cases b with
    | integer z => simp [worth, BEq.beq, beq]
    | double y => exact (beq_iff_eq (a := x.units)).trans Sum.inr_injective.eq_iff.symm

instance : EquivBEq Number where
  rfl := Number.beq_eq_true.mpr rfl
  symm same := Number.beq_eq_true.mpr (Number.beq_eq_true.mp same).symm
  trans one two :=
    Number.beq_eq_true.mpr ((Number.beq_eq_true.mp one).trans (Number.beq_eq_true.mp two))

theorem ofFn_beq_ofFn {α : Type} [BEq α] {n : Nat} {f g : Fin n → α} :
    (List.ofFn f == List.ofFn g) = true ↔ ∀ i, (f i == g i) = true := by
  induction n with
  | zero => simp
  | succ n ih =>
    rw [List.ofFn_succ, List.ofFn_succ, List.cons_beq_cons, Bool.and_eq_true, ih,
      Fin.forall_fin_succ]

namespace Value

variable {a b c a' b' c' : Value}

theorem array_two (item : Fin 2 → Value) : Value.array 2 item = .pair (item 0) (item 1) := by
  unfold pair
  congr 1
  funext i
  match i with
  | 0 => rfl
  | 1 => rfl

theorem array_three (item : Fin 3 → Value) :
    Value.array 3 item = .triple (item 0) (item 1) (item 2) := by
  unfold triple
  congr 1
  funext i
  match i with
  | 0 => rfl
  | 1 => rfl
  | 2 => rfl

theorem pair?_eq_some {value : Value} : value.pair? = some (a, b) ↔ value = .pair a b := by
  constructor
  · intro parts
    unfold pair? at parts
    split at parts
    · obtain ⟨rfl, rfl⟩ := Prod.mk.inj (Option.some.inj parts)
      exact array_two _
    · exact nomatch parts
  · rintro rfl
    rfl

theorem triple?_eq_some {value : Value} :
    value.triple? = some (a, b, c) ↔ value = .triple a b c := by
  constructor
  · intro parts
    unfold triple? at parts
    split at parts
    · obtain ⟨rfl, rest⟩ := Prod.mk.inj (Option.some.inj parts)
      obtain ⟨rfl, rfl⟩ := Prod.mk.inj rest
      exact array_three _
    · exact nomatch parts
  · rintro rfl
    rfl

@[simp]
theorem pair_inj : Value.pair a b = .pair a' b' ↔ a = a' ∧ b = b' := by
  rw [← pair?_eq_some]
  simp

@[simp]
theorem triple_inj : Value.triple a b c = .triple a' b' c' ↔ a = a' ∧ b = b' ∧ c = c' := by
  rw [← triple?_eq_some]
  simp

theorem eq_null_of_isNull {value : Value} (null : value.isNull = true) : value = .null := by
  cases value with
  | null => rfl
  | _ => exact nomatch null

theorem beq_self (value : Value) : value.beq value = true := by
  induction value with
  | null => rfl
  | bool b => simp [beq]
  | number n =>
    cases n with
    | integer z => exact decide_eq_true rfl
    | double x => exact decide_eq_true rfl
  | text s => simp [beq]
  | array size item ih => simpa [beq] using ih
  | object names field ih => simpa [beq] using ih

instance : ReflBEq Value := ⟨beq_self _⟩

@[simp]
theorem array_beq_array {size : Nat} {item item' : Fin size → Value} :
    (array size item == array size item') = true ↔ ∀ i, (item i == item' i) = true := by
  change beq _ _ = true ↔ _
  simp [beq, BEq.beq]

@[simp]
theorem object_beq_object {names : Names} {field field' : Fin names.size → Value} :
    (object names field == object names field') = true ↔ ∀ i, (field i == field' i) = true := by
  change beq _ _ = true ↔ _
  simp [beq, BEq.beq]

theorem size_eq_of_beq {size size' : Nat} {item : Fin size → Value} {item' : Fin size' → Value}
    (same : (array size item == array size' item') = true) : size = size' := by
  by_contra other
  change beq _ _ = true at same
  simp [beq, other] at same

theorem names_eq_of_beq {names names' : Names} {field : Fin names.size → Value}
    {field' : Fin names'.size → Value}
    (same : (object names field == object names' field') = true) : names = names' := by
  by_contra other
  change beq _ _ = true at same
  simp [beq, other] at same

@[simp]
theorem pair_beq_pair :
    (pair a b == pair a' b') = true ↔ (a == a') = true ∧ (b == b') = true := by
  unfold pair
  rw [array_beq_array, Fin.forall_fin_two]
  rfl

@[simp]
theorem triple_beq_triple :
    (triple a b c == triple a' b' c') = true ↔
      (a == a') = true ∧ (b == b') = true ∧ (c == c') = true := by
  unfold triple
  rw [array_beq_array, Fin.forall_fin_succ, Fin.forall_fin_two]
  rfl

theorem exists_array_of_beq {size : Nat} {item : Fin size → Value} {value : Value}
    (same : (array size item == value) = true) :
    ∃ item', value = array size item' ∧ ∀ i, (item i == item' i) = true := by
  cases value with
  | array size' item' =>
    obtain rfl := size_eq_of_beq same
    exact ⟨item', rfl, array_beq_array.mp same⟩
  | _ => exact absurd same Bool.false_ne_true

theorem exists_object_of_beq {names : Names} {field : Fin names.size → Value} {value : Value}
    (same : (object names field == value) = true) :
    ∃ field', value = object names field' ∧ ∀ i, (field i == field' i) = true := by
  cases value with
  | object names' field' =>
    obtain rfl := names_eq_of_beq same
    exact ⟨field', rfl, object_beq_object.mp same⟩
  | _ => exact absurd same Bool.false_ne_true

/-- Values that equal one value equal each other. -/
theorem beq_of_beq_of_beq {a b c : Value} (one : (a == b) = true) (two : (a == c) = true) :
    (b == c) = true := by
  induction a generalizing b c with
  | null =>
    match b, c, one, two with
    | .null, .null, _, _ => rfl
  | bool x =>
    match b, c, one, two with
    | .bool _, .bool _, one, two => exact BEq.trans (α := Bool) (BEq.symm one) two
  | number n =>
    match b, c, one, two with
    | .number _, .number _, one, two => exact BEq.trans (α := Number) (BEq.symm one) two
  | text s =>
    match b, c, one, two with
    | .text _, .text _, one, two => exact BEq.trans (α := String) (BEq.symm one) two
  | array size item ih =>
    match b, c, one, two with
    | .array _ _, .array _ _, one, two =>
      obtain rfl := size_eq_of_beq one
      obtain rfl := size_eq_of_beq two
      rw [array_beq_array] at one two ⊢
      exact fun i => ih i (one i) (two i)
  | object names field ih =>
    match b, c, one, two with
    | .object _ _, .object _ _, one, two =>
      obtain rfl := names_eq_of_beq one
      obtain rfl := names_eq_of_beq two
      rw [object_beq_object] at one two ⊢
      exact fun i => ih i (one i) (two i)

instance : EquivBEq Value where
  symm same := beq_of_beq_of_beq same BEq.rfl
  trans one two := beq_of_beq_of_beq (beq_of_beq_of_beq one BEq.rfl) two

/-- What equals a pair is a pair of values that equal its parts. -/
theorem beq_pair {value : Value} :
    (value == pair a b) = true ↔
      ∃ a' b', value = pair a' b' ∧ (a' == a) = true ∧ (b' == b) = true := by
  constructor
  · intro same
    obtain ⟨item, rfl, equal⟩ := exists_array_of_beq (BEq.symm same)
    exact ⟨_, _, array_two item, BEq.symm (equal 0), BEq.symm (equal 1)⟩
  · rintro ⟨a', b', rfl, equal⟩
    exact pair_beq_pair.mpr equal

theorem beq_triple {value : Value} :
    (value == triple a b c) = true ↔
      ∃ a' b' c', value = triple a' b' c' ∧ (a' == a) = true ∧ (b' == b) = true ∧
        (c' == c) = true := by
  constructor
  · intro same
    obtain ⟨item, rfl, equal⟩ := exists_array_of_beq (BEq.symm same)
    exact ⟨_, _, _, array_three item, BEq.symm (equal 0), BEq.symm (equal 1), BEq.symm (equal 2)⟩
  · rintro ⟨a', b', c', rfl, equal⟩
    exact triple_beq_triple.mpr equal

/-- A listed object gives for each name what was listed last for it. -/
@[simp]
theorem field?_record (fields : List (String × Value)) (name : String) :
    (Value.record fields).field? name = (Fields.ofList fields).get? name :=
  Fields.lookup_names _ _

/-- Objects are equal if they give equal values for every name. -/
theorem object_beq_iff_lookup {names names' : Names} {field : Fin names.size → Value}
    {field' : Fin names'.size → Value} :
    (object names field == object names' field') = true ↔
      ∀ name, (names.lookup field name == names'.lookup field' name) = true := by
  constructor
  · intro same name
    obtain rfl := names_eq_of_beq same
    rw [object_beq_object] at same
    unfold Names.lookup
    cases names.index? name with
    | none => rfl
    | some i => exact same i
  · intro same
    have members (name : String) : name ∈ names ↔ name ∈ names' := by
      have given := same name
      rw [← not_iff_not, ← Names.lookup_eq_none field, ← Names.lookup_eq_none field']
      cases held : names.lookup field name with
      | none =>
        rw [held] at given
        cases held' : names'.lookup field' name with
        | none => exact Iff.rfl
        | some value =>
          rw [held'] at given
          exact absurd given Bool.false_ne_true
      | some value =>
        rw [held] at given
        cases held' : names'.lookup field' name with
        | none =>
          rw [held'] at given
          exact absurd given Bool.false_ne_true
        | some value' => simp
    obtain rfl := Names.ext_mem members
    rw [object_beq_object]
    intro i
    simpa using same (names.name i)

theorem record_beq_record {fields fields' : List (String × Value)}
    (distinct : (fields.map (·.1)).Nodup) (distinct' : (fields'.map (·.1)).Nodup) :
    (record fields == record fields') = true ↔
      ∀ name, (fields.lookup name == fields'.lookup name) = true := by
  unfold record ofFields
  rw [object_beq_iff_lookup]
  simp only [Fields.lookup_names, Fields.get?_ofList distinct, Fields.get?_ofList distinct']

/-- Arrays are equal if the lists of their items are. -/
theorem array_beq_iff_items {size size' : Nat} {item : Fin size → Value}
    {item' : Fin size' → Value} :
    (array size item == array size' item') = (List.ofFn item == List.ofFn item') := by
  rw [Bool.eq_iff_iff]
  constructor
  · intro same
    obtain rfl := size_eq_of_beq same
    exact ofFn_beq_ofFn.mpr (array_beq_array.mp same)
  · intro same
    obtain rfl : size = size' := by simpa using List.length_eq_of_beq same
    exact array_beq_array.mpr (ofFn_beq_ofFn.mp same)

theorem ofList_beq_ofList {items items' : List Value} :
    (ofList items == ofList items') = (items == items') := by
  have listed (items : List Value) : List.ofFn (fun i => items.toArray[i]) = items :=
    List.ofFn_getElem
  unfold ofList ofArray
  rw [array_beq_iff_items, listed, listed]

end Value

end AgentAlgebra

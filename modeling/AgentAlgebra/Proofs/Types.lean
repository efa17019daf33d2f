import AgentAlgebra.Proofs.Membership
/-!
# The common type, and feeding

`unify` is a partial meet: where two types go together, their common type describes exactly the
values that both describe, and how a chain of types is bracketed or ordered changes neither whether
they go together nor as what. `accepts` is sound for types in which `any` does not occur: what may
be fed is what is expected.
-/

namespace AgentAlgebra

theorem collect?_eq_some {α : Type} {n : Nat} {family : Fin n → Option α} {parts : Fin n → α} :
    collect? family = some parts ↔ ∀ i, family i = some (parts i) := by
  have result (i : Fin n) : (Vector.ofFn family)[i] = family i := Vector.getElem_ofFn i.isLt
  unfold collect?
  constructor
  · intro whole i
    simp only [Option.dite_none_right_eq_some, Option.some.injEq] at whole
    obtain ⟨all, rfl⟩ := whole
    simp [result]
  · intro each
    have all : ∀ i : Fin n, (Vector.ofFn family)[i].isSome := fun i => by simp [result, each]
    simp only [Option.dite_none_right_eq_some, Option.some.injEq]
    exact ⟨all, funext fun i => by simp [result, each]⟩

namespace ValueType

/-- How what two records give for one name, if they do, goes together as what a third gives for it.
-/
inductive Merged : Option ValueType → Option ValueType → Option ValueType → Prop
  | neither : Merged none none none
  | left {type : ValueType} : Merged (some type) none (some type)
  | right {type : ValueType} : Merged none (some type) (some type)
  | both {one two type : ValueType} (common : one.unify two = some type) :
    Merged (some one) (some two) (some type)

variable {t u v w x : ValueType}

@[simp]
theorem any_unify (t : ValueType) : any.unify t = some t := by
  cases t <;> rfl

@[simp]
theorem unify_any (t : ValueType) : t.unify any = some t := by
  cases t <;> rfl

@[simp]
theorem list_unify_list (t u : ValueType) : (list t).unify (list u) = (t.unify u).map list := rfl

theorem pair_unify_pair {t' u' : ValueType} :
    (pair t u).unify (pair t' u') = some w ↔
      ∃ left right, t.unify t' = some left ∧ u.unify u' = some right ∧ pair left right = w := by
  simp [unify, Option.bind_eq_some_iff]

/-- The result of merging is absent exactly if both parts are. -/
theorem Merged.eq_none {a b c : Option ValueType} (merged : Merged a b c) :
    c = none ↔ a = none ∧ b = none := by
  cases merged <;> simp

section

variable {names names' all : Names} {field : Fin names.size → ValueType}
  {field' : Fin names'.size → ValueType} {family : Fin all.size → ValueType}

/-- `unify` merges two records at the names of their union. -/
theorem record_unify_record_stepwise :
    (record names field).unify (record names' field') = some w ↔
      ∃ family : Fin (names.union names').size → ValueType,
        (∀ i, Merged (names.lookup field ((names.union names').name i))
          (names'.lookup field' ((names.union names').name i)) (some (family i))) ∧
          record (names.union names') family = w := by
  rw [unify, Option.map_eq_some_iff]
  refine exists_congr fun family => and_congr_left fun _ => ?_
  rw [collect?_eq_some]
  refine forall_congr' fun i => ?_
  unfold Names.lookup
  generalize family i = type
  cases names.index? ((names.union names').name i) with
  | none =>
    cases names'.index? ((names.union names').name i) with
    | none => exact ⟨nofun, nofun⟩
    | some k =>
      constructor
      · intro given
        rw [← given]
        exact .right
      · intro merged
        cases merged
        rfl
  | some j =>
    cases names'.index? ((names.union names').name i) with
    | none =>
      constructor
      · intro given
        rw [← given]
        exact .left
      · intro merged
        cases merged
        rfl
    | some k =>
      constructor
      · exact .both
      · intro merged
        cases merged with
        | both common => exact common

/-- Two record types go together name by name, and the names of the result are those of both. All
names but those of the union are absent on both sides. -/
theorem record_unify_record :
    (record names field).unify (record names' field') = some w ↔
      ∃ (all : Names) (family : Fin all.size → ValueType), w = record all family ∧
        ∀ name, Merged (names.lookup field name) (names'.lookup field' name)
          (all.lookup family name) := by
  rw [record_unify_record_stepwise]
  constructor
  · rintro ⟨family, whole, rfl⟩
    refine ⟨_, family, rfl, fun name => ?_⟩
    by_cases mem : name ∈ names.union names'
    · obtain ⟨type, found⟩ := Names.exists_lookup family mem
      obtain ⟨i, rfl, rfl⟩ := Names.lookup_eq_some.mp found
      rw [found]
      exact whole i
    · rw [(Names.lookup_eq_none _).mpr mem]
      rw [Names.mem_union, not_or] at mem
      rw [(Names.lookup_eq_none _).mpr mem.1, (Names.lookup_eq_none _).mpr mem.2]
      exact .neither
  · rintro ⟨all, family, rfl, merged⟩
    obtain rfl : names.union names' = all := by
      apply Names.ext_mem
      intro name
      rw [Names.mem_union, ← not_iff_not, not_or, ← Names.lookup_eq_none field,
        ← Names.lookup_eq_none field', ← Names.lookup_eq_none family]
      exact (merged name).eq_none.symm
    refine ⟨family, fun i => ?_, rfl⟩
    have here := merged ((names.union names').name i)
    rw [Names.lookup_name] at here
    exact here

/-- An object is of a common record type exactly if it is of both record types, provided that each
common type describes what both types describe. -/
theorem admits_merged {held : Names} {content : Fin held.size → Value}
    (meet : ∀ i {u w}, (field i).unify u = some w →
      ∀ value, w.admits value = true ↔ (field i).admits value = true ∧ u.admits value = true)
    (merged : ∀ name, Merged (names.lookup field name) (names'.lookup field' name)
      (all.lookup family name)) :
    (record all family).admits (.object held content) = true ↔
      (record names field).admits (.object held content) = true ∧
        (record names' field').admits (.object held content) = true := by
  rw [admits_record_object, admits_record_object, admits_record_object, ← forall_and]
  refine forall_congr' fun name => ?_
  have here := merged name
  generalize one : names.lookup field name = a, names'.lookup field' name = b,
    all.lookup family name = c at here ⊢
  cases here with
  | neither => simp
  | left => simp
  | right => simp
  | both common =>
    obtain ⟨i, -, rfl⟩ := Names.lookup_eq_some.mp one
    simp only [Option.some.injEq, forall_eq', meet i common]
    constructor
    · rintro ⟨part, has, inLeft, inRight⟩
      exact ⟨⟨part, has, inLeft⟩, part, has, inRight⟩
    · rintro ⟨⟨part, has, inLeft⟩, part', has', inRight⟩
      obtain rfl := Option.some.inj (has.symm.trans has')
      exact ⟨part, has, inLeft, inRight⟩

end

/-- Every type goes together with itself. -/
@[simp]
theorem unify_self (t : ValueType) : t.unify t = some t := by
  induction t with
  | any => rfl
  | scalar kind => simp [unify]
  | list item ih => simp [ih]
  | pair left right ihLeft ihRight => exact pair_unify_pair.mpr ⟨left, right, ihLeft, ihRight, rfl⟩
  | record names field ih =>
    refine record_unify_record.mpr ⟨names, field, rfl, fun name => ?_⟩
    cases found : names.lookup field name with
    | none => exact .neither
    | some type =>
      obtain ⟨i, -, rfl⟩ := Names.lookup_eq_some.mp found
      exact .both (ih i)

theorem unify_comm_of_some (h : t.unify u = some w) : u.unify t = some w := by
  induction t generalizing u w with
  | any => simpa using h
  | scalar kind => cases u <;> simp_all [unify]
  | list item ih =>
    cases u with
    | any => simpa using h
    | list item' =>
      obtain ⟨both, common, rfl⟩ := Option.map_eq_some_iff.mp h
      rw [list_unify_list, ih common]
      rfl
    | _ => simp [unify] at h
  | pair left right ihLeft ihRight =>
    cases u with
    | any => simpa using h
    | pair left' right' =>
      obtain ⟨l, r, lefts, rights, rfl⟩ := pair_unify_pair.mp h
      exact pair_unify_pair.mpr ⟨l, r, ihLeft lefts, ihRight rights, rfl⟩
    | _ => simp [unify] at h
  | record names field ih =>
    cases u with
    | any => simpa using h
    | record names' field' =>
      obtain ⟨all, family, rfl, merged⟩ := record_unify_record.mp h
      refine record_unify_record.mpr ⟨all, family, rfl, fun name => ?_⟩
      have here := merged name
      generalize one : names.lookup field name = a, names'.lookup field' name = b,
        all.lookup family name = c at here ⊢
      cases here with
      | neither => exact .neither
      | left => exact .right
      | right => exact .left
      | both common =>
        obtain ⟨i, -, rfl⟩ := Names.lookup_eq_some.mp one
        exact .both (ih i common)
    | _ => simp [unify] at h

/-- In which order two types are given does not matter. -/
theorem unify_comm (t u : ValueType) : t.unify u = u.unify t := by
  cases h : t.unify u with
  | some w => exact (unify_comm_of_some h).symm
  | none =>
    cases h' : u.unify t with
    | none => rfl
    | some w => rw [unify_comm_of_some h'] at h; exact nomatch h

/-- Merging is associative where the common types are. -/
theorem Merged.assoc {a b c d e : Option ValueType}
    (assoc : ∀ t, a = some t → ∀ {u v x y}, t.unify u = some x → x.unify v = some y →
      ∃ z, u.unify v = some z ∧ t.unify z = some y)
    (first : Merged a b d) (second : Merged d c e) : ∃ f, Merged b c f ∧ Merged a f e := by
  cases first with
  | neither => exact ⟨e, by cases second <;> constructor, by cases second <;> constructor⟩
  | left =>
    cases second with
    | left => exact ⟨none, .neither, .left⟩
    | both common => exact ⟨_, .right, .both common⟩
  | right => exact ⟨e, second, by cases second <;> constructor⟩
  | both one =>
    cases second with
    | left => exact ⟨_, .left, .both one⟩
    | both two =>
      obtain ⟨z, common, whole⟩ := assoc _ rfl one two
      exact ⟨some z, .both common, .both whole⟩

theorem unify_assoc_of_some (one : t.unify u = some w) (two : w.unify v = some x) :
    ∃ z, u.unify v = some z ∧ t.unify z = some x := by
  induction t generalizing u v w x with
  | any =>
    obtain rfl : u = w := by simpa using one
    exact ⟨x, two, any_unify x⟩
  | scalar kind =>
    cases u with
    | any =>
      obtain rfl : scalar kind = w := by simpa using one
      exact ⟨v, any_unify v, two⟩
    | scalar kind' =>
      simp only [unify, Option.ite_none_right_eq_some, Option.some.injEq] at one
      obtain ⟨rfl, rfl⟩ := one
      cases v with
      | any => exact ⟨_, unify_any _, by simpa using two⟩
      | scalar kind'' =>
        simp only [unify, Option.ite_none_right_eq_some, Option.some.injEq] at two
        obtain ⟨rfl, rfl⟩ := two
        exact ⟨_, unify_self _, unify_self _⟩
      | _ => simp [unify] at two
    | _ => simp [unify] at one
  | list item ih =>
    cases u with
    | any =>
      obtain rfl : list item = w := by simpa using one
      exact ⟨v, any_unify v, two⟩
    | list item' =>
      obtain ⟨inner, common, rfl⟩ := Option.map_eq_some_iff.mp one
      cases v with
      | any => exact ⟨_, unify_any _, by rw [← two, unify_any]; exact one⟩
      | list item'' =>
        obtain ⟨outer, common', rfl⟩ := Option.map_eq_some_iff.mp two
        obtain ⟨z, right, whole⟩ := ih common common'
        exact ⟨list z, by simp [right], by simp [whole]⟩
      | _ => simp [unify] at two
    | _ => simp [unify] at one
  | pair left right ihLeft ihRight =>
    cases u with
    | any =>
      obtain rfl : pair left right = w := by simpa using one
      exact ⟨v, any_unify v, two⟩
    | pair left' right' =>
      obtain ⟨l, r, lefts, rights, rfl⟩ := pair_unify_pair.mp one
      cases v with
      | any => exact ⟨_, unify_any _, by rw [← two, unify_any]; exact one⟩
      | pair left'' right'' =>
        obtain ⟨l', r', lefts', rights', rfl⟩ := pair_unify_pair.mp two
        obtain ⟨z, commonLeft, wholeLeft⟩ := ihLeft lefts lefts'
        obtain ⟨z', commonRight, wholeRight⟩ := ihRight rights rights'
        exact ⟨pair z z', pair_unify_pair.mpr ⟨z, z', commonLeft, commonRight, rfl⟩,
          pair_unify_pair.mpr ⟨l', r', wholeLeft, wholeRight, rfl⟩⟩
      | _ => simp [unify] at two
    | _ => simp [unify] at one
  | record names field ih =>
    cases u with
    | any =>
      obtain rfl : record names field = w := by simpa using one
      exact ⟨v, any_unify v, two⟩
    | record names' field' =>
      obtain ⟨inner, innerField, rfl, merged⟩ := record_unify_record.mp one
      cases v with
      | any => exact ⟨_, unify_any _, by rw [← two, unify_any]; exact one⟩
      | record names'' field'' =>
        obtain ⟨outer, outerField, rfl, merged'⟩ := record_unify_record.mp two
        have each (name : String) := Merged.assoc (fun t found => by
          obtain ⟨i, -, rfl⟩ := Names.lookup_eq_some.mp found
          exact ih i) (merged name) (merged' name)
        choose values common whole using each
        obtain ⟨family, given⟩ :=
            Names.exists_family (s := names'.union names'') values fun name => by
          rw [Names.mem_union, ← not_iff_not, not_or, ← Names.lookup_eq_none field',
            ← Names.lookup_eq_none field'', Option.not_isSome_iff_eq_none]
          exact (common name).eq_none.symm
        refine ⟨record (names'.union names'') family, ?_, ?_⟩
        · exact record_unify_record.mpr ⟨_, family, rfl, fun name => given name ▸ common name⟩
        · exact record_unify_record.mpr
            ⟨outer, outerField, rfl, fun name => given name ▸ whole name⟩
      | _ => simp [unify] at two
    | _ => simp [unify] at one

/-- How three types are bracketed changes neither whether they go together nor as what. -/
theorem unify_assoc (t u v : ValueType) :
    (t.unify u).bind (·.unify v) = (u.unify v).bind (t.unify ·) := by
  apply Option.ext
  intro y
  simp only [Option.bind_eq_some_iff]
  constructor
  · rintro ⟨x, one, two⟩
    exact unify_assoc_of_some one two
  · rintro ⟨z, one, two⟩
    rw [unify_comm] at one two
    obtain ⟨x, first, second⟩ := unify_assoc_of_some one two
    exact ⟨x, unify_comm u t ▸ first, unify_comm v x ▸ second⟩

/-- The common type of two types describes exactly the values that both describe. -/
theorem admits_unify (h : t.unify u = some w) (value : Value) :
    w.admits value = true ↔ t.admits value = true ∧ u.admits value = true := by
  induction t generalizing u w value with
  | any =>
    obtain rfl : u = w := by simpa using h
    simp
  | scalar kind =>
    cases u with
    | any =>
      obtain rfl : scalar kind = w := by simpa using h
      simp
    | scalar kind' =>
      simp only [unify, Option.ite_none_right_eq_some, Option.some.injEq] at h
      obtain ⟨rfl, rfl⟩ := h
      simp
    | _ => simp [unify] at h
  | list item ih =>
    cases u with
    | any =>
      obtain rfl : list item = w := by simpa using h
      simp
    | list item' =>
      obtain ⟨both, common, rfl⟩ := Option.map_eq_some_iff.mp h
      cases value with
      | array size part => simp [ih common, forall_and]
      | _ => simp [not_admits_list]
    | _ => simp [unify] at h
  | pair left right ihLeft ihRight =>
    cases u with
    | any =>
      obtain rfl : pair left right = w := by simpa using h
      simp
    | pair left' right' =>
      obtain ⟨l, r, lefts, rights, rfl⟩ := pair_unify_pair.mp h
      cases parts : value.pair? with
      | none =>
        have apart {t u : ValueType} : ¬ (pair t u).admits value = true := by
          rintro inside
          obtain ⟨a, b, rfl, -⟩ := admits_pair.mp inside
          simp at parts
        simp [apart]
      | some sides =>
        obtain rfl := Value.pair?_eq_some.mp parts
        simp only [admits_pair_pair, ihLeft lefts, ihRight rights]
        exact and_and_and_comm
    | _ => simp [unify] at h
  | record names field ih =>
    cases u with
    | any =>
      obtain rfl : record names field = w := by simpa using h
      simp
    | record names' field' =>
      obtain ⟨all, family, rfl, merged⟩ := record_unify_record.mp h
      cases value with
      | object held content => exact admits_merged ih merged
      | _ => simp [not_admits_record]
    | _ => simp [unify] at h

/-- Whether `any` occurs nowhere in a type. -/
def isConcrete : ValueType → Bool
  | .any => false
  | .scalar _ => true
  | .list item => item.isConcrete
  | .pair left right => left.isConcrete && right.isConcrete
  | .record names field => (List.finRange names.size).all fun i => (field i).isConcrete

theorem accepts_record_record {names names' : Names} {field : Fin names.size → ValueType}
    {field' : Fin names'.size → ValueType} :
    (record names field).accepts (record names' field') = true ↔
      ∀ name t, names.lookup field name = some t →
        ∃ u, names'.lookup field' name = some u ∧ t.accepts u = true := by
  rw [accepts]
  refine Names.all_lookup accepts ?_ ?_
  · intro i here
    rw [here]
  · intro i j here
    rw [here]

/-- What may be fed from a type without `any` in it is what is expected. -/
theorem included_of_accepts (fed : t.accepts u = true) (concrete : u.isConcrete = true) :
    Included u t := by
  induction t generalizing u with
  | any => exact fun value _ => admits_any value
  | scalar kind =>
    cases u with
    | any => exact nomatch concrete
    | scalar kind' =>
      obtain rfl : kind = kind' := by simpa [accepts] using fed
      exact fun _ inside => inside
    | _ => simp [accepts] at fed
  | list item ih =>
    cases u with
    | any => exact nomatch concrete
    | list item' =>
      intro value inside
      obtain ⟨size, part, rfl, parts⟩ := admits_list.mp inside
      exact admits_list_array.mpr fun i => ih fed concrete _ (parts i)
    | pair left right =>
      intro value inside
      obtain ⟨a, b, rfl, inLeft, inRight⟩ := admits_pair.mp inside
      simp only [accepts, isConcrete, Bool.and_eq_true] at fed concrete
      refine admits_list_array.mpr fun i => ?_
      match i with
      | 0 => exact ih fed.1 concrete.1 a inLeft
      | 1 => exact ih fed.2 concrete.2 b inRight
    | _ => simp [accepts] at fed
  | pair left right ihLeft ihRight =>
    cases u with
    | any => exact nomatch concrete
    | pair left' right' =>
      intro value inside
      obtain ⟨a, b, rfl, inLeft, inRight⟩ := admits_pair.mp inside
      simp only [accepts, isConcrete, Bool.and_eq_true] at fed concrete
      exact admits_pair_pair.mpr
        ⟨ihLeft fed.1 concrete.1 a inLeft, ihRight fed.2 concrete.2 b inRight⟩
    | _ => simp [accepts] at fed
  | record names field ih =>
    cases u with
    | any => exact nomatch concrete
    | record names' field' =>
      intro value inside
      obtain ⟨held, content, rfl, parts⟩ := admits_record.mp inside
      refine admits_record_object.mpr fun name t found => ?_
      obtain ⟨u, there, fed⟩ := accepts_record_record.mp fed name t found
      obtain ⟨part, has, within⟩ := parts name u there
      obtain ⟨i, -, rfl⟩ := Names.lookup_eq_some.mp found
      obtain ⟨j, -, rfl⟩ := Names.lookup_eq_some.mp there
      have concrete : (field' j).isConcrete = true :=
        List.all_eq_true.mp concrete j (List.mem_finRange j)
      exact ⟨part, has, ih i fed concrete part within⟩
    | _ => simp [accepts] at fed

end ValueType

end AgentAlgebra

import AgentAlgebra.Proofs.Types
/-!
# Feeding is inclusion

`accepts` is decided by the shapes of two types alone. Where `any` does not occur in what is produced
it comes to inclusion: a consumer accepts a producer exactly if every value of the produced type is
one of the expected type. That inclusion is enough rests on every type describing some value: what
is missing on the consumer's side shows in a value of the producer.
-/

namespace AgentAlgebra

namespace ValueType

variable {t u : ValueType}

@[simp]
theorem any_accepts (t : ValueType) : any.accepts t = true := by
  cases t <;> rfl

/-- A list type around a pair type is around both parts of the pair. -/
theorem Included.of_pair_list {left right item : ValueType}
    (included : Included (pair left right) (list item)) :
    Included left item ∧ Included right item := by
  constructor
  · intro value inside
    have both : (pair left right).admits (.pair value right.exemplar) = true :=
      admits_pair_pair.mpr ⟨inside, admits_exemplar right⟩
    exact admits_list_array.mp (included _ both) 0
  · intro value inside
    have both : (pair left right).admits (.pair left.exemplar value) = true :=
      admits_pair_pair.mpr ⟨admits_exemplar left, inside⟩
    exact admits_list_array.mp (included _ both) 1

/-- What is within a type may be fed to it. The induction is on the type that is expected; where the
shapes do not fit, an exemplar of what is produced is no value of what is expected. -/
theorem accepts_of_included (concrete : u.isConcrete = true) (included : Included u t) :
    t.accepts u = true := by
  have sample := included _ (admits_exemplar u)
  induction t generalizing u with
  | any => exact any_accepts u
  | scalar kind =>
    cases u with
    | any => exact absurd concrete Bool.false_ne_true
    | scalar kind' =>
      cases kind <;> cases kind' <;> simp_all [accepts, exemplar, Scalar.admits, Value.ofInt]
    | _ => cases kind <;> exact absurd sample Bool.false_ne_true
  | list item ih =>
    cases u with
    | any => exact absurd concrete Bool.false_ne_true
    | scalar kind => cases kind <;> exact absurd sample Bool.false_ne_true
    | list item' =>
      have inner : Included item' item := included.of_list
      exact ih concrete inner (inner _ (admits_exemplar item'))
    | pair left right =>
      obtain ⟨lefts, rights⟩ := included.of_pair_list
      obtain ⟨concrete, concrete'⟩ := Bool.and_eq_true_iff.mp concrete
      exact Bool.and_eq_true_iff.mpr ⟨ih concrete lefts (lefts _ (admits_exemplar left)),
        ih concrete' rights (rights _ (admits_exemplar right))⟩
    | record names field => exact absurd sample Bool.false_ne_true
  | pair left right ihLeft ihRight =>
    cases u with
    | any => exact absurd concrete Bool.false_ne_true
    | scalar kind => cases kind <;> exact absurd sample Bool.false_ne_true
    | list item => exact absurd (included _ (admits_empty item)) Bool.false_ne_true
    | pair left' right' =>
      obtain ⟨lefts, rights⟩ := included.of_pair
      obtain ⟨concrete, concrete'⟩ := Bool.and_eq_true_iff.mp concrete
      exact Bool.and_eq_true_iff.mpr ⟨ihLeft concrete lefts (lefts _ (admits_exemplar left')),
        ihRight concrete' rights (rights _ (admits_exemplar right'))⟩
    | record names field => exact absurd sample Bool.false_ne_true
  | record names field ih =>
    cases u with
    | any => exact absurd concrete Bool.false_ne_true
    | scalar kind => cases kind <;> exact absurd sample Bool.false_ne_true
    | record names' field' =>
      refine accepts_record_record.mpr fun name t found => ?_
      obtain ⟨u, produced, within⟩ := included.of_record found
      obtain ⟨i, -, rfl⟩ := Names.lookup_eq_some.mp found
      obtain ⟨j, -, rfl⟩ := Names.lookup_eq_some.mp produced
      have concrete : (field' j).isConcrete = true :=
        List.all_eq_true.mp concrete j (List.mem_finRange j)
      exact ⟨field' j, produced, ih i concrete within (within _ (admits_exemplar (field' j)))⟩
    | _ => exact absurd sample Bool.false_ne_true

/-- A type in which `any` does not occur may be fed to another exactly if all its values are values of
the other. -/
theorem accepts_iff_included (expected produced : ValueType)
    (concrete : produced.isConcrete = true) :
    expected.accepts produced = true ↔
      ∀ value, produced.admits value = true → expected.admits value = true :=
  ⟨fun fed => included_of_accepts fed concrete, accepts_of_included concrete⟩

/-- A pair of numbers with a remark is fed where a list of numbers is expected, and a list of numbers
is not fed where a pair is. -/
theorem accepts_iff_included_span :
    let span := recordOf [("remark", text), ("span", pair number number)]
    let spanned := recordOf [("span", list number)]
    span.isConcrete = true ∧ spanned.isConcrete = true ∧
      (∀ value, span.admits value = true → spanned.admits value = true) ∧
      ¬ ∀ value, spanned.admits value = true → span.admits value = true := by
  intro span spanned
  have concrete : span.isConcrete = true := by decide
  have concrete' : spanned.isConcrete = true := by decide
  refine ⟨concrete, concrete', (accepts_iff_included spanned span concrete).mp (by decide), ?_⟩
  rw [← accepts_iff_included span spanned concrete']
  decide

end ValueType

end AgentAlgebra

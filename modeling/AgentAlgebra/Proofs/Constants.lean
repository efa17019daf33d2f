import AgentAlgebra.Agent.Draft
import AgentAlgebra.Proofs.Steps
import AgentAlgebra.Proofs.Types
/-!
# Constants and their types

A constant declares the type that `ValueType.of` names for its value. For an array that is no pair this
is a list of what the types of all items go together as, so it describes only what is of the type of
each item at once. Hence the type named for a value describes the value exactly if no array in it
holds items whose types go together, but which are not all of each other's types; and exactly then the
constant gives its value.
-/

namespace AgentAlgebra

namespace ValueType

variable {t u v w : ValueType}

theorem isSome_pair_unify_pair {t' u' : ValueType} :
    ((pair t u).unify (pair t' u')).isSome = true ↔
      (t.unify t').isSome = true ∧ (u.unify u').isSome = true := by
  rw [Option.isSome_iff_exists, Option.isSome_iff_exists, Option.isSome_iff_exists]
  constructor
  · rintro ⟨w, common⟩
    obtain ⟨left, right, lefts, rights, -⟩ := pair_unify_pair.mp common
    exact ⟨⟨left, lefts⟩, right, rights⟩
  · rintro ⟨⟨left, lefts⟩, right, rights⟩
    exact ⟨pair left right, pair_unify_pair.mpr ⟨left, right, lefts, rights, rfl⟩⟩

/-- Two record types go together exactly if what they give does, name by name. -/
theorem isSome_record_unify_record {names names' : Names} {field : Fin names.size → ValueType}
    {field' : Fin names'.size → ValueType} :
    ((record names field).unify (record names' field')).isSome = true ↔
      ∀ name, ∃ type, Merged (names.lookup field name) (names'.lookup field' name) type := by
  rw [Option.isSome_iff_exists]
  constructor
  · rintro ⟨w, common⟩ name
    obtain ⟨all, family, -, merged⟩ := record_unify_record.mp common
    exact ⟨_, merged name⟩
  · intro each
    choose values merged using each
    obtain ⟨family, given⟩ := Names.exists_family (s := names.union names') values fun name => by
      rw [Names.mem_union, ← not_iff_not, not_or, ← Names.lookup_eq_none field,
        ← Names.lookup_eq_none field', Option.not_isSome_iff_eq_none]
      exact (merged name).eq_none.symm
    exact ⟨_, record_unify_record.mpr ⟨_, family, rfl, fun name => given name ▸ merged name⟩⟩

/-- What two types go together as goes together with a third if either of the two does. -/
theorem Merged.pairwise {a b c d e f : Option ValueType}
    (pairwise : ∀ t, a = some t → ∀ {u v w}, t.unify u = some w → (t.unify v).isSome = true →
      (u.unify v).isSome = true → (w.unify v).isSome = true)
    (one : Merged a b d) (two : Merged a c e) (three : Merged b c f) : ∃ g, Merged d c g := by
  cases one with
  | neither => exact ⟨e, two⟩
  | left => exact ⟨e, two⟩
  | right => exact ⟨f, three⟩
  | both common =>
    cases two with
    | left => exact ⟨_, .left⟩
    | both first =>
      cases three with
      | both second =>
        have whole := pairwise _ rfl common (Option.isSome_of_eq_some first)
          (Option.isSome_of_eq_some second)
        obtain ⟨g, merged⟩ := Option.isSome_iff_exists.mp whole
        exact ⟨some g, .both merged⟩

/-- Three types of which any two go together all go together. -/
theorem isSome_unify_of_pairwise (one : t.unify u = some w) (two : (t.unify v).isSome = true)
    (three : (u.unify v).isSome = true) : (w.unify v).isSome = true := by
  induction t generalizing u v w with
  | any =>
    obtain rfl : u = w := by simpa using one
    exact three
  | scalar kind =>
    cases u with
    | any =>
      obtain rfl : scalar kind = w := by simpa using one
      exact two
    | scalar kind' =>
      simp only [unify, Option.ite_none_right_eq_some, Option.some.injEq] at one
      obtain ⟨rfl, rfl⟩ := one
      exact two
    | _ => simp [unify] at one
  | list item ih =>
    cases u with
    | any =>
      obtain rfl : list item = w := by simpa using one
      exact two
    | list item' =>
      obtain ⟨both, common, rfl⟩ := Option.map_eq_some_iff.mp one
      cases v with
      | any => simp
      | list item'' =>
        rw [list_unify_list, Option.isSome_map] at two three ⊢
        exact ih common two three
      | _ => simp [unify] at two
    | _ => simp [unify] at one
  | pair left right ihLeft ihRight =>
    cases u with
    | any =>
      obtain rfl : pair left right = w := by simpa using one
      exact two
    | pair left' right' =>
      obtain ⟨l, r, lefts, rights, rfl⟩ := pair_unify_pair.mp one
      cases v with
      | any => simp
      | pair left'' right'' =>
        rw [isSome_pair_unify_pair] at two three ⊢
        exact ⟨ihLeft lefts two.1 three.1, ihRight rights two.2 three.2⟩
      | _ => simp [unify] at two
    | _ => simp [unify] at one
  | record names field ih =>
    cases u with
    | any =>
      obtain rfl : record names field = w := by simpa using one
      exact two
    | record names' field' =>
      obtain ⟨all, family, rfl, merged⟩ := record_unify_record.mp one
      cases v with
      | any => simp
      | record names'' field'' =>
        rw [isSome_record_unify_record] at two three ⊢
        intro name
        obtain ⟨e, first⟩ := two name
        obtain ⟨f, second⟩ := three name
        refine Merged.pairwise (fun t found => ?_) (merged name) first second
        obtain ⟨i, -, rfl⟩ := Names.lookup_eq_some.mp found
        exact ih i
      | _ => simp [unify] at two
    | _ => simp [unify] at one

theorem isSome_unify_iff (one : t.unify u = some w) :
    (w.unify v).isSome = true ↔ (t.unify v).isSome = true ∧ (u.unify v).isSome = true := by
  constructor
  · intro whole
    obtain ⟨x, two⟩ := Option.isSome_iff_exists.mp whole
    obtain ⟨y, right, -⟩ := unify_assoc_of_some one two
    obtain ⟨z, left, -⟩ := unify_assoc_of_some (unify_comm t u ▸ one) two
    exact ⟨Option.isSome_of_eq_some left, Option.isSome_of_eq_some right⟩
  · rintro ⟨two, three⟩
    exact isSome_unify_of_pairwise one two three

/-- A chain of types goes together exactly if any two of them do. -/
theorem isSome_foldlM_unify {types : List ValueType} {start : ValueType} :
    (types.foldlM unify start).isSome = true ↔
      (∀ type ∈ types, (start.unify type).isSome = true) ∧
        types.Pairwise fun t u => (t.unify u).isSome = true := by
  induction types generalizing start with
  | nil => simp
  | cons type types ih =>
    rw [List.foldlM_cons, List.forall_mem_cons, List.pairwise_cons]
    cases one : start.unify type with
    | none => simp
    | some both =>
      have later := @ih both
      simp only [isSome_unify_iff one, forall_and] at later
      simp only [Option.isSome_some, true_and]
      exact later.trans and_assoc

/-- What a chain of types goes together as describes what all of them describe. -/
theorem admits_foldlM_unify {types : List ValueType} {start common : ValueType}
    (folded : types.foldlM unify start = some common) (value : Value) :
    common.admits value = true ↔
      start.admits value = true ∧ ∀ type ∈ types, type.admits value = true := by
  induction types generalizing start with
  | nil =>
    obtain rfl : start = common := Option.some.inj folded
    simp
  | cons type types ih =>
    rw [List.foldlM_cons] at folded
    obtain ⟨both, one, rest⟩ := Option.bind_eq_some_iff.mp folded
    rw [ih rest, admits_unify one, List.forall_mem_cons, and_assoc]

end ValueType

namespace Value

open ValueType (of)

/-- In every array of the value that is no pair, either the types of some two items do not go together,
so that the array is named a list of anything, or every item is of the type of every other. -/
def Regular : Value → Prop
  | .array size item =>
    if size = 2 then ∀ i, Regular (item i)
    else (∃ i j, (of (item i)).unify (of (item j)) = none) ∨
      ∀ i j, (of (item i)).admits (item j) = true
  | .object _ field => ∀ i, Regular (field i)
  | _ => True

end Value

namespace ValueType

theorem of_array {size : Nat} (other : size ≠ 2) (item : Fin size → Value) :
    of (.array size item) =
      list (((List.ofFn fun i => of (item i)).foldlM unify any).getD any) := by
  have unfolded : of (.array size item) = ofItems (List.ofFn fun i => of (item i)) := rfl
  have length : (List.ofFn fun i => of (item i)).length ≠ 2 := by simpa using other
  rw [unfolded]
  unfold ofItems
  split
  · rename_i types
    simp [types] at length
  · rfl

/-- The types of the items of an array have something in common exactly if those of any two have. -/
theorem foldlM_unify_ofFn_eq_none {size : Nat} {type : Fin size → ValueType} :
    (List.ofFn type).foldlM unify any = none ↔ ∃ i j, (type i).unify (type j) = none := by
  rw [← Option.not_isSome_iff_eq_none, isSome_foldlM_unify, List.pairwise_ofFn]
  simp only [any_unify, Option.isSome_some, implies_true, true_and]
  constructor
  · intro apart
    by_contra together
    refine apart fun i j _ => ?_
    cases common : (type i).unify (type j) with
    | none => exact absurd ⟨i, j, common⟩ together
    | some w => rfl
  · rintro ⟨i, j, apart⟩ together
    rcases lt_trichotomy i j with before | rfl | after
    · simpa [apart] using together before
    · simp at apart
    · rw [unify_comm] at apart
      simpa [apart] using together after

theorem of_array_admits_iff {size : Nat} (other : size ≠ 2) (item : Fin size → Value) :
    (of (.array size item)).admits (.array size item) = true ↔
      (∃ i j, (of (item i)).unify (of (item j)) = none) ∨
        ∀ i j, (of (item i)).admits (item j) = true := by
  rw [of_array other, admits_list_array]
  cases folded : (List.ofFn fun i => of (item i)).foldlM unify any with
  | none =>
    have apart := foldlM_unify_ofFn_eq_none.mp folded
    exact iff_of_true (fun i => admits_any _) (.inl apart)
  | some common =>
    have together : ¬ ∃ i j, (of (item i)).unify (of (item j)) = none := by
      rw [← foldlM_unify_ofFn_eq_none, folded]
      exact nofun
    simp only [together, false_or, Option.getD_some, admits_foldlM_unify folded, admits_any,
      true_and, List.forall_mem_ofFn_iff]
    exact forall_comm

theorem of_object_admits_iff (names : Names) (field : Fin names.size → Value) :
    (of (.object names field)).admits (.object names field) = true ↔
      ∀ i, (of (field i)).admits (field i) = true := by
  have named : of (.object names field) = record names fun i => of (field i) := ofFamily_eq ..
  rw [named, admits_record_object]
  constructor
  · intro each i
    obtain ⟨part, held, inside⟩ := each (names.name i) (of (field i)) (Names.lookup_name i)
    rw [Names.lookup_name] at held
    obtain rfl := Option.some.inj held
    exact inside
  · intro each name t found
    obtain ⟨i, rfl, rfl⟩ := Names.lookup_eq_some.mp found
    exact ⟨field i, Names.lookup_name i, each i⟩

/-- The type named for a value describes it exactly if the value is regular. -/
theorem of_admits_iff (value : Value) : (of value).admits value = true ↔ value.Regular := by
  induction value with
  | null => exact iff_of_true rfl trivial
  | bool b => exact iff_of_true rfl trivial
  | number n => exact iff_of_true rfl trivial
  | text s => exact iff_of_true rfl trivial
  | array size item ih =>
    by_cases two : size = 2
    · subst two
      have named : of (.array 2 item) = pair (of (item 0)) (of (item 1)) := rfl
      rw [named, Value.array_two item, admits_pair_pair, ih 0, ih 1, ← Value.array_two item,
        Value.Regular, if_pos rfl, Fin.forall_fin_two]
    · rw [of_array_admits_iff two, Value.Regular, if_neg two]
  | object names field ih =>
    rw [of_object_admits_iff, Value.Regular]
    exact forall_congr' ih

end ValueType

namespace Agent

variable {m : Type → Type} [Monad m] [LawfulMonad m]

/-- A constant gives its value if that is of the type that the constant declares, and is otherwise
reported for it. -/
theorem step_constant (value input : Value) :
    (constant value : Agent m).step .null input =
      if (ValueType.of value).admits value then
        pure ⟨.null, value, [⟨(constant value : Agent m).name, input, value⟩]⟩
      else throw (.illTypedOutput (constant value : Agent m).name value (.of value)) := by
  have legal : ValueType.any.admits input = true := ValueType.admits_any input
  have given : (liftM (pure value : m Value) : ExceptT StepError m Value) = pure value := by simp
  rw [constant, step_stateless_null _ legal, given, pure_bind]
  rfl

/-- The type named for a value describes it exactly if the value is regular. If it is, the constant gives
its value on every input, and otherwise every move of it ends with the report that its output is not of
its type. -/
theorem constant_gives_iff_regular (value input : Value) :
    ((ValueType.of value).admits value = true ↔ value.Regular) ∧
      (value.Regular → (constant value : Agent m).step .null input =
        pure ⟨.null, value, [⟨(constant value : Agent m).name, input, value⟩]⟩) ∧
      (¬ value.Regular → (constant value : Agent m).step .null input =
        throw (.illTypedOutput (constant value : Agent m).name value (.of value))) := by
  have described := ValueType.of_admits_iff value
  refine ⟨described, fun regular => ?_, fun irregular => ?_⟩
  · rw [step_constant, if_pos (described.mpr regular)]
  · rw [step_constant, if_neg (mt described.mp irregular)]

/-- A table with a header that is a list of anything. -/
def table : Value :=
  .record [("header", .ofList [.text "a", .ofNat 2, .null]),
    ("rows", .ofList [.ofList [.ofNat 1], .ofList [], .ofList [.ofNat 2, .ofNat 3, .ofNat 4]])]

/-- Three records that have no field in common. -/
def scattered : Value :=
  .ofList [.record [("x", .ofNat 1)], .record [("y", .ofNat 2)], .record [("z", .ofNat 3)]]

/-- The constant table is given on every input. The constant list of records is typed as a list of
records with the fields of all of them, and is never given. -/
theorem constant_gives_iff_regular_table :
    table.Regular ∧ ¬ scattered.Regular ∧
      (constant table : Agent Id).step .null (.bool true) =
        pure ⟨.null, table, [⟨(constant table : Agent Id).name, .bool true, table⟩]⟩ ∧
      (constant scattered : Agent Id).step .null (.bool true) =
        throw (.illTypedOutput (constant scattered : Agent Id).name scattered (.of scattered)) := by
  obtain ⟨described, gives, -⟩ := constant_gives_iff_regular (m := Id) table (.bool true)
  obtain ⟨described', -, fails⟩ := constant_gives_iff_regular (m := Id) scattered (.bool true)
  have regular : table.Regular := described.mp (by decide)
  have irregular : ¬ scattered.Regular := mt described'.mpr (by decide +kernel)
  exact ⟨regular, irregular, gives regular, fails irregular⟩

end Agent

end AgentAlgebra

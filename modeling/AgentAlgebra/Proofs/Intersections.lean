import AgentAlgebra.Proofs.Construction
import AgentAlgebra.Proofs.Steps
import AgentAlgebra.Proofs.Types
/-!
# Legal for all the parts

A parallel agent and a branch take an input only if all the parts that read it do: their legal inputs
are intersections. Two types are intersected by `unify`, a partial meet: where it gives a type, that
describes just what both types describe. Where it gives none the intersection is taken for empty,
though the types may have values in common. `overlaps` decides whether they have, and `severed` says
of two sets of legal inputs that they are such types. An intersection is exact unless its sets are
severed, and of severed sets it loses all that they share.
-/

namespace AgentAlgebra

namespace ValueType

variable {t u : ValueType} {value : Value}

/-- Common types make a partial meet. A type goes together with itself and with anything as itself;
neither the order nor the bracketing of types changes whether they go together, or as what; and what
two types go together as describes the values that both describe. -/
theorem unify_partial_meet (t u v : ValueType) :
    t.unify t = some t ∧ t.unify any = some t ∧ t.unify u = u.unify t ∧
      (t.unify u).bind (·.unify v) = (u.unify v).bind (t.unify ·) ∧
      ∀ both, t.unify u = some both → ∀ value,
        both.admits value = true ↔ t.admits value = true ∧ u.admits value = true :=
  ⟨unify_self t, unify_any t, unify_comm t u, unify_assoc t u v, fun _ => admits_unify⟩

/-- Two record types with different fields meet in the record of all, where the field that both have
is of the narrower type. -/
theorem unify_partial_meet_letters :
    let signed := recordOf [("body", any), ("from", text)]
    let sized := recordOf [("body", list number), ("size", number)]
    ∃ letter, signed.unify sized = some letter ∧
      toString letter = "\x7bbody: [number], from: text, size: number\x7d" ∧
      ∀ value, letter.admits value = true ↔
        signed.admits value = true ∧ sized.admits value = true := by
  intro signed sized
  have together : (signed.unify sized).isSome = true := by decide +kernel
  obtain ⟨letter, common⟩ := Option.isSome_iff_exists.mp together
  have named : (signed.unify sized).map toString =
      some "\x7bbody: [number], from: text, size: number\x7d" := by decide +kernel
  rw [common] at named
  obtain ⟨-, -, -, -, described⟩ := unify_partial_meet signed sized any
  exact ⟨letter, common, Option.some.inj named, described letter common⟩

/-- Whether some value is of both types. All list types share the empty list, and a list type shares
with a pair type the pairs whose parts are of both. -/
def overlaps : ValueType → ValueType → Bool
  | .any, _ => true
  | _, .any => true
  | .scalar kind, .scalar kind' => kind = kind'
  | .list _, .list _ => true
  | .list item, .pair left right => overlaps item left && overlaps item right
  | .pair left right, .list item => overlaps left item && overlaps right item
  | .pair left right, .pair left' right' => overlaps left left' && overlaps right right'
  | .record names field, .record names' field' =>
    (List.finRange names.size).all fun i =>
      (names'.index? (names.name i)).all fun j => overlaps (field i) (field' j)
  | _, _ => false

@[simp]
theorem any_overlaps (t : ValueType) : any.overlaps t = true := by
  cases t <;> rfl

@[simp]
theorem overlaps_any (t : ValueType) : t.overlaps any = true := by
  cases t <;> rfl

/-- Two record types overlap exactly if what they give for each name that both have does. -/
theorem overlaps_record_record {names names' : Names} {field : Fin names.size → ValueType}
    {field' : Fin names'.size → ValueType} :
    (record names field).overlaps (record names' field') = true ↔
      ∀ name t u, names.lookup field name = some t → names'.lookup field' name = some u →
        t.overlaps u = true := by
  simp only [overlaps, List.all_eq_true, Option.all_eq_true, List.mem_finRange, true_imp_iff,
    Names.index?_eq_some]
  constructor
  · intro each name t u found found'
    obtain ⟨i, rfl, rfl⟩ := Names.lookup_eq_some.mp found
    obtain ⟨j, same, rfl⟩ := Names.lookup_eq_some.mp found'
    exact each i j same
  · intro each i j same
    exact each _ _ _ (Names.lookup_name i) (same ▸ Names.lookup_name j)

/-- Types that have a value in common overlap. -/
theorem overlaps_of_admits (inside : t.admits value = true) (inside' : u.admits value = true) :
    t.overlaps u = true := by
  induction t generalizing u value with
  | any => exact any_overlaps u
  | scalar kind =>
    rw [admits_scalar] at inside
    cases u with
    | any => rfl
    | scalar kind' =>
      rw [admits_scalar] at inside'
      cases kind <;> cases kind' <;> cases value <;> simp_all [overlaps, Scalar.admits]
    | list item =>
      obtain ⟨size, part, rfl, -⟩ := admits_list.mp inside'
      cases kind <;> exact absurd inside Bool.false_ne_true
    | pair left right =>
      obtain ⟨a, b, rfl, -⟩ := admits_pair.mp inside'
      cases kind <;> exact absurd inside Bool.false_ne_true
    | record names field =>
      obtain ⟨held, content, rfl, -⟩ := admits_record.mp inside'
      cases kind <;> exact absurd inside Bool.false_ne_true
  | list item ih =>
    obtain ⟨size, part, rfl, parts⟩ := admits_list.mp inside
    cases u with
    | any => rfl
    | scalar kind => cases kind <;> exact absurd inside' Bool.false_ne_true
    | list item' => rfl
    | pair left right =>
      obtain ⟨a, b, same, inLeft, inRight⟩ := admits_pair.mp inside'
      rw [same] at inside
      have both := admits_list_array.mp inside
      exact Bool.and_eq_true_iff.mpr ⟨ih (both 0) inLeft, ih (both 1) inRight⟩
    | record names field => exact absurd inside' Bool.false_ne_true
  | pair left right ihLeft ihRight =>
    obtain ⟨a, b, rfl, inLeft, inRight⟩ := admits_pair.mp inside
    cases u with
    | any => rfl
    | scalar kind => cases kind <;> exact absurd inside' Bool.false_ne_true
    | list item =>
      have both := admits_list_array.mp inside'
      exact Bool.and_eq_true_iff.mpr ⟨ihLeft inLeft (both 0), ihRight inRight (both 1)⟩
    | pair left' right' =>
      obtain ⟨inLeft', inRight'⟩ := admits_pair_pair.mp inside'
      exact Bool.and_eq_true_iff.mpr ⟨ihLeft inLeft inLeft', ihRight inRight inRight'⟩
    | record names field => exact absurd inside' Bool.false_ne_true
  | record names field ih =>
    obtain ⟨held, content, rfl, parts⟩ := admits_record.mp inside
    cases u with
    | any => rfl
    | scalar kind => cases kind <;> exact absurd inside' Bool.false_ne_true
    | record names' field' =>
      refine overlaps_record_record.mpr fun name t u found found' => ?_
      obtain ⟨part, has, within⟩ := parts name t found
      obtain ⟨part', has', within'⟩ := admits_record_object.mp inside' name u found'
      obtain rfl := Option.some.inj (has.symm.trans has')
      obtain ⟨i, -, rfl⟩ := Names.lookup_eq_some.mp found
      exact ih i within within'
    | _ => exact absurd inside' Bool.false_ne_true

/-- What one of two overlapping record types and the other ask for a name can be had at once. -/
theorem exists_admits_at {names names' : Names} {field : Fin names.size → ValueType}
    {field' : Fin names'.size → ValueType} (name : String)
    (shared : ∀ t u, names.lookup field name = some t → names'.lookup field' name = some u →
      ∃ value, t.admits value = true ∧ u.admits value = true) :
    ∃ value, (∀ t, names.lookup field name = some t → t.admits value = true) ∧
      ∀ u, names'.lookup field' name = some u → u.admits value = true := by
  cases found : names.lookup field name with
  | none =>
    cases found' : names'.lookup field' name with
    | none => exact ⟨.null, nofun, nofun⟩
    | some u =>
      refine ⟨u.exemplar, nofun, fun u' same => ?_⟩
      obtain rfl := Option.some.inj same
      exact admits_exemplar u
  | some t =>
    cases found' : names'.lookup field' name with
    | none =>
      refine ⟨t.exemplar, fun t' same => ?_, nofun⟩
      obtain rfl := Option.some.inj same
      exact admits_exemplar t
    | some u =>
      obtain ⟨value, inside, inside'⟩ := shared t u found found'
      refine ⟨value, fun t' same => ?_, fun u' same => ?_⟩
      · obtain rfl := Option.some.inj same
        exact inside
      · obtain rfl := Option.some.inj same
        exact inside'

/-- Overlapping types have a value in common. -/
theorem exists_admits_of_overlaps (overlap : t.overlaps u = true) :
    ∃ value, t.admits value = true ∧ u.admits value = true := by
  induction t generalizing u with
  | any => exact ⟨u.exemplar, admits_any _, admits_exemplar u⟩
  | scalar kind =>
    cases u with
    | any => exact ⟨_, admits_exemplar (scalar kind), admits_any _⟩
    | scalar kind' =>
      obtain rfl : kind = kind' := by simpa [overlaps] using overlap
      exact ⟨_, admits_exemplar (scalar kind), admits_exemplar (scalar kind)⟩
    | _ => exact absurd overlap Bool.false_ne_true
  | list item ih =>
    cases u with
    | any => exact ⟨_, admits_exemplar (list item), admits_any _⟩
    | list item' => exact ⟨_, admits_empty item, admits_empty item'⟩
    | pair left right =>
      obtain ⟨lefts, rights⟩ := Bool.and_eq_true_iff.mp overlap
      obtain ⟨a, inItem, inLeft⟩ := ih lefts
      obtain ⟨b, inItem', inRight⟩ := ih rights
      refine ⟨.pair a b, admits_list_array.mpr ?_, admits_pair_pair.mpr ⟨inLeft, inRight⟩⟩
      exact Fin.forall_fin_two.mpr ⟨inItem, inItem'⟩
    | _ => exact absurd overlap Bool.false_ne_true
  | pair left right ihLeft ihRight =>
    cases u with
    | any => exact ⟨_, admits_exemplar (pair left right), admits_any _⟩
    | list item =>
      obtain ⟨lefts, rights⟩ := Bool.and_eq_true_iff.mp overlap
      obtain ⟨a, inLeft, inItem⟩ := ihLeft lefts
      obtain ⟨b, inRight, inItem'⟩ := ihRight rights
      refine ⟨.pair a b, admits_pair_pair.mpr ⟨inLeft, inRight⟩, admits_list_array.mpr ?_⟩
      exact Fin.forall_fin_two.mpr ⟨inItem, inItem'⟩
    | pair left' right' =>
      obtain ⟨lefts, rights⟩ := Bool.and_eq_true_iff.mp overlap
      obtain ⟨a, inLeft, inLeft'⟩ := ihLeft lefts
      obtain ⟨b, inRight, inRight'⟩ := ihRight rights
      exact ⟨.pair a b, admits_pair_pair.mpr ⟨inLeft, inRight⟩,
        admits_pair_pair.mpr ⟨inLeft', inRight'⟩⟩
    | _ => exact absurd overlap Bool.false_ne_true
  | record names field ih =>
    cases u with
    | any => exact ⟨_, admits_exemplar (record names field), admits_any _⟩
    | record names' field' =>
      have each (name : String) := exists_admits_at name fun t u found found' => by
        have inner := overlaps_record_record.mp overlap name t u found found'
        obtain ⟨i, -, rfl⟩ := Names.lookup_eq_some.mp found
        exact ih i inner
      choose part inside inside' using each
      -- One object for both: it has the names of both, and for each a part that suits both.
      let whole := names.union names'
      have held {name : String} (mem : name ∈ whole) :
          whole.lookup (fun i => part (whole.name i)) name = some (part name) := by
        obtain ⟨i, rfl⟩ := List.mem_iff_get.mp mem
        exact Names.lookup_name i
      refine ⟨.object whole fun i => part (whole.name i), ?_, ?_⟩
      · refine admits_record_object.mpr fun name t found => ⟨part name, held ?_, inside name t found⟩
        exact Names.mem_union.mpr (.inl (Names.mem_of_lookup found))
      · refine admits_record_object.mpr fun name u found => ⟨part name, held ?_, inside' name u found⟩
        exact Names.mem_union.mpr (.inr (Names.mem_of_lookup found))
    | _ => exact absurd overlap Bool.false_ne_true

theorem overlaps_iff :
    t.overlaps u = true ↔ ∃ value, t.admits value = true ∧ u.admits value = true :=
  ⟨exists_admits_of_overlaps, fun ⟨_, inside, inside'⟩ => overlaps_of_admits inside inside'⟩

theorem overlaps_comm (t u : ValueType) : t.overlaps u = u.overlaps t := by
  rw [Bool.eq_iff_iff, overlaps_iff, overlaps_iff]
  exact exists_congr fun value => and_comm

theorem admits_of_beq {a b : Value} (same : (a == b) = true) (inside : t.admits a = true) :
    t.admits b = true := by
  induction t generalizing a b with
  | any => exact admits_any b
  | scalar kind =>
    rw [admits_scalar] at inside ⊢
    cases kind <;> cases a <;> cases b <;>
      first | rfl | exact absurd inside Bool.false_ne_true | exact absurd same Bool.false_ne_true
  | list item ih =>
    obtain ⟨size, part, rfl, parts⟩ := admits_list.mp inside
    obtain ⟨part', rfl, equal⟩ := Value.exists_array_of_beq same
    exact admits_list_array.mpr fun i => ih (equal i) (parts i)
  | pair left right ihLeft ihRight =>
    obtain ⟨one, two, rfl, inLeft, inRight⟩ := admits_pair.mp inside
    obtain ⟨part', rfl, equal⟩ := Value.exists_array_of_beq same
    rw [Value.array_two]
    exact admits_pair_pair.mpr ⟨ihLeft (equal 0) inLeft, ihRight (equal 1) inRight⟩
  | record names field ih =>
    obtain ⟨held, content, rfl, parts⟩ := admits_record.mp inside
    obtain ⟨content', rfl, equal⟩ := Value.exists_object_of_beq same
    refine admits_record_object.mpr fun name t found => ?_
    obtain ⟨part, has, within⟩ := parts name t found
    obtain ⟨j, rfl, rfl⟩ := Names.lookup_eq_some.mp has
    obtain ⟨i, -, rfl⟩ := Names.lookup_eq_some.mp found
    exact ⟨content' j, Names.lookup_name j, ih i (equal j) within⟩

/-- Equal values are of the same types. -/
theorem admits_congr {a b : Value} (same : (a == b) = true) : t.admits a = t.admits b :=
  Bool.eq_iff_iff.mpr ⟨admits_of_beq same, admits_of_beq (BEq.symm same)⟩

end ValueType

namespace Directions

variable {d e f : Directions} {input : Value}

/-- Equal inputs are legal in the same sets. -/
theorem contains_congr {a b : Value} (same : (a == b) = true) : d.contains a = d.contains b := by
  cases d with
  | finite inputs =>
    rw [Bool.eq_iff_iff]
    simp only [contains, List.contains_iff_exists_mem_beq]
    constructor
    · rintro ⟨listed, mem, equal⟩
      exact ⟨listed, mem, BEq.trans (BEq.symm same) equal⟩
    · rintro ⟨listed, mem, equal⟩
      exact ⟨listed, mem, BEq.trans same equal⟩
  | typed type => exact ValueType.admits_congr same

theorem contains_filter (inputs : List Value) :
    (finite (inputs.filter d.contains)).contains input =
      ((finite inputs).contains input && d.contains input) := by
  rw [Bool.eq_iff_iff]
  simp only [contains, List.contains_iff_exists_mem_beq, List.mem_filter, Bool.and_eq_true]
  constructor
  · rintro ⟨listed, ⟨mem, legal⟩, equal⟩
    exact ⟨⟨listed, mem, equal⟩, (contains_congr equal).trans legal⟩
  · rintro ⟨⟨listed, mem, equal⟩, legal⟩
    exact ⟨listed, ⟨mem, (contains_congr equal).symm.trans legal⟩, equal⟩

/-- Two sets are types that have values in common and no common type. -/
def severed : Directions → Directions → Bool
  | .typed t, .typed u => (t.unify u).isNone && t.overlaps u
  | _, _ => false

/-- What is legal in both of two sets, and only that, is legal in their intersection, unless the sets
are severed; then nothing is. -/
theorem contains_intersect :
    (d.intersect e).contains input = true ↔
      d.contains input = true ∧ e.contains input = true ∧ d.severed e = false := by
  cases d with
  | finite inputs =>
    have filtered : (finite inputs).intersect e = finite (inputs.filter e.contains) := by
      cases e <;> rfl
    rw [filtered, contains_filter, Bool.and_eq_true]
    simp [severed]
  | typed t =>
    cases e with
    | finite inputs =>
      have filtered : (typed t).intersect (finite inputs) =
          finite (inputs.filter (typed t).contains) := rfl
      rw [filtered, contains_filter, Bool.and_eq_true]
      simp [severed, and_comm]
    | typed u =>
      cases common : t.unify u with
      | some both =>
        simp [intersect, severed, common, contains, ValueType.admits_unify common]
      | none =>
        have nothing : ((typed t).intersect (typed u)).contains input = false := by
          simp [intersect, common, none, contains]
        rw [nothing]
        refine iff_of_false Bool.false_ne_true ?_
        rintro ⟨inside, inside', whole⟩
        simp [severed, common, ValueType.overlaps_of_admits inside inside'] at whole

theorem severed_comm (d e : Directions) : d.severed e = e.severed d := by
  cases d with
  | finite inputs => cases e <;> rfl
  | typed t =>
    cases e with
    | finite inputs => rfl
    | typed u => rw [severed, severed, ValueType.unify_comm, ValueType.overlaps_comm]

/-- In which order two sets are intersected does not matter, though of two lists the intersection keeps
the order of the first. -/
theorem contains_intersect_comm (d e : Directions) (input : Value) :
    (d.intersect e).contains input = (e.intersect d).contains input := by
  rw [Bool.eq_iff_iff, contains_intersect, contains_intersect, severed_comm d e]
  exact and_left_comm

/-- Severed sets have inputs in common. -/
theorem exists_contains_of_severed (apart : d.severed e = true) :
    ∃ input, d.contains input = true ∧ e.contains input = true := by
  cases d with
  | finite inputs => exact absurd apart Bool.false_ne_true
  | typed t =>
    cases e with
    | finite inputs => exact absurd apart Bool.false_ne_true
    | typed u => exact ValueType.exists_admits_of_overlaps (Bool.and_eq_true_iff.mp apart).2

/-- What is legal in all of the parts, and only that, is legal in the whole. -/
def SharedBy (whole : Directions) (parts : List Directions) : Prop :=
  ∀ input, whole.contains input = true ↔ ∀ part ∈ parts, part.contains input = true

theorem intersect_sharedBy_iff : (d.intersect e).SharedBy [d, e] ↔ d.severed e = false := by
  simp only [SharedBy, contains_intersect, List.forall_mem_cons, List.not_mem_nil, false_imp_iff,
    implies_true, and_true]
  constructor
  · intro precise
    by_contra apart
    obtain ⟨input, one, two⟩ := exists_contains_of_severed (eq_true_of_ne_false apart)
    exact apart ((precise input).mpr ⟨one, two⟩).2.2
  · rintro whole input
    simp [whole]

/-- The intersection of three sets is exact if the third is not severed from what the first two come
to, and those are not severed from each other, or else nothing is legal in all three anyway. -/
theorem intersect_intersect_sharedBy_iff :
    ((d.intersect e).intersect f).SharedBy [d, e, f] ↔
      (d.intersect e).severed f = false ∧
        (d.severed e = true → ¬ ∃ input, ∀ part ∈ [d, e, f], part.contains input = true) := by
  simp only [SharedBy, contains_intersect, List.forall_mem_cons, List.not_mem_nil, false_imp_iff,
    implies_true, and_true]
  constructor
  · intro precise
    refine ⟨?_, ?_⟩
    · by_contra apart
      obtain ⟨input, within, three⟩ := exists_contains_of_severed (eq_true_of_ne_false apart)
      obtain ⟨one, two, -⟩ := contains_intersect.mp within
      exact apart ((precise input).mpr ⟨one, two, three⟩).2.2
    · rintro apart ⟨input, shared⟩
      obtain ⟨⟨-, -, whole⟩, -⟩ := (precise input).mpr shared
      exact absurd (apart.symm.trans whole) Bool.true_eq_false_eq_False
  · rintro ⟨whole, empty⟩ input
    constructor
    · rintro ⟨⟨one, two, -⟩, three, -⟩
      exact ⟨one, two, three⟩
    · intro shared
      have ⟨one, two, three⟩ := shared
      refine ⟨⟨one, two, ?_⟩, three, whole⟩
      by_contra apart
      exact empty (eq_true_of_ne_false apart) ⟨input, shared⟩

end Directions

namespace Agent

open Directions

variable {m : Type → Type}

/-- When the legal inputs of a composite are just those legal for all its parts. An intersection of two
sets is exact if and only if these are not types that have values in common and no common type, and so
are the legal inputs of parallel agents, at all their positions. Those of a branch are exact if and
only if this holds of the last step of the intersection, and of the first as well, unless no input is
legal for all the parts. -/
theorem legal_for_parts_iff_not_severed :
    (∀ d e : Directions, (d.intersect e).SharedBy [d, e] ↔ d.severed e = false) ∧
    (∀ left right both : Agent m, left.inParallel right = .ok both →
      ∀ p q, left.isPosition p = true → right.isPosition q = true →
        ((both.directions (.pair p q)).SharedBy [left.directions p, right.directions q] ↔
          (left.directions p).severed (right.directions q) = false)) ∧
    ∀ predicate onTrue onFalse whole : Agent m, predicate.branching onTrue onFalse = .ok whole →
      ∀ p q r, predicate.isPosition p = true → onTrue.isPosition q = true →
        onFalse.isPosition r = true →
          ((whole.directions (.triple p q r)).SharedBy
              [predicate.directions p, onTrue.directions q, onFalse.directions r] ↔
            ((predicate.directions p).intersect (onTrue.directions q)).severed
                (onFalse.directions r) = false ∧
              ((predicate.directions p).severed (onTrue.directions q) = true →
                ¬ ∃ input, ∀ part ∈ [predicate.directions p, onTrue.directions q,
                  onFalse.directions r], part.contains input = true)) := by
  refine ⟨fun d e => intersect_sharedBy_iff, ?_, ?_⟩
  · intro left right both made p q known known'
    obtain ⟨input, -, rfl⟩ := inParallel_eq_ok.mp made
    rw [directions_parallel known known']
    exact intersect_sharedBy_iff
  · intro predicate onTrue onFalse whole made p q r known known' known''
    obtain ⟨-, arms, -, input, -, output, -, rfl⟩ := branching_eq_ok.mp made
    rw [directions_branch known known' known'']
    exact intersect_intersect_sharedBy_iff

/-- An agent that declares to take anything, and takes only values of a type. -/
def picky (name : String) (type : ValueType) : Agent Id :=
  .primitive ⟨name, .untyped, .bool true⟩
    { positions := [.bool true]
      directions := fun _ => .typed type
      transition := fun position input => pure (position, input)
      nonempty := by simp
      distinct := by simp }

/-- Lists of numbers and pairs of numbers have no common type, so what takes the one beside what takes
the other takes nothing, not even a pair of numbers. A branch over both loses nothing where its third
part takes truth values only: nothing is of all three types. -/
theorem legal_for_parts_iff_not_severed_spans :
    let lists := picky "lists" (.list .number)
    let spans := picky "spans" (.pair .number .number)
    let flags := picky "flags" .bool
    let start := Value.bool true
    ∃ both chosen, lists.inParallel spans = .ok both ∧ lists.branching spans flags = .ok chosen ∧
      ¬ (both.directions (.pair start start)).SharedBy
        [.typed (.list .number), .typed (.pair .number .number)] ∧
      (chosen.directions (.triple start start start)).SharedBy
        [.typed (.list .number), .typed (.pair .number .number), .typed .bool] := by
  intro lists spans flags start
  have both : lists.inParallel spans = .ok _ := inParallel_eq_ok.mpr ⟨.any, rfl, rfl⟩
  have chosen : lists.branching spans flags = .ok _ :=
    branching_eq_ok.mpr ⟨rfl, .any, rfl, .any, rfl, .any, rfl, rfl⟩
  obtain ⟨-, beside, among⟩ := legal_for_parts_iff_not_severed (m := Id)
  refine ⟨_, _, both, chosen, ?_, ?_⟩
  · have lost := beside lists spans _ both start start rfl rfl
    exact mt lost.mp (by decide)
  · have kept := among lists spans flags _ chosen start start start rfl rfl rfl
    refine kept.mpr ⟨rfl, fun _ ⟨input, shared⟩ => ?_⟩
    simp only [List.forall_mem_cons] at shared
    obtain ⟨-, span, flag, -⟩ := shared
    exact absurd (ValueType.overlaps_of_admits span flag) (by decide)

end Agent

end AgentAlgebra

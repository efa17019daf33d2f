import AgentAlgebra.Fields
import Mathlib.Data.List.Sort
/-!
# Sets of names and families over them

A set of names is known by its members: two sets with the same members are the same data, in
whatever order they were put together. A family indexed by a set of names is known by what it gives
for each name, `Names.lookup`, and what was put last into a record of fields is what is found there.
-/

namespace AgentAlgebra

namespace Names

variable {α : Type} {s t : Names} {name : String}

theorem mem_def : name ∈ s ↔ name ∈ s.toList := Iff.rfl

theorem name_mem (i : Fin s.size) : s.name i ∈ s := List.get_mem s.toList i

theorem name_injective {i j : Fin s.size} (same : s.name i = s.name j) : i = j := by
  have distinct : s.toList.Nodup := s.sorted.imp String.ne_of_lt
  exact List.nodup_iff_injective_get.mp distinct same

/-- The place found for a name is the place that bears it. -/
theorem index?_eq_some {i : Fin s.size} : s.index? name = some i ↔ s.name i = name := by
  constructor
  · intro found
    exact (List.finIdxOf?_eq_some_iff.mp found).1
  · intro here
    refine List.finIdxOf?_eq_some_iff.mpr ⟨here, fun j before there => ?_⟩
    have same : j = i := name_injective (there.trans here.symm)
    exact absurd before (same ▸ Nat.lt_irrefl _)

@[simp]
theorem index?_name (i : Fin s.size) : s.index? (s.name i) = some i := index?_eq_some.mpr rfl

theorem index?_eq_none : s.index? name = none ↔ name ∉ s := List.finIdxOf?_eq_none_iff

/-- Sets with the same members are equal. -/
theorem ext_mem (same : ∀ name, name ∈ s ↔ name ∈ t) : s = t := by
  have lists : s.toList = t.toList :=
    have : Std.Irrefl (α := String) (· < ·) := ⟨String.lt_irrefl⟩
    have : Std.Antisymm (α := String) (· < ·) := ⟨fun _ _ below above =>
      absurd above (String.lt_asymm below)⟩
    s.sorted.eq_of_mem_iff t.sorted same
  cases s
  cases t
  cases lists
  rfl

/-- What a family indexed by a set of names gives for a name. -/
def lookup (names : Names) (family : Fin names.size → α) (name : String) : Option α :=
  (names.index? name).map family

variable {family : Fin s.size → α}

@[simp]
theorem lookup_name (i : Fin s.size) : s.lookup family (s.name i) = some (family i) := by
  simp [lookup]

theorem lookup_eq_none (family : Fin s.size → α) : s.lookup family name = none ↔ name ∉ s := by
  simp [lookup, index?_eq_none]

theorem lookup_eq_some {a : α} :
    s.lookup family name = some a ↔ ∃ i, s.name i = name ∧ family i = a := by
  simp [lookup, index?_eq_some]

theorem exists_lookup (family : Fin s.size → α) (mem : name ∈ s) :
    ∃ a, s.lookup family name = some a := by
  cases found : s.lookup family name with
  | none => exact absurd mem ((lookup_eq_none family).mp found)
  | some a => exact ⟨a, rfl⟩

theorem mem_of_lookup {a : α} (found : s.lookup family name = some a) : name ∈ s := by
  obtain ⟨i, rfl, -⟩ := lookup_eq_some.mp found
  exact name_mem i

/-- A function of names that is defined on just the members of a set is a family over it. -/
theorem exists_family (values : String → Option α)
    (defined : ∀ name, name ∈ s ↔ (values name).isSome) :
    ∃ family : Fin s.size → α, ∀ name, s.lookup family name = values name := by
  have given (i : Fin s.size) : (values (s.name i)).isSome := (defined _).mp (name_mem i)
  refine ⟨fun i => (values (s.name i)).get (given i), fun name => ?_⟩
  by_cases mem : name ∈ s
  · obtain ⟨i, rfl⟩ : ∃ i, s.name i = name := List.mem_iff_get.mp mem
    rw [lookup_name, Option.some_get]
  · have absent : values name = none := by
      rw [defined, Option.not_isSome_iff_eq_none] at mem
      exact mem
    rw [absent, lookup_eq_none]
    exact mem

end Names

namespace Fields

variable {α : Type}

theorem lookup_cons (name wanted : String) (value : α) (rest : List (String × α)) :
    ((name, value) :: rest).lookup wanted =
      if wanted = name then some value else rest.lookup wanted := by
  by_cases same : wanted = name
  · simp [same]
  · rw [List.lookup_cons, beq_false_of_ne same, if_neg same]

theorem lookup_insertEntry (name : String) (value : α) {entries : List (String × α)}
    (sorted : entries.Pairwise (·.1 < ·.1)) (wanted : String) :
    (insertEntry name value entries).lookup wanted =
      if wanted = name then some value else entries.lookup wanted := by
  induction entries with
  | nil => exact lookup_cons name wanted value []
  | cons head rest ih =>
    obtain ⟨other, held⟩ := head
    have later := ih (List.pairwise_cons.mp sorted).2
    simp only [insertEntry]
    split
    · rw [lookup_cons]
    · split
      · rename_i after
        rw [lookup_cons, later, lookup_cons]
        by_cases same : wanted = name
        · rw [if_neg (same ▸ (String.ne_of_lt after).symm), if_pos same, if_pos same]
        · rw [if_neg same, if_neg same]
      · rename_i notBefore notAfter
        have same : name = other :=
          String.le_antisymm (String.not_lt.mp notAfter) (String.not_lt.mp notBefore)
        subst same
        rw [lookup_cons, lookup_cons]
        by_cases same : wanted = name
        · rw [if_pos same, if_pos same]
        · rw [if_neg same, if_neg same, if_neg same]

/-- What was put in last under a name is what is found there. -/
@[simp]
theorem get?_insert (fields : Fields α) (name : String) (value : α) (wanted : String) :
    (fields.insert name value).get? wanted =
      if wanted = name then some value else fields.get? wanted :=
  lookup_insertEntry name value fields.sorted wanted

theorem lookup_eq_none_of_not_mem {entries : List (String × α)} {wanted : String}
    (absent : wanted ∉ entries.map (·.1)) : entries.lookup wanted = none := by
  rw [List.lookup_eq_none_iff]
  intro entry mem
  have other : wanted ≠ entry.1 := fun same => absent (same ▸ List.mem_map_of_mem mem)
  simpa using other

theorem get?_foldl_insert {entries : List (String × α)} (distinct : (entries.map (·.1)).Nodup)
    (fields : Fields α) (wanted : String) :
    (entries.foldl (fun fields entry => fields.insert entry.1 entry.2) fields).get? wanted =
      (entries.lookup wanted).or (fields.get? wanted) := by
  induction entries generalizing fields with
  | nil => rfl
  | cons entry rest ih =>
    obtain ⟨name, value⟩ := entry
    rw [List.map_cons, List.nodup_cons] at distinct
    rw [List.foldl_cons, ih distinct.2, get?_insert, lookup_cons]
    by_cases same : wanted = name
    · subst same
      rw [lookup_eq_none_of_not_mem distinct.1]
      simp
    · simp [same]

theorem lookup_of_mem {entries : List (String × α)} (distinct : (entries.map (·.1)).Nodup)
    {name : String} {value : α} (mem : (name, value) ∈ entries) :
    entries.lookup name = some value := by
  induction entries with
  | nil => exact nomatch mem
  | cons first rest ih =>
    rw [List.map_cons, List.nodup_cons] at distinct
    rcases List.mem_cons.mp mem with rfl | later
    · rw [lookup_cons, if_pos rfl]
    · have other : name ≠ first.1 := fun same => distinct.1 (same ▸ List.mem_map_of_mem later)
      rw [lookup_cons, if_neg other]
      exact ih distinct.2 later

/-- Fields listed under different names are found as listed. -/
theorem get?_ofList {entries : List (String × α)} (distinct : (entries.map (·.1)).Nodup)
    (wanted : String) : (ofList entries).get? wanted = entries.lookup wanted := by
  rw [ofList, get?_foldl_insert distinct]
  exact Option.or_none

theorem mem_names {fields : Fields α} {name : String} :
    name ∈ fields.names ↔ ∃ value, fields.get? name = some value := by
  have inside : name ∈ fields.names ↔ (fields.entries.lookup name).isSome := by
    rw [List.lookup_isSome_iff, Names.mem_def, names, List.mem_map]
    simp only [beq_iff_eq, @eq_comm _ name]
  rw [inside, Option.isSome_iff_exists]
  rfl

theorem get?_name (fields : Fields α) (i : Fin fields.names.size) :
    fields.get? (fields.names.name i) = some (fields.values.get i) := by
  have bound : i.val < fields.entries.length := lt_of_lt_of_eq i.isLt fields.size_names
  have entry : fields.entries[i.val] = (fields.names.name i, fields.values.get i) := by
    apply Prod.ext
    · exact (List.getElem_map Prod.fst).symm
    · simp only [values, Vector.get, List.getElem_toArray, List.getElem_map]
      rfl
  refine List.lookup_eq_some_iff.mpr
    ⟨fields.entries.take i, fields.entries.drop (i + 1), ?_, fun before mem => ?_⟩
  · rw [← entry]
    simp
  · obtain ⟨j, earlier, rfl⟩ := List.mem_take_iff_getElem.mp mem
    have below : (fields.entries[j]).1 < (fields.entries[i.val]).1 :=
      List.pairwise_iff_getElem.mp fields.sorted j i.val (by omega) bound (by omega)
    rw [entry] at below
    simpa using (String.ne_of_lt below).symm

/-- The fields as a family over their names. -/
theorem lookup_names (fields : Fields α) (name : String) :
    fields.names.lookup fields.values.get name = fields.get? name := by
  cases found : fields.names.lookup fields.values.get name with
  | none =>
    have absent := (Names.lookup_eq_none _).mp found
    rw [mem_names] at absent
    cases held : fields.get? name with
    | none => rfl
    | some value => exact absurd ⟨value, held⟩ absent
  | some value =>
    obtain ⟨i, rfl, rfl⟩ := Names.lookup_eq_some.mp found
    exact (get?_name fields i).symm

end Fields

namespace Names

variable {s t : Names} {name : String}

theorem mem_foldl_insert (names : List String) (fields : Fields Unit) :
    name ∈ ((names.map (·, ())).foldl (fun fields entry => fields.insert entry.1 entry.2)
        fields).names ↔ name ∈ names ∨ name ∈ fields.names := by
  induction names generalizing fields with
  | nil => simp
  | cons head rest ih =>
    rw [List.map_cons, List.foldl_cons, ih, Fields.mem_names, Fields.mem_names]
    by_cases same : name = head <;> simp [same]

@[simp]
theorem mem_ofList {names : List String} : name ∈ ofList names ↔ name ∈ names := by
  rw [ofList, Fields.ofList, mem_foldl_insert]
  simp [mem_def, Fields.names, Fields.empty]

@[simp]
theorem mem_union : name ∈ s.union t ↔ name ∈ s ∨ name ∈ t := by
  simp [union, mem_def (s := s), mem_def (s := t)]

end Names

end AgentAlgebra

/-!
# Sets of names and named fields

`Names` is a finite set of texts, kept in increasing order; `Fields α` gives a value to each name of
such a set. Both carry their order as a proof, so equal sets are equal data: the order in which their
members were put in leaves no trace.
-/

namespace AgentAlgebra

/-- A finite set of names, listed in increasing order. -/
structure Names where
  toList : List String
  sorted : toList.Pairwise (· < ·)
deriving DecidableEq

namespace Names

/-- How many names there are. -/
def size (s : Names) : Nat := s.toList.length

/-- The name at a place in increasing order. -/
def name (s : Names) (i : Fin s.size) : String := s.toList.get i

/-- The place of a name, if it is one of the set. -/
def index? (s : Names) (name : String) : Option (Fin s.size) := s.toList.finIdxOf? name

instance : Membership String Names := ⟨fun s name => name ∈ s.toList⟩

instance (name : String) (s : Names) : Decidable (name ∈ s) :=
  inferInstanceAs (Decidable (name ∈ s.toList))

end Names

/-- A value for each of finitely many names, listed in increasing order of the names. -/
structure Fields (α : Type) where
  entries : List (String × α)
  sorted : entries.Pairwise (·.1 < ·.1)

namespace Fields

variable {α β : Type}

/-- No fields. -/
def empty : Fields α := ⟨[], .nil⟩

instance : Inhabited (Fields α) := ⟨empty⟩

/-- Put one field in its place, taking the place of a field of the same name. -/
def insertEntry (name : String) (value : α) : List (String × α) → List (String × α)
  | [] => [(name, value)]
  | (other, held) :: rest =>
    if name < other then (name, value) :: (other, held) :: rest
    else if other < name then (other, held) :: insertEntry name value rest
    else (name, value) :: rest

theorem mem_insertEntry {name : String} {value : α} {entries : List (String × α)}
    {entry : String × α} (h : entry ∈ insertEntry name value entries) :
    entry = (name, value) ∨ entry ∈ entries := by
  induction entries with
  | nil => exact .inl (by simpa [insertEntry] using h)
  | cons head rest ih =>
    simp only [insertEntry] at h
    split at h
    · simpa using h
    · split at h
      · rcases List.mem_cons.mp h with h | h
        · exact .inr (h ▸ List.mem_cons_self)
        · exact (ih h).imp id (List.mem_cons_of_mem _)
      · rcases List.mem_cons.mp h with h | h
        · exact .inl h
        · exact .inr (List.mem_cons_of_mem _ h)

theorem sorted_insertEntry (name : String) (value : α) {entries : List (String × α)}
    (h : entries.Pairwise (·.1 < ·.1)) : (insertEntry name value entries).Pairwise (·.1 < ·.1) := by
  induction entries with
  | nil => simp [insertEntry]
  | cons head rest ih =>
    obtain ⟨other, held⟩ := head
    obtain ⟨below, later⟩ := List.pairwise_cons.mp h
    simp only [insertEntry]
    split
    · rename_i before
      refine List.pairwise_cons.mpr ⟨fun entry mem => ?_, h⟩
      rcases List.mem_cons.mp mem with rfl | mem
      · exact before
      · exact String.lt_trans before (below entry mem)
    · split
      · rename_i after
        refine List.pairwise_cons.mpr ⟨fun entry mem => ?_, ih later⟩
        rcases mem_insertEntry mem with rfl | mem
        · exact after
        · exact below entry mem
      · rename_i notBefore notAfter
        have same : name = other :=
          String.le_antisymm (String.not_lt.mp notAfter) (String.not_lt.mp notBefore)
        exact List.pairwise_cons.mpr ⟨fun entry mem => same ▸ below entry mem, later⟩

/-- Give `name` the value `value`, whether or not it had one. -/
def insert (fields : Fields α) (name : String) (value : α) : Fields α :=
  ⟨insertEntry name value fields.entries, sorted_insertEntry name value fields.sorted⟩

/-- The fields of a list; of two entries with one name the later holds. -/
def ofList (entries : List (String × α)) : Fields α :=
  entries.foldl (fun fields entry => fields.insert entry.1 entry.2) empty

/-- The value of a field, if there is such a field. -/
def get? (fields : Fields α) (name : String) : Option α := fields.entries.lookup name

/-- The names of the fields. -/
def names (fields : Fields α) : Names :=
  ⟨fields.entries.map (·.1), List.pairwise_map.mpr fields.sorted⟩

theorem size_names (fields : Fields α) : fields.names.size = fields.entries.length := by
  simp [names, Names.size]

/-- The values, in increasing order of their names. -/
def values (fields : Fields α) : Vector α fields.names.size :=
  ⟨(fields.entries.map (·.2)).toArray, by simp [size_names]⟩

/-- Apply a function to every value. -/
def map (f : α → β) (fields : Fields α) : Fields β :=
  ⟨fields.entries.map fun entry => (entry.1, f entry.2), List.pairwise_map.mpr fields.sorted⟩

/-- The fields that a family indexed by the places of a set of names gives. -/
def ofFamily (names : Names) (family : Fin names.size → α) : Fields α where
  entries := List.ofFn fun i => (names.name i, family i)
  sorted := by
    rw [List.pairwise_iff_getElem]
    intro i j hi hj before
    simp only [List.getElem_ofFn, Names.name]
    exact List.pairwise_iff_getElem.mp names.sorted i j _ _ before

end Fields

/-- A family worked out once for all its places is the same family. -/
theorem get_ofFn {α : Type} {n : Nat} (family : Fin n → α) : (Vector.ofFn family).get = family := by
  funext i
  exact Vector.getElem_ofFn i.isLt

namespace Names

/-- The names of a list. -/
def ofList (names : List String) : Names := (Fields.ofList (names.map (·, ()))).names

/-- The names of either set. -/
def union (s t : Names) : Names := ofList (s.toList ++ t.toList)

end Names

end AgentAlgebra

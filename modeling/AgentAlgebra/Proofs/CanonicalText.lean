import AgentAlgebra.Proofs.Names
import AgentAlgebra.Proofs.NumberTexts
import AgentAlgebra.Value.Reader
import Mathlib.Data.List.OfFn
/-!
# Reading a value off its canonical text

Different values have different canonical texts, and the order in which the fields of an object were
put in is not seen in its text. The first character of a text tells the sort of the value, and each
part shows where it ends: a quoted text by its closing quote, a number by the comma or the bracket
behind it, an array or an object by its own closing bracket.
-/

namespace AgentAlgebra

namespace Reader

variable {rest text after : List Char}

/-- A control character is read back from its code. -/
theorem digits?_code {n : Nat} (control : n < 0x20) :
    digits? 16 ['0', '0', Nat.digitChar (n / 16), Nat.digitChar (n % 16)] = some n := by
  revert n
  decide

/-- A character is read back from how it stands in a quoted text. -/
theorem quoted?_escapeChar (c : Char) (behind : quoted? rest = some (text, after)) :
    quoted? (escapeChar c ++ rest) = some (c :: text, after) := by
  unfold escapeChar
  iterate 7
    split
    · rename_i same
      subst same
      simp [quoted?, shortEscape?, behind]
  split
  · rename_i control
    have code := digits?_code control
    have high : isHighSurrogate c.toNat = false := by
      simp [isHighSurrogate]
      omega
    have low : isLowSurrogate c.toNat = false := by
      simp [isLowSurrogate]
      omega
    simp [quoted?, code, high, low, behind]
  · rename_i mark escape _ _ _ _ _ plain
    rw [List.singleton_append, quoted?]
    · simp [escape, plain, behind]
    · simpa using mark
    · exact fun _ _ _ _ _ same => absurd same escape
    · exact fun _ _ same => absurd same escape

/-- A quoted text is read back up to its closing quote. -/
theorem quoted?_flatMap (cs rest : List Char) :
    quoted? (cs.flatMap escapeChar ++ '"' :: rest) = some (cs, rest) := by
  induction cs with
  | nil => rfl
  | cons c cs ih =>
    rw [List.flatMap_cons, List.append_assoc]
    exact quoted?_escapeChar c ih

end Reader

theorem quote_append_inj {s s' : String} {rest rest' : List Char}
    (same : quote s ++ rest = quote s' ++ rest') : s = s' ∧ rest = rest' := by
  have inside : s.toList.flatMap escapeChar ++ '"' :: rest =
      s'.toList.flatMap escapeChar ++ '"' :: rest' := by
    simpa [quote] using same
  have read := Reader.quoted?_flatMap s.toList rest
  rw [inside, Reader.quoted?_flatMap] at read
  obtain ⟨chars, behind⟩ := Prod.mk.inj (Option.some.inj read)
  exact ⟨(String.toList_inj.mp chars).symm, behind.symm⟩

namespace Value

/-! ## What stands behind a value -/

/-- The characters that stand behind a part of a value. -/
def closers : List Char := [',', ']', '\x7d']

/-- What may stand behind a value: nothing, or a comma or a closing bracket. -/
def Stops (rest : List Char) : Prop := ∀ c ∈ rest.head?, c ∈ closers

theorem stops_nil : Stops [] := nofun

theorem stops_cons {c : Char} (closer : c ∈ closers) (rest : List Char) : Stops (c :: rest) := by
  rintro _ ⟨⟩
  exact closer

/-- The part behind which the text stops, where one of two parts must end. -/
theorem append_inj_of_stops {front front' back back' : List Char}
    (free : ∀ c ∈ front, c ∉ closers) (free' : ∀ c ∈ front', c ∉ closers) (stops : Stops back)
    (stops' : Stops back') (same : front ++ back = front' ++ back') :
    front = front' ∧ back = back' := by
  have part {front back : List Char} (free : ∀ c ∈ front, c ∉ closers) (stops : Stops back) :=
    parted (p := (· ∉ closers)) (fun c mem => decide_eq_true (free c mem))
      (fun c first => decide_eq_false (not_not_intro (stops c first)))
  obtain ⟨before, behind⟩ := part free stops
  obtain ⟨before', behind'⟩ := part free' stops'
  rw [same] at before behind
  exact ⟨before.symm.trans before', behind.symm.trans behind'⟩

theorem separated_cons_append (text : List Char) (texts : List (List Char)) (rest : List Char) :
    separated [','] (text :: texts) ++ rest =
      text ++ ((if texts = [] then [] else ',' :: separated [','] texts) ++ rest) := by
  cases texts with
  | nil => rfl
  | cons next later => simp [separated]

theorem stops_tail {close : Char} (closer : close ∈ closers) (texts : List (List Char))
    (rest : List Char) :
    Stops ((if texts = [] then [] else ',' :: separated [','] texts) ++ close :: rest) := by
  split
  · exact stops_cons closer rest
  · exact stops_cons (by decide) _

/-- A part that does not start with a closing character is not taken for the closing bracket. -/
theorem close_ne_append {close : Char} (closer : close ∈ closers) {text tail rest : List Char}
    (begun : ¬ Stops text) : close :: rest ≠ text ++ tail := by
  intro same
  cases text with
  | nil => exact begun stops_nil
  | cons c text =>
    obtain rfl := (List.cons.inj same).1
    exact begun (stops_cons closer text)

/-- Two lists of parts that are told apart one by one are told apart as they are written, up to the
bracket behind the last. -/
theorem separated_append_inj {close : Char} {texts texts' : List (List Char)} {rest rest' : List Char}
    (closer : close ∈ closers) (other : close ≠ ',')
    (apart : ∀ text ∈ texts, ∀ text' ∈ texts', ∀ rest rest', Stops rest → Stops rest' →
      text ++ rest = text' ++ rest' → text = text')
    (begun : ∀ text ∈ texts, ¬ Stops text) (begun' : ∀ text ∈ texts', ¬ Stops text)
    (same : separated [','] texts ++ close :: rest = separated [','] texts' ++ close :: rest') :
    texts = texts' ∧ rest = rest' := by
  induction texts generalizing texts' with
  | nil =>
    cases texts' with
    | nil => exact ⟨rfl, (List.cons.inj same).2⟩
    | cons text' others' =>
      rw [separated_cons_append] at same
      exact absurd same (close_ne_append closer (begun' text' List.mem_cons_self))
  | cons text others ih =>
    rw [separated_cons_append] at same
    cases texts' with
    | nil => exact absurd same.symm (close_ne_append closer (begun text List.mem_cons_self))
    | cons text' others' =>
      rw [separated_cons_append] at same
      obtain rfl := apart text List.mem_cons_self text' List.mem_cons_self _ _
        (stops_tail closer others rest) (stops_tail closer others' rest') same
      have same := List.append_cancel_left same
      cases others with
      | nil =>
        cases others' with
        | nil => exact ⟨rfl, (List.cons.inj same).2⟩
        | cons next' later' => exact absurd (List.cons.inj same).1 other
      | cons next later =>
        cases others' with
        | nil => exact absurd (List.cons.inj same).1.symm other
        | cons next' later' =>
          obtain ⟨texts, rest⟩ := ih
            (fun one mem one' mem' => apart one (List.mem_cons_of_mem _ mem) one'
              (List.mem_cons_of_mem _ mem'))
            (fun one mem => begun one (List.mem_cons_of_mem _ mem))
            (fun one mem => begun' one (List.mem_cons_of_mem _ mem)) (List.cons.inj same).2
          exact ⟨congrArg (text :: ·) texts, rest⟩

theorem getElem_of_ofFn {α : Type} {n m : Nat} {f : Fin n → α} {g : Fin m → α}
    (same : List.ofFn f = List.ofFn g) : ∃ sizes : n = m, ∀ i, f i = g (i.cast sizes) := by
  have sizes : n = m := by simpa using congrArg List.length same
  subst sizes
  exact ⟨rfl, fun i => congrFun (List.ofFn_inj.mp same) i⟩

/-- Two families of parts that are told apart one by one are told apart as they are written. -/
theorem ofFn_append_inj {close : Char} {size size' : Nat} {part : Fin size → List Char}
    {part' : Fin size' → List Char} {rest rest' : List Char} (closer : close ∈ closers)
    (other : close ≠ ',')
    (apart : ∀ i j rest rest', Stops rest → Stops rest' → part i ++ rest = part' j ++ rest' →
      part i = part' j)
    (begun : ∀ i, ¬ Stops (part i)) (begun' : ∀ i, ¬ Stops (part' i))
    (same : separated [','] (List.ofFn part) ++ close :: rest =
      separated [','] (List.ofFn part') ++ close :: rest') :
    (∃ sizes : size = size', ∀ i, part i = part' (i.cast sizes)) ∧ rest = rest' := by
  have apart : ∀ text ∈ List.ofFn part, ∀ text' ∈ List.ofFn part', ∀ rest rest', Stops rest →
      Stops rest' → text ++ rest = text' ++ rest' → text = text' := by
    simpa only [List.forall_mem_ofFn_iff] using apart
  obtain ⟨texts, rests⟩ := separated_append_inj closer other apart
    (List.forall_mem_ofFn_iff.mpr begun) (List.forall_mem_ofFn_iff.mpr begun') same
  exact ⟨getElem_of_ofFn texts, rests⟩

/-! ## What a value starts with -/

/-- The sorts of values that their first characters tell apart. -/
inductive Kind where
  | null
  | bool
  | number
  | text
  | array
  | object

def kind : Value → Kind
  | .null => .null
  | .bool _ => .bool
  | .number _ => .number
  | .text _ => .text
  | .array _ _ => .array
  | .object _ _ => .object

/-- The sort of value that a character starts, if it starts any. -/
def Kind.ofChar? : Char → Option Kind
  | ',' => none
  | ']' => none
  | '\x7d' => none
  | 'n' => some .null
  | 't' => some .bool
  | 'f' => some .bool
  | '"' => some .text
  | '[' => some .array
  | '\x7b' => some .object
  | _ => some .number

theorem Kind.ofChar?_of_isDigit {c : Char} (digit : c.isDigit = true) :
    ofChar? c = some .number := by
  unfold ofChar?
  split
  all_goals first | rfl | exact absurd digit (by decide)

theorem Kind.ofChar?_of_closer {c : Char} (closer : c ∈ closers) : ofChar? c = none := by
  simp only [closers, List.mem_cons, List.not_mem_nil, or_false] at closer
  rcases closer with rfl | rfl | rfl
  all_goals rfl

/-- The first character of a value's text tells its sort. -/
theorem head_chars (value : Value) :
    ∃ c text, value.chars = c :: text ∧ Kind.ofChar? c = some value.kind := by
  cases value with
  | null => exact ⟨_, _, rfl, rfl⟩
  | bool b => cases b <;> exact ⟨_, _, rfl, rfl⟩
  | number n =>
    obtain ⟨c, text, shown⟩ := List.exists_cons_of_ne_nil n.text_ne_nil
    refine ⟨c, text, shown, ?_⟩
    have mem : c ∈ n.text := shown ▸ List.mem_cons_self
    rcases Number.mem_text mem with digit | sign
    · exact Kind.ofChar?_of_isDigit digit
    · simp only [List.mem_cons, List.not_mem_nil, or_false] at sign
      rcases sign with rfl | rfl | rfl | rfl
      all_goals rfl
  | text s => exact ⟨_, _, rfl, rfl⟩
  | array size item => exact ⟨_, _, rfl, rfl⟩
  | object names field => exact ⟨_, _, rfl, rfl⟩

theorem not_stops_chars (value : Value) : ¬ Stops value.chars := by
  intro stops
  obtain ⟨c, text, shown, kind⟩ := value.head_chars
  have closer : c ∈ closers := stops c (by simp [shown])
  rw [Kind.ofChar?_of_closer closer] at kind
  exact nomatch kind

theorem kind_eq_of_chars {value value' : Value} {rest rest' : List Char}
    (same : value.chars ++ rest = value'.chars ++ rest') : value.kind = value'.kind := by
  obtain ⟨c, text, shown, kind⟩ := value.head_chars
  obtain ⟨c', text', shown', kind'⟩ := value'.head_chars
  rw [shown, shown'] at same
  obtain rfl : c = c' := (List.cons.inj same).1
  exact Option.some.inj (kind.symm.trans kind')

/-! ## The value of a text -/

theorem not_closer_of_mem_text {n : Number} {c : Char} (mem : c ∈ n.text) : c ∉ closers := by
  intro closer
  simp only [closers, List.mem_cons, List.not_mem_nil, or_false] at closer
  rcases closer with rfl | rfl | rfl
  all_goals exact absurd (Number.mem_text mem) (by decide)

/-- One field as it is written. -/
def fieldText (name : String) (value : Value) : List Char := quote name ++ ':' :: value.chars

theorem not_stops_fieldText (name : String) (value : Value) : ¬ Stops (fieldText name value) := by
  intro stops
  exact absurd (stops '"' rfl) (by decide)

theorem chars_array_append (size : Nat) (item : Fin size → Value) (rest : List Char) :
    (array size item).chars ++ rest =
      '[' :: (separated [','] (List.ofFn fun i => (item i).chars) ++ ']' :: rest) := by
  simp [chars]

theorem chars_object_append (names : Names) (field : Fin names.size → Value) (rest : List Char) :
    (object names field).chars ++ rest =
      '\x7b' :: (separated [','] (List.ofFn fun i => fieldText (names.name i) (field i)) ++
        '\x7d' :: rest) := by
  simp [chars, fieldText]

/-- A value is told from another by how they are written, up to where a value may end. -/
def Told (value value' : Value) : Prop :=
  ∀ rest rest', Stops rest → Stops rest' → value.chars ++ rest = value'.chars ++ rest' →
    value = value' ∧ rest = rest'

section

variable {value value' : Value}

theorem Told.eq (told : Told value value') (same : value.chars = value'.chars) : value = value' :=
  (told [] [] stops_nil stops_nil (congrArg (· ++ []) same)).1

theorem told_of_kind (told : value.kind = value'.kind → Told value value') : Told value value' :=
  fun rest rest' stops stops' same => told (kind_eq_of_chars same) rest rest' stops stops' same

end

theorem told_array {size size' : Nat} {item : Fin size → Value} {item' : Fin size' → Value}
    (told : ∀ i j, Told (item i) (item' j)) : Told (array size item) (array size' item') := by
  intro rest rest' stops stops' same
  rw [chars_array_append, chars_array_append] at same
  obtain ⟨⟨sizes, each⟩, rests⟩ := ofFn_append_inj (by decide) (by decide)
    (fun i j rest rest' stops stops' alike =>
      congrArg chars (told i j rest rest' stops stops' alike).1)
    (fun i => not_stops_chars _) (fun i => not_stops_chars _) (List.cons.inj same).2
  subst sizes
  exact ⟨congrArg (array size) (funext fun i => (told i i).eq (each i)), rests⟩

theorem fieldText_append_inj {name name' : String} {value value' : Value} (told : Told value value')
    {rest rest' : List Char} (stops : Stops rest) (stops' : Stops rest')
    (same : fieldText name value ++ rest = fieldText name' value' ++ rest') :
    name = name' ∧ value = value' := by
  rw [fieldText, fieldText, List.append_assoc, List.append_assoc] at same
  obtain ⟨names, behind⟩ := quote_append_inj same
  exact ⟨names, (told rest rest' stops stops' (List.cons.inj behind).2).1⟩

theorem told_object {names names' : Names} {field : Fin names.size → Value}
    {field' : Fin names'.size → Value} (told : ∀ i j, Told (field i) (field' j)) :
    Told (object names field) (object names' field') := by
  intro rest rest' stops stops' same
  rw [chars_object_append, chars_object_append] at same
  obtain ⟨⟨sizes, each⟩, rests⟩ := ofFn_append_inj (by decide) (by decide)
    (fun i j rest rest' stops stops' alike => by
      obtain ⟨same, values⟩ := fieldText_append_inj (told i j) stops stops' alike
      exact congrArg₂ fieldText same values)
    (fun i => not_stops_fieldText _ _) (fun i => not_stops_fieldText _ _) (List.cons.inj same).2
  have fields (i : Fin names.size) : names.name i = names'.name (i.cast sizes) ∧
      field i = field' (i.cast sizes) :=
    fieldText_append_inj (told i (i.cast sizes)) stops_nil stops_nil (congrArg (· ++ []) (each i))
  have sets : names = names' := by
    have lists : names.toList = names'.toList :=
      List.ext_getElem sizes fun i bound _ => (fields ⟨i, bound⟩).1
    cases names
    cases names'
    cases lists
    rfl
  subst sets
  exact ⟨congrArg (object names) (funext fun i => (fields i).2), rests⟩

/-- Every value is told from every other. The induction is on the first, and tells each of its parts
from each part of the second. -/
theorem told (value value' : Value) : Told value value' := by
  refine told_of_kind fun kinds => ?_
  induction value generalizing value' with
  | null =>
    cases value' with
    | null => exact fun _ _ _ _ same => ⟨rfl, List.append_cancel_left same⟩
    | _ => exact nomatch kinds
  | bool b =>
    cases value' with
    | bool b' =>
      intro rest rest' _ _ same
      cases b <;> cases b' <;> simp_all [chars]
    | _ => exact nomatch kinds
  | number n =>
    cases value' with
    | number n' =>
      intro rest rest' stops stops' same
      obtain ⟨texts, rests⟩ := append_inj_of_stops (fun _ => not_closer_of_mem_text)
        (fun _ => not_closer_of_mem_text) stops stops' same
      exact ⟨congrArg number (Number.text_injective texts), rests⟩
    | _ => exact nomatch kinds
  | text s =>
    cases value' with
    | text s' =>
      intro rest rest' _ _ same
      obtain ⟨texts, rests⟩ := quote_append_inj same
      exact ⟨congrArg text texts, rests⟩
    | _ => exact nomatch kinds
  | array size item ih =>
    cases value' with
    | array size' item' => exact told_array fun i j => told_of_kind (ih i (item' j))
    | _ => exact nomatch kinds
  | object names field ih =>
    cases value' with
    | object names' field' => exact told_object fun i j => told_of_kind (ih i (field' j))
    | _ => exact nomatch kinds

/-- Values with one canonical text are one value. -/
theorem canonicalText_inj {value value' : Value} :
    value.canonicalText = value'.canonicalText ↔ value = value' := by
  constructor
  · intro same
    exact (told value value').eq (String.ofList_inj.mp same)
  · intro same
    rw [same]

/-! ## The order of fields -/

/-- Objects with the same value for each name are one object. -/
theorem object_eq_object {names names' : Names} {field : Fin names.size → Value}
    {field' : Fin names'.size → Value} :
    object names field = object names' field' ↔
      ∀ name, names.lookup field name = names'.lookup field' name := by
  constructor
  · rintro ⟨⟩ name
    rfl
  · intro same
    have sets : names = names' := by
      refine Names.ext_mem fun name => ?_
      rw [← not_iff_not, ← Names.lookup_eq_none field, same, Names.lookup_eq_none]
    subst sets
    refine congrArg (object names) (funext fun i => ?_)
    have here := same (names.name i)
    rw [Names.lookup_name, Names.lookup_name] at here
    exact Option.some.inj here

end Value

namespace Fields

variable {α : Type}

/-- What was listed last under a name is what is found there. -/
theorem get?_ofList_reverse (entries : List (String × α)) (name : String) :
    (ofList entries).get? name = entries.reverse.lookup name := by
  have put (fields : Fields α) :
      (entries.foldl (fun fields entry => fields.insert entry.1 entry.2) fields).get? name =
        (entries.reverse.lookup name).or (fields.get? name) := by
    induction entries generalizing fields with
    | nil => rfl
    | cons entry rest ih =>
      obtain ⟨other, value⟩ := entry
      rw [List.foldl_cons, ih, get?_insert, List.reverse_cons, List.lookup_append, lookup_cons]
      by_cases same : name = other
      · simp [same]
      · simp [same]
  rw [ofList, put]
  exact Option.or_none

end Fields

/-- Objects put together from two lists of fields are one where the lists end with the same value
under each name, whatever the order. -/
theorem Value.record_eq_record {entries entries' : List (String × Value)} :
    record entries = record entries' ↔
      ∀ name, entries.reverse.lookup name = entries'.reverse.lookup name := by
  unfold record ofFields
  rw [object_eq_object]
  simp only [Fields.lookup_names, Fields.get?_ofList_reverse]

end AgentAlgebra

import AgentAlgebra.Proofs.Rounding
import AgentAlgebra.Value.Printer
import Mathlib.Data.List.TakeWhile
/-!
# The texts of numbers

A number is known by its text. An integer is written as digits alone, a double always with a point or
an exponent. Its digits are read back, whatever its layout, as its shortest decimal.
-/

namespace AgentAlgebra

/-! ## Digits -/

/-- All characters are digits. -/
def Digits (text : List Char) : Prop := ∀ c ∈ text, c.isDigit = true

theorem digits_digitsOf (n : Nat) : Digits (digitsOf n) := fun _ mem =>
  Nat.isDigit_of_mem_toDigits (by decide) (by decide) mem

theorem digits_replicate (n : Nat) : Digits (List.replicate n '0') := by
  intro c mem
  rw [List.eq_of_mem_replicate mem]
  rfl

theorem Digits.append {text more : List Char} (digits : Digits text) (others : Digits more) :
    Digits (text ++ more) := by
  intro c mem
  rcases List.mem_append.mp mem with mem | mem
  · exact digits c mem
  · exact others c mem

theorem ne_of_isDigit {c sign : Char} (digit : c.isDigit = true) (other : sign.isDigit = false) :
    c ≠ sign := by
  rintro rfl
  exact Bool.false_ne_true (other.symm.trans digit)

theorem digitsOf_ne_nil (n : Nat) : digitsOf n ≠ [] := Nat.toDigits_ne_nil

theorem ofDigitChars_digitsOf (n : Nat) : Nat.ofDigitChars 10 (digitsOf n) 0 = n :=
  Nat.ofDigitChars_ten_toDigits

/-- A text is parted where the characters of one sort end. -/
theorem parted {p : Char → Bool} {front back : List Char} (inside : ∀ c ∈ front, p c = true)
    (ends : ∀ c ∈ back.head?, p c = false) :
    (front ++ back).takeWhile p = front ∧ (front ++ back).dropWhile p = back := by
  rw [List.takeWhile_append_of_pos inside, List.dropWhile_append_of_pos inside]
  cases back with
  | nil => simp
  | cons first rest =>
    have first : p first = false := ends first rfl
    simp [first]

/-! ## Layouts -/

/-- What stands behind the digits where an exponent is written. -/
def powerText (power : Int) : List Char :=
  (if power < 0 then "e-" else "e+").toList ++ digitsOf power.natAbs

/-- A number as it is laid out: digits, then a point with digits or an exponent or both. -/
structure Layout where
  whole : List Char
  fraction : List Char
  power : Option Int
  filled : whole ≠ []
  digits : Digits whole
  others : Digits fraction
  more : fraction ≠ [] ∨ power.isSome

/-- The power of ten that a text names behind its digits: `e`, a sign, and its digits. -/
def Decimal.readPower : List Char → Int
  | 'e' :: '-' :: digits => -(Nat.ofDigitChars 10 digits 0)
  | 'e' :: '+' :: digits => Nat.ofDigitChars 10 digits 0
  | _ => 0

/-- The decimal that a text shows: digits, a point among them or not, and a power of ten or not. -/
def Decimal.ofText (text : List Char) : Decimal :=
  let mantissa := text.takeWhile (· != 'e')
  let whole := mantissa.takeWhile (· != '.')
  let fraction := (mantissa.dropWhile (· != '.')).tail
  ⟨Nat.ofDigitChars 10 (whole ++ fraction) 0,
    readPower (text.dropWhile (· != 'e')) - fraction.length⟩

open Decimal

theorem readPower_powerText (power : Int) : readPower (powerText power) = power := by
  have size := ofDigitChars_digitsOf power.natAbs
  unfold powerText
  by_cases negative : power < 0
  · rw [if_pos negative]
    change -((Nat.ofDigitChars 10 (digitsOf power.natAbs) 0 : Nat) : Int) = power
    omega
  · rw [if_neg negative]
    change ((Nat.ofDigitChars 10 (digitsOf power.natAbs) 0 : Nat) : Int) = power
    omega

namespace Layout

/-- The digits before the exponent, parted by the point if there are digits behind it. -/
def mantissa (layout : Layout) : List Char :=
  layout.whole ++ if layout.fraction = [] then [] else '.' :: layout.fraction

/-- The exponent, if one is written. -/
def exponent (layout : Layout) : List Char := layout.power.elim [] powerText

def text (layout : Layout) : List Char := layout.mantissa ++ layout.exponent

/-- The decimal that is laid out. -/
def decimal (layout : Layout) : Decimal :=
  ⟨Nat.ofDigitChars 10 (layout.whole ++ layout.fraction) 0,
    layout.power.getD 0 - layout.fraction.length⟩

variable (layout : Layout)

theorem mem_mantissa {c : Char} (mem : c ∈ layout.mantissa) : c.isDigit = true ∨ c = '.' := by
  unfold mantissa at mem
  rcases List.mem_append.mp mem with mem | mem
  · exact .inl (layout.digits c mem)
  · split at mem
    · exact nomatch mem
    · rcases List.mem_cons.mp mem with rfl | mem
      · exact .inr rfl
      · exact .inl (layout.others c mem)

theorem readPower_exponent : readPower layout.exponent = layout.power.getD 0 := by
  unfold exponent
  cases layout.power with
  | none => rfl
  | some power => exact readPower_powerText power

theorem head_exponent : ∀ c ∈ layout.exponent.head?, (c != 'e') = false := by
  unfold exponent
  cases layout.power with
  | none => simp
  | some power =>
    intro c first
    simp only [Option.elim, powerText] at first
    split at first <;> simpa using first.symm

/-- The decimal is read back from the text. -/
theorem ofText_text : ofText layout.text = layout.decimal := by
  have free : ∀ c ∈ layout.mantissa, (c != 'e') = true := by
    intro c mem
    rcases layout.mem_mantissa mem with digit | rfl
    · simpa using ne_of_isDigit digit rfl
    · rfl
  obtain ⟨front, behind⟩ := parted free layout.head_exponent
  have pointless : ∀ c ∈ layout.whole, (c != '.') = true := by
    intro c mem
    simpa using ne_of_isDigit (layout.digits c mem) rfl
  have point : ∀ c ∈ (if layout.fraction = [] then [] else '.' :: layout.fraction).head?,
      (c != '.') = false := by
    intro c first
    split at first
    · exact nomatch first
    · obtain rfl := Option.some.inj first
      rfl
  obtain ⟨before, after⟩ := parted pointless point
  have fraction :
      (if layout.fraction = [] then [] else '.' :: layout.fraction).tail = layout.fraction := by
    split
    · rename_i none
      exact none.symm
    · rfl
  unfold ofText text
  rw [front, behind, readPower_exponent]
  unfold mantissa
  dsimp only
  rw [before, after, fraction]
  rfl

/-- The text starts with a digit. -/
theorem head_text : ∃ c ∈ layout.text.head?, c.isDigit = true := by
  obtain ⟨first, rest, whole⟩ := List.exists_cons_of_ne_nil layout.filled
  refine ⟨first, by simp [text, mantissa, whole], layout.digits first ?_⟩
  rw [whole]
  exact List.mem_cons_self

/-- The characters of a double's size other than digits. -/
theorem mem_text {c : Char} (mem : c ∈ layout.text) :
    c.isDigit = true ∨ c ∈ ['.', 'e', '-', '+'] := by
  rcases List.mem_append.mp mem with mem | mem
  · rcases layout.mem_mantissa mem with digit | rfl
    · exact .inl digit
    · exact .inr (by decide)
  · unfold exponent at mem
    cases shown : layout.power with
    | none =>
      rw [shown] at mem
      exact nomatch mem
    | some power =>
      rw [shown] at mem
      rcases List.mem_append.mp mem with mem | mem
      · right
        split at mem <;> simp at mem ⊢ <;> tauto
      · exact .inl (digits_digitsOf _ c mem)

/-- The text is not one of digits alone. -/
theorem not_digits_text : ¬ Digits layout.text := by
  intro digits
  rcases layout.more with point | power
  · have mem : '.' ∈ layout.text := by simp [text, mantissa, point]
    exact absurd (digits _ mem) (by decide)
  · obtain ⟨power, shown⟩ := Option.isSome_iff_exists.mp power
    have mem : 'e' ∈ layout.text := by
      simp only [text, exponent, shown, Option.elim, powerText]
      split <;> simp
    exact absurd (digits _ mem) (by decide)

end Layout

/-! ## Signs -/

/-- A size with its sign before it. -/
def signed (negative : Bool) (size : List Char) : List Char :=
  if negative then '-' :: size else size

theorem head_digitsOf (n : Nat) : ∃ c ∈ (digitsOf n).head?, c.isDigit = true := by
  obtain ⟨first, rest, shape⟩ := List.exists_cons_of_ne_nil (digitsOf_ne_nil n)
  refine ⟨first, by simp [shape], digits_digitsOf n first ?_⟩
  rw [shape]
  exact List.mem_cons_self

/-- A size starts with a digit, so a sign before it is seen. -/
theorem signed_inj {negative negative' : Bool} {size size' : List Char}
    (head : ∃ c ∈ size.head?, c.isDigit = true) (head' : ∃ c ∈ size'.head?, c.isDigit = true)
    (same : signed negative size = signed negative' size') :
    negative = negative' ∧ size = size' := by
  have unsigned {text rest : List Char} (head : ∃ c ∈ text.head?, c.isDigit = true) :
      text ≠ '-' :: rest := by
    rintro rfl
    obtain ⟨_, ⟨⟩, digit⟩ := head
    exact absurd digit (by decide)
  cases negative with
  | true =>
    cases negative' with
    | true => exact ⟨rfl, (List.cons.inj same).2⟩
    | false => exact absurd same.symm (unsigned head')
  | false =>
    cases negative' with
    | true => exact absurd same (unsigned head)
    | false => exact ⟨rfl, same⟩

/-! ## The layouts of decimals -/

/-- Zeros at the end of the coefficient, and as many places less in the exponent, are the same
number. -/
theorem Decimal.value_shifted (n zeros : Nat) (exponent : Int) :
    value ⟨10 ^ zeros * n, exponent - zeros⟩ = value ⟨n, exponent⟩ := by
  have positive : (10 : ℚ) ^ zeros ≠ 0 := pow_ne_zero _ (by norm_num)
  unfold value
  rw [zpow_sub₀ (by norm_num), zpow_natCast]
  push_cast
  field_simp

namespace DoubleFormat

variable (d : Decimal)

/-- Digits with a point among them are laid out. -/
theorem exists_layout_of_point {text whole fraction : List Char} (filled : whole ≠ [])
    (point : fraction ≠ []) (digits : Digits whole) (others : Digits fraction)
    (shown : text = whole ++ '.' :: fraction)
    (number : value ⟨Nat.ofDigitChars 10 (whole ++ fraction) 0, -fraction.length⟩ = d.value) :
    ∃ layout : Layout, text = layout.text ∧ layout.decimal.value = d.value := by
  refine ⟨⟨whole, fraction, none, filled, digits, others, .inl point⟩, ?_, ?_⟩
  · simp [Layout.text, Layout.mantissa, Layout.exponent, point, shown]
  · simpa [Layout.decimal] using number

/-- The zeros before the point and the one behind it count among the digits. -/
theorem layout_of_zeros (n zeros : Nat) :
    ∃ layout : Layout, (placePoint ".0" ⟨n, zeros⟩).toList = layout.text ∧
      layout.decimal.value = value ⟨n, zeros⟩ := by
  have whole : (0 : Int) ≤ zeros := Int.natCast_nonneg zeros
  have coefficient : Nat.ofDigitChars 10
      (digitsOf n ++ List.replicate zeros '0' ++ List.replicate 1 '0') 0 = 10 ^ (zeros + 1) * n := by
    rw [Nat.ofDigitChars_append, Nat.ofDigitChars_append, ofDigitChars_digitsOf,
      Nat.ofDigitChars_replicate_zero, Nat.ofDigitChars_replicate_zero]
    ring
  have number := value_shifted n (zeros + 1) zeros
  rw [← coefficient] at number
  refine exists_layout_of_point _ (by simp [digitsOf_ne_nil]) (List.cons_ne_nil '0' [])
    ((digits_digitsOf n).append (digits_replicate zeros)) (digits_replicate 1) ?_ ?_
  · simp [placePoint, whole]
  · simpa using number

/-- The digits are parted, and as many of them as there are places stand behind the point. -/
theorem layout_of_parted {n places : Nat} (pointed : 0 < places)
    (inside : places < (digitsOf n).length) :
    ∃ layout : Layout, (placePoint ".0" ⟨n, -places⟩).toList = layout.text ∧
      layout.decimal.value = value ⟨n, -places⟩ := by
  have digits := digits_digitsOf n
  have before : ((digitsOf n).take ((digitsOf n).length - places)).length ≠ 0 := by
    rw [List.length_take]
    omega
  have behind : ((digitsOf n).drop ((digitsOf n).length - places)).length = places := by
    rw [List.length_drop]
    omega
  refine exists_layout_of_point _ (List.ne_nil_of_length_pos (Nat.pos_of_ne_zero before))
    (List.ne_nil_of_length_pos (behind ▸ pointed)) (fun c mem => digits c (List.mem_of_mem_take mem))
    (fun c mem => digits c (List.mem_of_mem_drop mem)) ?_ ?_
  · simp [placePoint, pointed.ne', inside]
  · rw [List.take_append_drop, ofDigitChars_digitsOf, behind]

/-- Zeros fill the places between the point and the digits. -/
theorem layout_of_filled {n places : Nat} (pointed : 0 < places)
    (outside : ¬ places < (digitsOf n).length) :
    ∃ layout : Layout, (placePoint ".0" ⟨n, -places⟩).toList = layout.text ∧
      layout.decimal.value = value ⟨n, -places⟩ := by
  have behind :
      (List.replicate (places - (digitsOf n).length) '0' ++ digitsOf n).length = places := by
    rw [List.length_append, List.length_replicate]
    omega
  have start : Nat.ofDigitChars 10 ['0'] 0 = 0 := rfl
  have coefficient : Nat.ofDigitChars 10
      (['0'] ++ (List.replicate (places - (digitsOf n).length) '0' ++ digitsOf n)) 0 = n := by
    rw [Nat.ofDigitChars_append, Nat.ofDigitChars_append, start, Nat.ofDigitChars_replicate_zero,
      Nat.mul_zero, ofDigitChars_digitsOf]
  refine exists_layout_of_point _ (List.cons_ne_nil '0' []) (by simp [digitsOf_ne_nil])
    (digits_replicate 1)
    ((digits_replicate (places - (digitsOf n).length)).append (digits_digitsOf n)) ?_ ?_
  · simp [placePoint, pointed.ne', outside]
  · rw [coefficient, behind]

/-- Where there is a point, digits stand on both sides of it. -/
theorem layout_placePoint :
    ∃ layout : Layout, (placePoint ".0" d).toList = layout.text ∧ layout.decimal.value = d.value := by
  obtain ⟨n, exponent⟩ := d
  by_cases whole : 0 ≤ exponent
  · obtain ⟨zeros, rfl⟩ := Int.eq_ofNat_of_zero_le whole
    exact layout_of_zeros n zeros
  · obtain ⟨places, rfl⟩ : ∃ places : Nat, exponent = -places := ⟨(-exponent).toNat, by omega⟩
    have pointed : 0 < places := by omega
    by_cases inside : places < (digitsOf n).length
    · exact layout_of_parted pointed inside
    · exact layout_of_filled pointed inside

/-- The first digit stands before the point, and the exponent makes up for the others. -/
theorem layout_withExponent :
    ∃ layout : Layout, (withExponent d).toList = layout.text ∧ layout.decimal.value = d.value := by
  have digits := digits_digitsOf d.coefficient
  have number := ofDigitChars_digitsOf d.coefficient
  have behind (mantissa : String) :
      (mantissa ++ (if d.leadingExponent < 0 then "e-" else "e+") ++
        toString d.leadingExponent.natAbs).toList =
        mantissa.toList ++ powerText d.leadingExponent := by
    simp [powerText, digitsOf, Nat.toList_repr]
  have places : d.leadingExponent - ((digitsOf d.coefficient).length - 1) = d.exponent := by
    unfold leadingExponent
    omega
  unfold withExponent
  dsimp only
  rw [behind]
  cases shape : digitsOf d.coefficient with
  | nil => exact absurd shape (digitsOf_ne_nil d.coefficient)
  | cons first rest =>
    rw [shape] at digits number places
    refine ⟨⟨[first], rest, some d.leadingExponent, by simp,
      fun c mem => digits c (List.mem_append_left rest mem),
      fun c mem => digits c (List.mem_cons_of_mem first mem), .inr rfl⟩, ?_, ?_⟩
    · cases rest with
      | nil => simp [Layout.text, Layout.mantissa, Layout.exponent]
      | cons second rest => simp [Layout.text, Layout.mantissa, Layout.exponent]
    · have coefficient : Nat.ofDigitChars 10 ([first] ++ rest) 0 = d.coefficient := number
      have exponent : d.leadingExponent - rest.length = d.exponent := by
        rw [List.length_cons] at places
        omega
      simp only [Layout.decimal, coefficient, Option.getD_some, exponent]

/-- The text of a double is laid out after its sign and shows its shortest decimal. -/
theorem layout_write (x : Double) :
    ∃ layout : Layout, (json.write x).toList = signed x.negative layout.text ∧
        layout.decimal.value = (x.shortest .even).value := by
  have size : ∃ layout : Layout,
      (if json.positional (x.shortest .even).leadingExponent then placePoint ".0" (x.shortest .even)
        else withExponent (x.shortest .even)).toList = layout.text ∧
      layout.decimal.value = (x.shortest .even).value := by
    split
    · exact layout_placePoint _
    · exact layout_withExponent _
  obtain ⟨layout, shown, number⟩ := size
  refine ⟨layout, ?_, number⟩
  rw [← shown]
  unfold write
  change (if x.negative then "-" ++ _ else _ : String).toList = _
  split
  · rename_i negative
    simp [json, signed, negative]
  · rename_i positive
    simp [json, signed, positive]

end DoubleFormat

/-! ## The texts of numbers -/

namespace Number

theorem integerText_eq (z : Int) : integerText z = signed (decide (z < 0)) (digitsOf z.natAbs) := by
  unfold integerText signed
  by_cases negative : z < 0 <;> simp [negative]

/-- Every number is a sign and a size that starts with a digit. -/
theorem text_eq_signed (n : Number) :
    ∃ negative size, n.text = signed negative size ∧ (∃ c ∈ size.head?, c.isDigit = true) ∧
      ∀ c ∈ size, c.isDigit = true ∨ c ∈ ['.', 'e', '-', '+'] := by
  cases n with
  | integer z =>
    exact ⟨_, _, integerText_eq z, head_digitsOf _, fun c mem => .inl (digits_digitsOf _ c mem)⟩
  | double x =>
    obtain ⟨layout, shown, -⟩ := DoubleFormat.layout_write x
    exact ⟨_, _, shown, layout.head_text, fun c mem => layout.mem_text mem⟩

theorem text_ne_nil (n : Number) : n.text ≠ [] := by
  obtain ⟨negative, size, shown, ⟨c, first, -⟩, -⟩ := n.text_eq_signed
  rw [shown]
  cases negative with
  | true => exact List.cons_ne_nil _ _
  | false =>
    rintro rfl
    exact nomatch first

/-- The characters of numbers. -/
theorem mem_text {n : Number} {c : Char} (mem : c ∈ n.text) :
    c.isDigit = true ∨ c ∈ ['.', 'e', '-', '+'] := by
  obtain ⟨negative, size, shown, -, chars⟩ := n.text_eq_signed
  rw [shown] at mem
  cases negative with
  | true =>
    rcases List.mem_cons.mp mem with rfl | mem
    · exact .inr (by decide)
    · exact chars c mem
  | false => exact chars c mem

/-- An integer is not written as a double is. -/
theorem integerText_ne_write (z : Int) (x : Double) :
    integerText z ≠ (DoubleFormat.json.write x).toList := by
  intro same
  obtain ⟨layout, shown, -⟩ := DoubleFormat.layout_write x
  rw [integerText_eq, shown] at same
  obtain ⟨-, size⟩ := signed_inj (head_digitsOf _) layout.head_text same
  exact layout.not_digits_text (size ▸ digits_digitsOf _)

/-- Numbers with one text are one number. -/
theorem text_injective {n n' : Number} (same : n.text = n'.text) : n = n' := by
  cases n with
  | integer z =>
    cases n' with
    | integer z' =>
      have same : integerText z = integerText z' := same
      rw [integerText_eq, integerText_eq] at same
      obtain ⟨sign, digits⟩ := signed_inj (head_digitsOf _) (head_digitsOf _) same
      have size : z.natAbs = z'.natAbs := by
        rw [← ofDigitChars_digitsOf z.natAbs, digits, ofDigitChars_digitsOf]
      have sign : z < 0 ↔ z' < 0 := decide_eq_decide.mp sign
      congr 1
      omega
    | double x' => exact absurd same (integerText_ne_write z x')
  | double x =>
    cases n' with
    | integer z' => exact absurd same.symm (integerText_ne_write z' x)
    | double x' =>
      obtain ⟨layout, shown, number⟩ := DoubleFormat.layout_write x
      obtain ⟨layout', shown', number'⟩ := DoubleFormat.layout_write x'
      have same := shown.symm.trans (same.trans shown')
      obtain ⟨sign, size⟩ := signed_inj layout.head_text layout'.head_text same
      have decimals : layout.decimal = layout'.decimal := by
        rw [← layout.ofText_text, size, layout'.ofText_text]
      have values : (x.shortest .even).value = (x'.shortest .even).value := by
        rw [← number, decimals, number']
      obtain ⟨significand, scale⟩ :=
        Double.parts_eq_of_magnitude (Double.magnitude_eq_of_shortest values)
      obtain ⟨negative, s, e, _, _, _⟩ := x
      obtain ⟨negative', s', e', _, _, _⟩ := x'
      obtain rfl : negative = negative' := sign
      obtain rfl : s = s' := significand
      obtain rfl : e = e' := scale
      rfl

end Number

end AgentAlgebra

import AgentAlgebra.Text.Words
import Mathlib.Data.List.Infix
import Mathlib.Data.List.TakeWhile
/-!
# Lower case in context

The lower case of a text is put together from that of its characters, and of these only the capital
sigma looks at what stands beside it. A piece cut out of a text has the lower case that it has in
the text exactly if each of its capital sigmas ends a word in the piece just when it does in the
text. A piece of which a sigma does change by being cut out is not found at all in the lower case of
some text that contains it.
-/

namespace AgentAlgebra

/-- The letter of which the lower case depends on the letters beside it. -/
def capitalSigma : Char := Char.ofNat 0x3A3

/-- A capital sigma ends a word between these two, the one before it given last character first. -/
def endsWord (before after : List Char) : Bool := meetsCased before && !meetsCased after

/-- The lower case of a character in its place. -/
def lowerAt (before : List Char) (c : Char) (after : List Char) : List Char :=
  if c.toNat = 0x3A3 then [Char.ofNat (if endsWord before after then 0x3C2 else 0x3C3)]
  else lowerChar c

/-- The lower case of a piece of text where it stands, what is before it given last character first.
-/
def lowerWithin : (before part after : List Char) → List Char
  | _, [], _ => []
  | before, c :: rest, after =>
    lowerAt before c (rest ++ after) ++ lowerWithin (c :: before) rest after

theorem lowerFrom_cons (before : List Char) (c : Char) (rest : List Char) :
    lowerFrom before (c :: rest) = lowerAt before c rest ++ lowerFrom (c :: before) rest := rfl

theorem lowerFrom_append (before part after : List Char) :
    lowerFrom before (part ++ after) =
      lowerWithin before part after ++ lowerFrom (part.reverse ++ before) after := by
  induction part generalizing before with
  | nil => rfl
  | cons c rest ih =>
    rw [List.cons_append, lowerFrom_cons, ih, lowerWithin, List.append_assoc, List.reverse_cons,
      List.append_assoc]
    rfl

@[simp]
theorem lowerWithin_nil (before part : List Char) :
    lowerWithin before part [] = lowerFrom before part := by
  induction part generalizing before with
  | nil => rfl
  | cons c rest ih => rw [lowerWithin, ih, List.append_nil, lowerFrom_cons]

theorem toNat_eq_sigma {c : Char} : c.toNat = 0x3A3 ↔ c = capitalSigma :=
  ⟨fun same => Char.toNat_inj.mp same, fun same => same ▸ rfl⟩

theorem lowerAt_sigma (before after : List Char) :
    lowerAt before capitalSigma after =
      [Char.ofNat (if endsWord before after then 0x3C2 else 0x3C3)] :=
  if_pos rfl

theorem lowerAt_of_ne {c : Char} (other : c ≠ capitalSigma) (before after : List Char) :
    lowerAt before c after = lowerChar c :=
  if_neg fun same => other (toNat_eq_sigma.mp same)

theorem length_lowerAt (before before' after after' : List Char) (c : Char) :
    (lowerAt before c after).length = (lowerAt before' c after').length := by
  by_cases same : c = capitalSigma
  · subst same
    rw [lowerAt_sigma, lowerAt_sigma]
    rfl
  · rw [lowerAt_of_ne same, lowerAt_of_ne same]

theorem lowerAt_ne_nil (before after : List Char) (c : Char) : lowerAt before c after ≠ [] := by
  unfold lowerAt lowerChar
  split
  · exact List.cons_ne_nil _ _
  · split <;> exact List.cons_ne_nil _ _

/-- Only a capital sigma can be written otherwise in another place. -/
theorem lowerAt_eq_iff {before before' after after' : List Char} {c : Char} :
    lowerAt before c after = lowerAt before' c after' ↔
      (c = capitalSigma → endsWord before' after' = endsWord before after) := by
  by_cases same : c = capitalSigma
  · subst same
    rw [lowerAt_sigma, lowerAt_sigma]
    cases endsWord before after <;> cases endsWord before' after' <;> simp
  · simp [lowerAt_of_ne same, same]

theorem length_lowerWithin (before before' part after after' : List Char) :
    (lowerWithin before part after).length = (lowerWithin before' part after').length := by
  induction part generalizing before before' with
  | nil => rfl
  | cons c rest ih =>
    rw [lowerWithin, lowerWithin, List.length_append, List.length_append,
      ih (c :: before) (c :: before'), length_lowerAt before before' _ (rest ++ after')]

/-- Each capital sigma of a piece ends a word in the piece exactly if it does in the text. -/
def KeepsSigmas (before part after : List Char) : Prop :=
  ∀ left right, part = left ++ capitalSigma :: right →
    endsWord left.reverse right = endsWord (left.reverse ++ before.reverse) (right ++ after)

/-- The part of a piece behind what was seen of it, `seen` and `before` given last character first,
is written alike in the piece and in the text exactly if its sigmas are. -/
theorem lowerWithin_eq_lowerFrom (seen before part after : List Char) :
    lowerWithin (seen ++ before) part after = lowerFrom seen part ↔
      ∀ left right, part = left ++ capitalSigma :: right →
        endsWord (left.reverse ++ seen) right =
          endsWord (left.reverse ++ seen ++ before) (right ++ after) := by
  induction part generalizing seen with
  | nil => simp [lowerWithin, lowerFrom]
  | cons c rest ih =>
    have step : lowerWithin (seen ++ before) (c :: rest) after = lowerFrom seen (c :: rest) ↔
        lowerAt (seen ++ before) c (rest ++ after) = lowerAt seen c rest ∧
          lowerWithin (c :: seen ++ before) rest after = lowerFrom (c :: seen) rest := by
      rw [lowerWithin, lowerFrom_cons]
      constructor
      · intro same
        exact List.append_inj same (length_lowerAt ..)
      · rintro ⟨first, others⟩
        rw [first, ← others]
        rfl
    rw [step, lowerAt_eq_iff, ih]
    constructor
    · rintro ⟨first, others⟩ left right whole
      cases left with
      | nil =>
        obtain ⟨rfl, rfl⟩ := List.cons.inj whole
        exact first rfl
      | cons d left =>
        obtain ⟨rfl, rfl⟩ := List.cons.inj whole
        simpa using others left right rfl
    · intro all
      constructor
      · rintro rfl
        exact all [] rest rfl
      · rintro left right rfl
        simpa using all (c :: left) right rfl

theorem lowerWithin_eq_iff_keepsSigmas {before part after : List Char} :
    lowerWithin before.reverse part after = lowerFrom [] part ↔ KeepsSigmas before part after := by
  unfold KeepsSigmas
  simpa only [List.nil_append, List.append_nil] using
    lowerWithin_eq_lowerFrom [] before.reverse part after

theorem occursIn_iff {part whole : List Char} :
    occursIn part whole = true ↔ part <:+: whole := by
  induction whole with
  | nil => simp [occursIn]
  | cons c rest ih =>
    rw [occursIn, Bool.or_eq_true, ih, List.isPrefixOf_iff_prefix, List.infix_cons_iff]

/-- A piece that keeps its sigmas is found in lower case where it was cut out. -/
theorem KeepsSigmas.occursIn {before part after : List Char}
    (keeps : KeepsSigmas before part after) :
    occursIn (lowerFrom [] part) (lowerFrom [] (before ++ part ++ after)) = true := by
  rw [occursIn_iff, List.append_assoc, lowerFrom_append, lowerFrom_append, List.append_nil,
    lowerWithin_eq_iff_keepsSigmas.mpr keeps]
  exact ⟨_, _, List.append_assoc ..⟩

/-- What is no code point stands for the character zero. -/
theorem toNat_ofNat (n : Nat) : (Char.ofNat n).toNat = n ∨ (Char.ofNat n).toNat = 0 := by
  by_cases valid : n.isValidChar
  · have made : Char.ofNat n = Char.ofNatAux n valid := dif_pos valid
    exact .inl (congrArg Char.toNat made)
  · have made : Char.ofNat n = Char.ofNat 0 := dif_neg valid
    exact .inr (congrArg Char.toNat made)

/-- A number beside what every range of capitals is lowered to is no small letter. -/
theorem lower?_ne {m : Nat} (positive : 0 < m)
    (beside : ∀ range ∈ caseRanges,
      (m : Int) < range.first + range.shift ∨ range.last + range.shift < m)
    {range : CaseRange} (mem : range ∈ caseRanges) {n k : Nat} (lowered : range.lower? n = some k) :
    k ≠ m := by
  unfold CaseRange.lower? at lowered
  split at lowered
  · rename_i within
    obtain rfl := Option.some.inj lowered
    have := beside range mem
    omega
  · exact nomatch lowered

section Marked

/-- A cased letter that nothing but itself has for its lower case. -/
def ordinal : Char := Char.ofNat 0xAA

theorem lower?_ne_ordinal {range : CaseRange} (mem : range ∈ caseRanges) {n k : Nat}
    (lowered : range.lower? n = some k) : k ≠ 0xAA :=
  lower?_ne (by decide) (by decide +kernel) mem lowered

theorem ofNat_ne_ordinal {n : Nat} (other : n ≠ 0xAA) : Char.ofNat n ≠ ordinal := by
  intro same
  have value : (Char.ofNat n).toNat = 0xAA := congrArg Char.toNat same
  rcases toNat_ofNat n with valid | invalid
  · exact other (valid.symm.trans value)
  · rw [value] at invalid
    cases invalid

theorem ordinal_not_mem_lowerAt {c : Char} (other : c ≠ ordinal) (before after : List Char) :
    ordinal ∉ lowerAt before c after := by
  by_cases same : c = capitalSigma
  · subst same
    rw [lowerAt_sigma]
    cases endsWord before after <;> decide
  · rw [lowerAt_of_ne same]
    unfold lowerChar
    split
    · decide
    · rw [List.mem_singleton]
      cases found : caseRanges.findSome? (·.lower? c.toNat) with
      | none => exact other.symm
      | some k =>
        obtain ⟨range, mem, lowered⟩ := List.exists_of_findSome?_eq_some found
        exact (ofNat_ne_ordinal (lower?_ne_ordinal mem lowered)).symm

theorem ordinal_not_mem_lowerWithin {part : List Char} (absent : ordinal ∉ part)
    (before after : List Char) : ordinal ∉ lowerWithin before part after := by
  induction part generalizing before with
  | nil => exact List.not_mem_nil
  | cons c rest ih =>
    rw [List.mem_cons, not_or] at absent
    rw [lowerWithin, List.mem_append, not_or]
    exact ⟨ordinal_not_mem_lowerAt (Ne.symm absent.1) _ _, ih absent.2 _⟩

theorem lowerAt_ordinal (before after : List Char) : lowerAt before ordinal after = [ordinal] := by
  rw [lowerAt_of_ne (by decide)]
  decide +kernel

theorem meetsCased_ordinal (rest : List Char) : meetsCased (ordinal :: rest) = true := by
  have plain : caseIgnorableChars.contains ordinal = false := by decide +kernel
  have cased : casedChars.contains ordinal = true := by decide +kernel
  unfold meetsCased
  rw [List.dropWhile_cons_of_neg (by simp [plain])]
  exact cased

end Marked

/-- All characters are ignored by cases, so that what stands behind them decides. -/
def Ignorable (cs : List Char) : Prop := ∀ c ∈ cs, caseIgnorableChars.contains c = true

theorem Ignorable.meetsCased_append {cs : List Char} (ignorable : Ignorable cs) (ds : List Char) :
    meetsCased (cs ++ ds) = meetsCased ds := by
  unfold meetsCased
  rw [List.dropWhile_append_of_pos ignorable]

theorem Ignorable.meetsCased {cs : List Char} (ignorable : Ignorable cs) :
    meetsCased cs = false := by
  have alone := ignorable.meetsCased_append []
  rwa [List.append_nil] at alone

theorem Ignorable.ordinal_not_mem {cs : List Char} (ignorable : Ignorable cs) : ordinal ∉ cs := by
  intro mem
  exact absurd (ignorable ordinal mem) (by decide +kernel)

theorem meetsCased_append {cs : List Char} (settled : ¬ Ignorable cs) (ds : List Char) :
    meetsCased (cs ++ ds) = meetsCased cs := by
  have remains : cs.dropWhile caseIgnorableChars.contains ≠ [] :=
    fun none => settled (List.dropWhile_eq_nil_iff.mp none)
  unfold meetsCased
  rw [List.dropWhile_append, if_neg (by simpa using remains)]
  cases rest : cs.dropWhile caseIgnorableChars.contains with
  | nil => exact absurd rest remains
  | cons c rest => rfl

theorem lowerWithin_ne_nil (before after : List Char) {part : List Char} (some_char : part ≠ []) :
    lowerWithin before part after ≠ [] := by
  cases part with
  | nil => exact absurd rfl some_char
  | cons c rest =>
    rw [lowerWithin]
    exact List.append_ne_nil_of_left_ne_nil (lowerAt_ne_nil _ _ _) _

/-- What is within a list that is longer by one is at its head or at its end. -/
theorem at_head_or_end {α : Type} {part whole : List α} (inside : part <:+: whole)
    (longer : whole.length = part.length + 1) : part <+: whole ∨ part <:+ whole := by
  obtain ⟨front, back, rfl⟩ := inside
  rw [List.length_append, List.length_append] at longer
  cases front with
  | nil => exact .inl (List.prefix_append ..)
  | cons a front =>
    have none : back = [] := by
      rw [← List.length_eq_zero_iff]
      rw [List.length_cons] at longer
      omega
    subst none
    rw [List.append_nil]
    exact .inr (List.suffix_append ..)

/-- A sigma that ends a word only because the piece ends there: with a letter behind it, the piece
is not found. -/
theorem not_found_before_letter {left right : List Char} (cased : meetsCased left.reverse = true)
    (ignorable : Ignorable right) :
    ¬ lowerFrom [] (left ++ capitalSigma :: right) <:+:
      lowerFrom [] (left ++ capitalSigma :: right ++ [ordinal]) := by
  let part := left ++ capitalSigma :: right
  have whole : lowerFrom [] (part ++ [ordinal]) = lowerWithin [] part [ordinal] ++ [ordinal] := by
    rw [lowerFrom_append, lowerFrom_cons, lowerAt_ordinal]
    rfl
  have long : (lowerWithin [] part [ordinal]).length = (lowerFrom [] part).length := by
    rw [← lowerWithin_nil, length_lowerWithin]
  intro inside
  rw [whole] at inside
  rcases at_head_or_end inside (by rw [List.length_append, long]; rfl) with front | back
  · -- At the head of the text the piece is written with its sigma changed.
    have same : lowerFrom [] part = lowerWithin [] part [ordinal] :=
      (List.prefix_of_prefix_length_le front (List.prefix_append ..) long.ge).eq_of_length long.symm
    have keeps := (@lowerWithin_eq_iff_keepsSigmas [] _ _).mp same.symm left right rfl
    simp [endsWord, cased, ignorable.meetsCased, ignorable.meetsCased_append, meetsCased_ordinal]
      at keeps
  · -- At the end of the text is the letter, which is no end of the piece.
    obtain ⟨front, back⟩ := back
    have parts : lowerFrom [] part = lowerWithin [] left (capitalSigma :: right) ++
        lowerWithin left.reverse (capitalSigma :: right) [] := by
      rw [lowerWithin_nil, lowerFrom_append, List.append_nil]
    rw [parts, ← List.append_assoc] at back
    have last := congrArg List.getLast? back
    rw [List.getLast?_append_of_ne_nil _ (lowerWithin_ne_nil _ _ (List.cons_ne_nil _ _)),
      List.getLast?_concat] at last
    have mem := List.mem_of_getLast? last
    refine ordinal_not_mem_lowerWithin ?_ _ _ mem
    rw [List.mem_cons, not_or]
    exact ⟨by decide, ignorable.ordinal_not_mem⟩

/-- A sigma that does not end a word only because the piece begins there: with a letter before it,
the piece is not found. -/
theorem not_found_behind_letter {left right : List Char} (ignorable : Ignorable left)
    (uncased : meetsCased right = false) :
    ¬ lowerFrom [] (left ++ capitalSigma :: right) <:+:
      lowerFrom [] (ordinal :: (left ++ capitalSigma :: right)) := by
  let part := left ++ capitalSigma :: right
  have whole : lowerFrom [] (ordinal :: part) = ordinal :: lowerFrom [ordinal] part := by
    rw [lowerFrom_cons, lowerAt_ordinal]
    rfl
  have long : (lowerFrom [ordinal] part).length = (lowerFrom [] part).length := by
    rw [← lowerWithin_nil, ← lowerWithin_nil, length_lowerWithin]
  intro inside
  rw [whole] at inside
  rcases at_head_or_end inside (by rw [List.length_cons, long]) with front | back
  · -- At the head of the text is the letter, which is no head of the piece.
    obtain ⟨back, front⟩ := front
    have parts : lowerFrom [] part = lowerWithin [] (left ++ [capitalSigma]) right ++
        lowerFrom ((left ++ [capitalSigma]).reverse ++ []) right := by
      rw [← lowerFrom_append, List.append_assoc]
      rfl
    rw [parts, List.append_assoc] at front
    have first := congrArg List.head? front
    rw [List.head?_append_of_ne_nil _ (lowerWithin_ne_nil _ _ (by simp)), List.head?_cons] at first
    refine ordinal_not_mem_lowerWithin ?_ _ _ (List.mem_of_head? first)
    rw [List.mem_append, List.mem_singleton, not_or]
    exact ⟨ignorable.ordinal_not_mem, by decide⟩
  · -- At the end of the text the piece is written with its sigma changed.
    rcases List.suffix_cons_iff.mp back with same | back
    · have lengths := congrArg List.length same
      rw [List.length_cons, long] at lengths
      exact absurd lengths (Nat.lt_succ_self _).ne
    · have same : lowerFrom [] part = lowerWithin [ordinal].reverse part [] := by
        rw [lowerWithin_nil]
        exact back.eq_of_length long.symm
      have keeps := lowerWithin_eq_iff_keepsSigmas.mp same.symm left right rfl
      have reversed : Ignorable left.reverse := fun c mem => ignorable c (List.mem_reverse.mp mem)
      simp [endsWord, uncased, reversed.meetsCased, reversed.meetsCased_append, meetsCased_ordinal]
        at keeps

/-- A piece that changes a sigma when it is cut out of some text is not found in the lower case of
some text that contains it. -/
theorem exists_text_without {before part after : List Char}
    (changes : ¬ KeepsSigmas before part after) :
    ∃ before' after', ¬ lowerFrom [] part <:+: lowerFrom [] (before' ++ part ++ after') := by
  unfold KeepsSigmas at changes
  push Not at changes
  obtain ⟨left, right, rfl, differ⟩ := changes
  by_cases ignorableLeft : Ignorable left
  · have reversed : Ignorable left.reverse := fun c mem => ignorableLeft c (List.mem_reverse.mp mem)
    refine ⟨[ordinal], [], ?_⟩
    rw [List.append_nil]
    apply not_found_behind_letter ignorableLeft
    by_cases ignorableRight : Ignorable right
    · exact ignorableRight.meetsCased
    · by_contra cased
      simp [endsWord, reversed.meetsCased, meetsCased_append ignorableRight, cased] at differ
  · have settled : ¬ Ignorable left.reverse :=
      fun reversed => ignorableLeft fun c mem => reversed c (List.mem_reverse.mpr mem)
    by_cases ignorableRight : Ignorable right
    · refine ⟨[], [ordinal], not_found_before_letter ?_ ignorableRight⟩
      by_contra uncased
      rw [Bool.not_eq_true] at uncased
      simp [endsWord, meetsCased_append settled, uncased] at differ
    · simp [endsWord, meetsCased_append settled, meetsCased_append ignorableRight] at differ

end AgentAlgebra

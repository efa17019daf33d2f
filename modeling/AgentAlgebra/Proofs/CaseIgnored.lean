import AgentAlgebra.Proofs.Names
import AgentAlgebra.Proofs.WordCasing
import AgentAlgebra.Text.Distance
/-!
# Which texts are compared without regard to case

A text that keeps case has the words of its lower case, so that nothing lies between the two. Of a set
of characters all texts are compared so exactly if all its characters keep their kind and, with a
capital sigma among them, what stands between words hides from a sigma all that is beyond it.
-/

namespace AgentAlgebra

/-- A quotient without remainder is not rounded. -/
theorem divNearest_shiftLeft (quotient shift : Nat) {n : Nat} (positive : 0 < n) :
    divNearest (n * (quotient <<< shift)) (n <<< shift) = quotient := by
  have whole : n * (quotient <<< shift) = quotient * (n <<< shift) := by
    rw [Nat.shiftLeft_eq, Nat.shiftLeft_eq, Nat.mul_left_comm]
  have nonzero : 0 < n <<< shift := by
    rw [Nat.shiftLeft_eq]
    exact Nat.mul_pos positive (Nat.two_pow_pos shift)
  unfold divNearest
  rw [whole, Nat.mul_div_cancel _ nonzero, Nat.mul_mod_left, if_pos nonzero]

/-- What is shared altogether is shared by one. -/
theorem Double.ofRatio_self {n : Nat} (positive : 0 < n) : ofRatio false n n = .finite one := by
  have shared : n * unitsPerOne / n = unitsPerOne := Nat.mul_div_cancel_left _ positive
  have scale : unitsPerOne.log2 - 52 = 1022 := by decide +kernel
  have units : unitsPerOne = 0x10000000000000 <<< 1022 := by decide +kernel
  have rounded := divNearest_shiftLeft 0x10000000000000 1022 positive
  rw [← units] at rounded
  rw [ofRatio, shared, scale, rounded]
  decide +kernel

section

variable {a b : String}

/-- Texts with the same words are at no distance. -/
theorem wordOverlap_of_words_eq (same : words a = words b) :
    wordOverlap a b = .finite (.zero false) := by
  unfold wordOverlap
  rw [same]
  have shared : (words b).toList.filter (words b).toList.contains = (words b).toList :=
    List.filter_eq_self.mpr fun word mem => List.contains_iff_mem.mpr mem
  dsimp only
  rw [shared, Nat.add_sub_cancel]
  split
  · rfl
  · rename_i some
    rw [Double.ofRatio_self (Nat.pos_of_ne_zero some)]
    decide +kernel

/-- A text supports all that has its words. -/
theorem unsupportedWords_of_words_eq (same : words a = words b) : unsupportedWords a b = [] := by
  unfold unsupportedWords
  rw [same, List.filter_eq_nil_iff]
  intro word mem
  simpa using mem

end

/-- A text is compared without regard to case: it has the words of its lower case, is at no distance
from it, and neither says anything that the other gives no support for. -/
structure IgnoresCase (text : String) : Prop where
  words : words text = words (lowercase text)
  distance : wordOverlap text (lowercase text) = .finite (.zero false)
  supported : unsupportedWords text (lowercase text) = []
  supporting : unsupportedWords (lowercase text) text = []

theorem ignoresCase_iff {text : String} : IgnoresCase text ↔ words text = words (lowercase text) :=
  ⟨IgnoresCase.words, fun same => ⟨same, wordOverlap_of_words_eq same,
    unsupportedWords_of_words_eq same, unsupportedWords_of_words_eq same.symm⟩⟩

theorem words_eq_ofList (text : String) : words text = .ofList (lowerWords text) := rfl

theorem KeepsCase.ignoresCase {text : String} (keeps : KeepsCase text) : IgnoresCase text := by
  rw [ignoresCase_iff, words_eq_ofList, words_eq_ofList, lowerWords_eq_iff.mpr keeps]

section Alphabets

/-- A sigma does not see past this character, and does not see a letter in it. -/
def HidesRest (c : Char) : Prop :=
  casedChars.contains c = false ∧ caseIgnorableChars.contains c = false

/-- What is behind a character that hides the rest makes no difference. -/
theorem meetsCased_append_of_hidesRest (cs : List Char) {ds : List Char}
    (hides : ∀ c ∈ ds.head?, HidesRest c) : meetsCased (cs ++ ds) = meetsCased cs := by
  by_cases ignorable : Ignorable cs
  · rw [ignorable.meetsCased_append, ignorable.meetsCased]
    cases ds with
    | nil => rfl
    | cons c ds =>
      obtain ⟨uncased, seen⟩ := hides c rfl
      unfold meetsCased
      rw [List.dropWhile_cons_of_neg (by simp [seen])]
      exact uncased
  · exact meetsCased_append ignorable ds

theorem keepsSigmas_of_hidesRest {before word after : List Char}
    (left : ∀ c ∈ before.getLast?, HidesRest c) (right : ∀ c ∈ after.head?, HidesRest c) :
    KeepsSigmas before word after := by
  intro front back _
  unfold endsWord
  rw [meetsCased_append_of_hidesRest _ right, meetsCased_append_of_hidesRest]
  rwa [List.head?_reverse]

variable {allowed : Char → Prop}

/-- Over characters that keep their kind, and of which those between words hide the rest from a sigma,
all texts keep case. -/
theorem keepsCase_of_allowed (kinds : ∀ c, allowed c → KeepsKind c)
    (hides : allowed capitalSigma → ∀ c, allowed c → isWordChar c = false → HidesRest c)
    {text : String} (within : ∀ c ∈ text.toList, allowed c) : KeepsCase text := by
  refine ⟨fun c mem => kinds c (within c mem), fun placed mem => ?_⟩
  obtain ⟨whole, left, right⟩ := of_mem_placedWords mem nofun
  have held (c : Char) (mem : c ∈ placed.before ++ placed.word ++ placed.after) : allowed c := by
    rw [whole] at mem
    exact within c mem
  by_cases sigma : capitalSigma ∈ placed.word
  · have sigma : allowed capitalSigma := held _ (by simp [sigma])
    apply keepsSigmas_of_hidesRest
    · intro c last
      have mem := List.mem_of_getLast? last
      exact hides sigma c (held c (by simp [mem])) (left c last)
    · intro c first
      have mem := List.mem_of_head? first
      exact hides sigma c (held c (by simp [mem])) (right c first)
  · intro front back split
    exact absurd (split ▸ by simp) sigma

theorem mem_words {text word : String} : word ∈ words text ↔ word ∈ lowerWords text := Names.mem_ofList

/-- A character that does not keep its kind makes a text by itself of which the words tell case. -/
theorem keepsKind_of_ignoresCase {c : Char} (ignores : IgnoresCase (String.ofList [c])) :
    KeepsKind c := by
  by_cases sigma : c = capitalSigma
  · exact sigma ▸ keepsKind_capitalSigma
  by_cases dotted : c.toNat = 0x130
  · obtain rfl : c = Char.ofNat 0x130 := Char.toNat_inj.mp dotted
    exact absurd ignores.words (by decide +kernel)
  obtain ⟨d, lowered⟩ := lowerChar_singleton dotted
  have found : lowerWords (String.ofList [c]) =
      if isWordChar c then [lowercase (String.ofList [c])] else [] := by
    cases word : isWordChar c <;> simp [lowerWords, wordsFrom, word]
  have found' : lowerWords (lowercase (String.ofList [c])) =
      if isWordChar d then [String.ofList [d]] else [] := by
    rw [lowerWords_lowercase, String.toList_ofList, lowerFrom_cons, lowerAt_of_ne sigma, lowered]
    cases word : isWordChar d <;> simp [wordsFrom, word, lowerFrom]
  have same (word : String) : word ∈ lowerWords (String.ofList [c]) ↔
      word ∈ lowerWords (lowercase (String.ofList [c])) := by
    rw [← mem_words, ← mem_words, ignores.words]
  rw [found, found'] at same
  rw [KeepsKind, lowered, List.map_singleton]
  cases word : isWordChar c with
  | true =>
    cases word' : isWordChar d with
    | true => rfl
    | false => simpa [word, word'] using same (lowercase (String.ofList [c]))
  | false =>
    cases word' : isWordChar d with
    | true => simpa [word, word'] using same (String.ofList [d])
    | false => rfl

/-- Behind a character that does not hide the rest a sigma sees another. -/
theorem meetsCased_of_not_hidesRest {c : Char} (sees : ¬ HidesRest c) :
    meetsCased [c, capitalSigma] = true := by
  unfold meetsCased
  cases ignorable : caseIgnorableChars.contains c with
  | true =>
    rw [List.dropWhile_cons_of_pos ignorable]
    decide +kernel
  | false =>
    rw [List.dropWhile_cons_of_neg (by simp [ignorable])]
    by_contra uncased
    exact sees ⟨Bool.eq_false_iff.mpr uncased, ignorable⟩

theorem wordsFrom_around {a b c d : Char} (first : isWordChar a = true) (second : isWordChar b = true)
    (between : isWordChar c = false) (third : isWordChar d = true) :
    wordsFrom [] [a, b, c, d] = [String.ofList [a, b], String.ofList [d]] := by
  simp [wordsFrom, first, second, between, third]

/-- A character that does not hide the rest makes a text in which a sigma ends a word, but not the text.
-/
theorem hidesRest_of_ignoresCase {c : Char} (keeps : KeepsKind c) (between : isWordChar c = false)
    (ignores : IgnoresCase (String.ofList [capitalSigma, capitalSigma, c, capitalSigma])) :
    HidesRest c := by
  by_contra sees
  have sigma : isWordChar capitalSigma = true := by decide +kernel
  have small : isWordChar (Char.ofNat 0x3C3) = true := by decide +kernel
  obtain ⟨d, lowered, kind⟩ := keeps.lowerAt [capitalSigma, capitalSigma] [capitalSigma]
  obtain ⟨e, last, kind'⟩ := keepsKind_capitalSigma.lowerAt [c, capitalSigma, capitalSigma] []
  have first (after : List Char) : lowerAt [] capitalSigma after = [Char.ofNat 0x3C3] :=
    lowerAt_sigma [] after
  have second : lowerAt [capitalSigma] capitalSigma [c, capitalSigma] = [Char.ofNat 0x3C3] := by
    rw [lowerAt_sigma, endsWord, meetsCased_of_not_hidesRest sees, Bool.not_true, Bool.and_false]
    rfl
  have whole : lowerFrom [] [capitalSigma, capitalSigma, c, capitalSigma] =
      [Char.ofNat 0x3C3, Char.ofNat 0x3C3, d, e] := by
    rw [lowerFrom_cons, lowerFrom_cons, lowerFrom_cons, lowerFrom_cons, first, second, lowered, last]
    rfl
  have here : lowercase (String.ofList [capitalSigma, capitalSigma]) ∈
      words (String.ofList [capitalSigma, capitalSigma, c, capitalSigma]) := by
    rw [mem_words, lowerWords, String.toList_ofList, wordsFrom_around sigma sigma between sigma]
    exact List.mem_cons_self
  rw [ignores.words, mem_words, lowerWords_lowercase, String.toList_ofList, whole,
    wordsFrom_around small small (kind.trans between) (kind'.trans sigma)] at here
  have ending : lowercase (String.ofList [capitalSigma, capitalSigma]) =
      String.ofList [Char.ofNat 0x3C3, Char.ofNat 0x3C2] := by decide +kernel
  rw [ending, List.mem_cons, List.mem_singleton, String.ofList_inj, String.ofList_inj] at here
  rcases here with same | short
  · exact absurd same (by decide)
  · exact absurd (congrArg List.length short) (by simp)

end Alphabets

/-- When texts are compared without regard to case. The words of a text and those of its lower case are
the same, one by one, exactly if the text keeps case; and then the text is at no distance from its
lower case, and neither says anything that the other gives no support for. A text that does not keep
case comes to this only where others of its words make up for those that change. Of a set of characters
all texts are compared so exactly if lowering keeps its letters and numbers apart from its other
characters and, if the capital sigma is in the set, none of those others has a case or is ignored by
cases. -/
theorem case_ignored_iff (allowed : Char → Prop) (text : String) :
    (lowerWords text = lowerWords (lowercase text) ↔ KeepsCase text) ∧
    (KeepsCase text → IgnoresCase text) ∧
    ((∀ spelled : String, (∀ c ∈ spelled.toList, allowed c) → IgnoresCase spelled) ↔
      (∀ c, allowed c → KeepsKind c) ∧
        (allowed capitalSigma → ∀ c, allowed c → isWordChar c = false → HidesRest c)) := by
  refine ⟨lowerWords_eq_iff, KeepsCase.ignoresCase, ?_⟩
  constructor
  · intro ignores
    have kinds (c : Char) (known : allowed c) : KeepsKind c :=
      keepsKind_of_ignoresCase (ignores _ (by simpa using known))
    refine ⟨kinds, fun sigma c known between => ?_⟩
    exact hidesRest_of_ignoresCase (kinds c known) between (ignores _ (by simp [sigma, known]))
  · rintro ⟨kinds, hides⟩ spelled within
    exact (keepsCase_of_allowed kinds hides within).ignoresCase

/-- A street sign is compared without regard to case, and so is all that its characters can spell. A
dotted capital I is not, because the mark that lowering adds ends a word; nor is a sigma behind which
a full stop is followed by a letter, unless the text has the word with either small sigma as well. -/
theorem case_ignored_iff_street :
    KeepsCase "ΟΔΟΣ 9" ∧ IgnoresCase "ΟΔΟΣ 9" ∧ lowerWords "ΟΔΟΣ 9" = ["οδος", "9"] ∧
      (∀ text : String, (∀ c ∈ text.toList, c ∈ "ΟΔΟΣ 9".toList) → IgnoresCase text) ∧
      (¬ ∀ text : String, (∀ c ∈ text.toList, c ∈ "İ".toList) → IgnoresCase text) ∧
      (¬ KeepsCase "ΑΣ.Α" ∧ ¬ IgnoresCase "ΑΣ.Α") ∧
      ¬ KeepsCase "ΑΣ.Α ας ασ" ∧ IgnoresCase "ΑΣ.Α ας ασ" := by
  obtain ⟨inOrder, ignores, alphabet⟩ := case_ignored_iff (· ∈ "ΟΔΟΣ 9".toList) "ΟΔΟΣ 9"
  obtain ⟨inOrder', -, alphabet'⟩ := case_ignored_iff (· ∈ "İ".toList) "ΑΣ.Α"
  obtain ⟨inOrder'', -, -⟩ := case_ignored_iff (· ∈ "İ".toList) "ΑΣ.Α ας ασ"
  have keeps : KeepsCase "ΟΔΟΣ 9" := inOrder.mp (by decide +kernel)
  have kinds : "ΟΔΟΣ 9".toList.all fun c => decide (KeepsKind c) := by decide +kernel
  have hides : "ΟΔΟΣ 9".toList.all fun c => isWordChar c ||
      (!casedChars.contains c && !caseIgnorableChars.contains c) := by decide +kernel
  rw [List.all_eq_true] at kinds hides
  refine ⟨keeps, ignores keeps, by decide +kernel, ?_, fun all => ?_, ⟨fun keeps => ?_, ?_⟩,
    fun keeps => ?_, ?_⟩
  · refine alphabet.mpr ⟨fun c mem => by simpa using kinds c mem, ?_⟩
    intro _ c mem between
    simpa [HidesRest, between] using hides c mem
  · have dotted := (alphabet'.mp all).1 (Char.ofNat 0x130) (by decide)
    exact absurd dotted (by decide +kernel)
  · exact absurd (inOrder'.mpr keeps) (by decide +kernel)
  · rw [ignoresCase_iff]
    decide +kernel
  · exact absurd (inOrder''.mpr keeps) (by decide +kernel)
  · rw [ignoresCase_iff]
    decide +kernel

end AgentAlgebra

import AgentAlgebra.Proofs.Lowered
/-!
# Words and lower case

Words are cut out of a text before they are brought to lower case. Out of the lower case of the text
the same words are cut in the same order exactly if lowering leaves letters and numbers what they are
and all else what it is, and no capital sigma of a word ends a word in the text alone or in the word
alone.
-/

namespace AgentAlgebra

/-- A word where it stands in a text. -/
structure PlacedWord where
  before : List Char
  word : List Char
  after : List Char

/-- The words of a text in their places, `run` being the run before the text and `passed` what is
before that, both last character first. -/
def placedWords (passed run : List Char) : List Char → List PlacedWord
  | [] => if run.isEmpty then [] else [⟨passed.reverse, run.reverse, []⟩]
  | c :: rest =>
    if isWordChar c then placedWords passed (c :: run) rest
    else if run.isEmpty then placedWords (c :: passed) [] rest
    else ⟨passed.reverse, run.reverse, c :: rest⟩ :: placedWords (c :: (run ++ passed)) [] rest

/-- Lowering a character makes one character of it that belongs to words exactly if it does. -/
def KeepsKind (c : Char) : Prop := (lowerChar c).map isWordChar = [isWordChar c]

instance : DecidablePred KeepsKind :=
  fun c => inferInstanceAs (Decidable ((lowerChar c).map isWordChar = [isWordChar c]))

theorem keepsKind_capitalSigma : KeepsKind capitalSigma := by decide +kernel

theorem wordsFrom_eq_map_placedWords (passed run cs : List Char) :
    wordsFrom run cs = (placedWords passed run cs).map fun placed => String.ofList placed.word := by
  induction cs generalizing passed run with
  | nil =>
    unfold wordsFrom placedWords
    split <;> rfl
  | cons c rest ih =>
    unfold wordsFrom placedWords
    split
    · exact ih passed (c :: run)
    · split
      · exact ih (c :: passed) []
      · exact congrArg (_ :: ·) (ih (c :: (run ++ passed)) [])

/-- Each word stands in the text where it is said to, between characters that belong to no word. -/
theorem of_mem_placedWords {passed run cs : List Char} {placed : PlacedWord}
    (mem : placed ∈ placedWords passed run cs)
    (bounded : ∀ c ∈ passed.head?, isWordChar c = false) :
    placed.before ++ placed.word ++ placed.after = passed.reverse ++ run.reverse ++ cs ∧
      (∀ c ∈ placed.before.getLast?, isWordChar c = false) ∧
      ∀ c ∈ placed.after.head?, isWordChar c = false := by
  induction cs generalizing passed run with
  | nil =>
    unfold placedWords at mem
    split at mem
    · cases mem
    · obtain rfl := List.mem_singleton.mp mem
      rw [List.getLast?_reverse]
      exact ⟨rfl, bounded, nofun⟩
  | cons c rest ih =>
    unfold placedWords at mem
    split at mem
    · obtain ⟨whole, ends⟩ := ih mem bounded
      refine ⟨whole.trans ?_, ends⟩
      simp
    · rename_i between
      have between : isWordChar c = false := Bool.eq_false_iff.mpr between
      have after : ∀ d ∈ (c :: rest).head?, isWordChar d = false := by
        rintro d here
        obtain rfl := Option.some.inj here
        exact between
      split at mem
      · rename_i none
        obtain rfl := List.isEmpty_iff.mp none
        obtain ⟨whole, ends⟩ := ih mem after
        refine ⟨whole.trans ?_, ends⟩
        simp
      · rcases List.mem_cons.mp mem with rfl | mem
        · rw [List.getLast?_reverse]
          exact ⟨rfl, bounded, after⟩
        · obtain ⟨whole, ends⟩ := ih mem after
          refine ⟨whole.trans ?_, ends⟩
          simp

/-- A character that keeps its kind does so wherever it stands. -/
theorem KeepsKind.lowerAt {c : Char} (keeps : KeepsKind c) (before after : List Char) :
    ∃ d, lowerAt before c after = [d] ∧ isWordChar d = isWordChar c := by
  by_cases sigma : c = capitalSigma
  · subst sigma
    rw [lowerAt_sigma]
    refine ⟨_, rfl, ?_⟩
    cases endsWord before after <;> decide +kernel
  · rw [lowerAt_of_ne sigma]
    exact List.map_eq_singleton_iff.mp keeps

theorem lowerWithin_append (before part more after : List Char) :
    lowerWithin before (part ++ more) after =
      lowerWithin before part (more ++ after) ++ lowerWithin (part.reverse ++ before) more after := by
  induction part generalizing before with
  | nil => rfl
  | cons c part ih =>
    rw [List.cons_append, lowerWithin, lowerWithin, ih, List.append_assoc, List.append_assoc,
      List.reverse_cons, List.append_assoc]
    rfl

/-- Where lowering keeps all characters apart that it found apart, the words of the lowered text are
those of the text, lowered where they stand. -/
theorem wordsFrom_lowerFrom (passed run : List Char) {cs : List Char}
    (keeps : ∀ c ∈ cs, KeepsKind c) :
    wordsFrom (lowerWithin passed run.reverse cs).reverse (lowerFrom (run ++ passed) cs) =
      (placedWords passed run cs).map fun placed =>
        String.ofList (lowerWithin placed.before.reverse placed.word placed.after) := by
  induction cs generalizing passed run with
  | nil =>
    unfold placedWords
    cases run with
    | nil => rfl
    | cons c run =>
      have lowered := lowerWithin_ne_nil passed [] (List.reverse_ne_nil_iff.mpr (List.cons_ne_nil c run))
      rw [lowerFrom, wordsFrom, if_neg (by simpa using lowered)]
      simp
  | cons c rest ih =>
    rw [List.forall_mem_cons] at keeps
    obtain ⟨d, lowered, kind⟩ := keeps.1.lowerAt (run ++ passed) rest
    have extended : lowerWithin passed (c :: run).reverse rest =
        lowerWithin passed run.reverse (c :: rest) ++ [d] := by
      rw [List.reverse_cons, lowerWithin_append, List.reverse_reverse, ← lowered]
      simp [lowerWithin]
    rw [lowerFrom_cons, lowered, List.singleton_append, wordsFrom, placedWords, kind]
    split
    · have cut := ih passed (c :: run) keeps.2
      rw [extended, List.reverse_append] at cut
      exact cut
    · have cut := ih (c :: (run ++ passed)) [] keeps.2
      cases run with
      | nil => exact cut
      | cons e run =>
        have lowered := lowerWithin_ne_nil passed (c :: rest)
          (List.reverse_ne_nil_iff.mpr (List.cons_ne_nil e run))
        rw [if_neg (by simpa using lowered), if_neg (by simp), List.map_cons, ← cut]
        simp [lowerWithin]

/-- The words of a text in lower case, in their order. -/
def lowerWords (text : String) : List String := (wordsFrom [] text.toList).map lowercase

/-- A text of which lowering keeps all characters that belong to words apart from all others, and in
which no capital sigma ends a word in the text alone or in the word alone. -/
structure KeepsCase (text : String) : Prop where
  kinds : ∀ c ∈ text.toList, KeepsKind c
  sigmas : ∀ placed ∈ placedWords [] [] text.toList,
    KeepsSigmas placed.before placed.word placed.after

/-- The words of a text hold its letters and numbers, in their order. -/
theorem flatMap_wordsFrom (run cs : List Char) :
    (wordsFrom run cs).flatMap String.toList = run.reverse ++ cs.filter isWordChar := by
  induction cs generalizing run with
  | nil =>
    unfold wordsFrom
    cases run <;> simp
  | cons c rest ih =>
    unfold wordsFrom
    split
    · rename_i word
      rw [ih, List.filter_cons_of_pos word]
      simp
    · rename_i between
      rw [List.filter_cons_of_neg between]
      split
      · rename_i none
        obtain rfl := List.isEmpty_iff.mp none
        exact ih []
      · rw [List.flatMap_cons, ih]
        simp

theorem mem_of_mem_wordsFrom {cs : List Char} {word : String} (mem : word ∈ wordsFrom [] cs) {c : Char}
    (held : c ∈ word.toList) : c ∈ cs ∧ isWordChar c = true := by
  have among : c ∈ (wordsFrom [] cs).flatMap String.toList := List.mem_flatMap.mpr ⟨word, mem, held⟩
  rw [flatMap_wordsFrom] at among
  exact List.mem_filter.mp among

/-- The words of what is in lower case are in lower case. -/
theorem lowerWords_lowercase (text : String) :
    lowerWords (lowercase text) = wordsFrom [] (lowerFrom [] text.toList) := by
  rw [lowerWords, lowercase, String.toList_ofList]
  refine (List.map_congr_left fun word mem => ?_).trans (List.map_id _)
  rw [lowercase, lowerFrom_of_small, String.ofList_toList, id]
  exact fun c held => small_of_mem_lowerFrom (mem_of_mem_wordsFrom mem held).1

/-- Where all characters keep their kind, the words come out the same exactly if each of them keeps its
sigmas. -/
theorem lowerWords_eq_iff_of_kinds {text : String} (kinds : ∀ c ∈ text.toList, KeepsKind c) :
    lowerWords text = lowerWords (lowercase text) ↔
      ∀ placed ∈ placedWords [] [] text.toList,
        KeepsSigmas placed.before placed.word placed.after := by
  have cut : wordsFrom [] (lowerFrom [] text.toList) =
      (placedWords [] [] text.toList).map fun placed =>
        String.ofList (lowerWithin placed.before.reverse placed.word placed.after) :=
    wordsFrom_lowerFrom [] [] kinds
  rw [lowerWords_lowercase, cut, lowerWords, wordsFrom_eq_map_placedWords [] [], List.map_map,
    List.map_inj_left]
  refine forall_congr' fun placed => imp_congr_right fun _ => ?_
  rw [← lowerWithin_eq_iff_keepsSigmas, Function.comp_apply, lowercase, String.toList_ofList,
    String.ofList_inj]
  exact eq_comm

section

variable {before cs : List Char}

theorem length_lowerFrom (keeps : ∀ c ∈ cs, KeepsKind c) :
    (lowerFrom before cs).length = cs.length := by
  induction cs generalizing before with
  | nil => rfl
  | cons c cs ih =>
    rw [List.forall_mem_cons] at keeps
    obtain ⟨d, lowered, -⟩ := keeps.1.lowerAt before cs
    rw [lowerFrom_cons, lowered, List.singleton_append, List.length_cons, List.length_cons,
      ih keeps.2]

theorem mem_lowerFrom {c d : Char} (mem : c ∈ cs) (other : c ≠ capitalSigma) (made : d ∈ lowerChar c) :
    d ∈ lowerFrom before cs := by
  induction cs generalizing before with
  | nil => cases mem
  | cons e cs ih =>
    rw [lowerFrom_cons, List.mem_append]
    rcases List.mem_cons.mp mem with rfl | mem
    · rw [lowerAt_of_ne other]
      exact .inl made
    · exact .inr (ih mem)

/-- Only the dotted capital I becomes more than one character. -/
theorem lowerChar_singleton {c : Char} (undotted : c.toNat ≠ 0x130) : ∃ d, lowerChar c = [d] :=
  ⟨_, if_neg undotted⟩

theorem ne_sigma_of_not_word {c : Char} (between : isWordChar c = false) : c ≠ capitalSigma := by
  rintro rfl
  exact absurd between (by decide +kernel)

theorem ne_dotted_of_not_word {c : Char} (between : isWordChar c = false) : c.toNat ≠ 0x130 := by
  intro dotted
  obtain rfl : c = Char.ofNat 0x130 := Char.toNat_inj.mp dotted
  exact absurd between (by decide +kernel)

/-- Where letters and numbers stay what they are, lowering a text makes no less of them, and as many
only if it makes none of anything else. -/
theorem countP_lowerFrom (before : List Char)
    (words : ∀ c ∈ cs, isWordChar c = true → KeepsKind c) :
    cs.countP isWordChar ≤ (lowerFrom before cs).countP isWordChar ∧
      ((lowerFrom before cs).countP isWordChar = cs.countP isWordChar → ∀ c ∈ cs, KeepsKind c) := by
  induction cs generalizing before with
  | nil => exact ⟨Nat.le_refl 0, fun _ => nofun⟩
  | cons c cs ih =>
    rw [List.forall_mem_cons] at words
    obtain ⟨least, settled⟩ := ih (c :: before) words.2
    rw [lowerFrom_cons, List.countP_append, List.countP_cons, List.forall_mem_cons]
    cases word : isWordChar c with
    | true =>
      obtain ⟨d, lowered, kind⟩ := (words.1 word).lowerAt before cs
      rw [lowered, List.countP_singleton, kind, word, if_pos rfl]
      exact ⟨by omega, fun same => ⟨words.1 word, settled (by omega)⟩⟩
    | false =>
      obtain ⟨d, lowered⟩ := lowerChar_singleton (ne_dotted_of_not_word word)
      rw [lowerAt_of_ne (ne_sigma_of_not_word word), lowered, List.countP_singleton, if_neg nofun]
      cases kind : isWordChar d with
      | true =>
        rw [if_pos rfl]
        exact ⟨by omega, fun same => by omega⟩
      | false =>
        have keeps : KeepsKind c := by
          rw [KeepsKind, lowered, List.map_singleton, kind, word]
        rw [if_neg nofun]
        exact ⟨by omega, fun same => ⟨keeps, settled (by omega)⟩⟩

end

/-- If the words come out the same, lowering keeps all characters that belong to words apart from all
others: what it makes of letters and numbers is found in words, and it adds none to them. -/
theorem keepsKind_of_lowerWords_eq {text : String}
    (same : lowerWords text = lowerWords (lowercase text)) : ∀ c ∈ text.toList, KeepsKind c := by
  have chars : (wordsFrom [] text.toList).flatMap (fun word => lowerFrom [] word.toList) =
      (lowerFrom [] text.toList).filter isWordChar := by
    have joined := congrArg (List.flatMap String.toList) same
    rw [lowerWords_lowercase, flatMap_wordsFrom, lowerWords, List.flatMap_map] at joined
    simpa [lowercase] using joined
  have words : ∀ c ∈ text.toList, isWordChar c = true → KeepsKind c := by
    intro c mem word
    by_cases sigma : c = capitalSigma
    · exact sigma ▸ keepsKind_capitalSigma
    · have made : ∀ d ∈ lowerChar c, isWordChar d = true := by
        intro d made
        have held : c ∈ (wordsFrom [] text.toList).flatMap String.toList := by
          rw [flatMap_wordsFrom]
          exact List.mem_filter.mpr ⟨mem, word⟩
        obtain ⟨found, among, held⟩ := List.mem_flatMap.mp held
        have kept : d ∈ (wordsFrom [] text.toList).flatMap fun word => lowerFrom [] word.toList :=
          List.mem_flatMap.mpr ⟨found, among, mem_lowerFrom held sigma made⟩
        rw [chars] at kept
        exact (List.mem_filter.mp kept).2
      by_cases dotted : c.toNat = 0x130
      · have mark : Char.ofNat 0x307 ∈ lowerChar c := by simp [lowerChar, dotted]
        exact absurd (made _ mark) (by decide +kernel)
      · obtain ⟨d, lowered⟩ := lowerChar_singleton dotted
        rw [KeepsKind, lowered, List.map_singleton, word, made d (lowered ▸ List.mem_singleton_self d)]
  refine (countP_lowerFrom [] words).2 ?_
  rw [List.countP_eq_length_filter, List.countP_eq_length_filter, ← chars]
  have lengths : ((wordsFrom [] text.toList).flatMap fun word => lowerFrom [] word.toList).length =
      ((wordsFrom [] text.toList).flatMap String.toList).length := by
    rw [List.length_flatMap, List.length_flatMap]
    congr 1
    refine List.map_congr_left fun word among => length_lowerFrom fun c held => ?_
    obtain ⟨mem, kind⟩ := mem_of_mem_wordsFrom among held
    exact words c mem kind
  rw [lengths, flatMap_wordsFrom]
  rfl

/-- The words of a text and those of its lower case are the same, one by one, exactly if the text keeps
case. -/
theorem lowerWords_eq_iff {text : String} :
    lowerWords text = lowerWords (lowercase text) ↔ KeepsCase text := by
  constructor
  · intro same
    have kinds := keepsKind_of_lowerWords_eq same
    exact ⟨kinds, (lowerWords_eq_iff_of_kinds kinds).mp same⟩
  · intro keeps
    exact (lowerWords_eq_iff_of_kinds keeps.kinds).mpr keeps.sigmas

end AgentAlgebra

import AgentAlgebra.Proofs.Casing
/-!
# What is in lower case stays as it is

No small letter is the capital of another, and the two characters that the dotted capital I becomes
have no other case either. So the lower case of a text has nothing left to lower.
-/

namespace AgentAlgebra

namespace CaseRange

/-- The small letter of the first capital. -/
def least (range : CaseRange) : Nat := (range.first + range.shift).toNat

/-- The small letter of the last capital. -/
def greatest (range : CaseRange) : Nat := (range.last + range.shift).toNat

/-- The small letters of a range are no capitals of another: they lie beside it, or between its
capitals. -/
def misses (range other : CaseRange) : Bool :=
  Nat.blt range.greatest other.first || Nat.blt other.last range.least ||
    (Nat.beq other.step 2 && Nat.beq ((range.least + other.first) % 2) 1 &&
      (Nat.beq range.step 2 || Nat.beq range.first range.last))

theorem misses_of_mem {range other : CaseRange} (mem : range ∈ caseRanges)
    (mem' : other ∈ caseRanges) : range.misses other = true := by
  have all : (caseRanges.all fun range => caseRanges.all range.misses) = true := by decide +kernel
  exact List.all_eq_true.mp (List.all_eq_true.mp all range mem) other mem'

theorem add_shift_nonneg : ∀ range ∈ caseRanges, 0 ≤ (range.first : Int) + range.shift := by
  decide +kernel

/-- A small letter has no small letter of its own. -/
theorem lower?_of_lower? {range other : CaseRange} (mem : range ∈ caseRanges)
    (mem' : other ∈ caseRanges) {n k : Nat} (lowered : range.lower? n = some k) :
    other.lower? k = none := by
  have apart := misses_of_mem mem mem'
  have nonneg := add_shift_nonneg range mem
  unfold lower? at lowered ⊢
  split at lowered
  · rename_i within
    obtain rfl := Option.some.inj lowered
    rw [if_neg]
    rintro ⟨above, below, spaced⟩
    simp only [misses, Bool.or_eq_true, Bool.and_eq_true, Nat.blt_eq, Nat.beq_eq, least, greatest]
      at apart
    obtain (beside | beside) | ⟨⟨two, odd⟩, even⟩ := apart
    · omega
    · omega
    · rw [two] at spaced
      obtain even | same := even
      · rw [even] at within
        omega
      · omega
  · cases lowered

end CaseRange

/-- A character that is its own lower case. -/
def Small (c : Char) : Prop := lowerChar c = [c]

instance : DecidablePred Small := fun c => inferInstanceAs (Decidable (lowerChar c = [c]))

/-- A character that no range of capitals has is its own lower case, the dotted capital I apart. -/
theorem small_of_findSome? {c : Char} (undotted : c.toNat ≠ 0x130)
    (lone : caseRanges.findSome? (·.lower? c.toNat) = none) : Small c := by
  rw [Small, lowerChar, if_neg undotted, lone]
  rfl

theorem small_ofNat {range : CaseRange} (mem : range ∈ caseRanges) {n k : Nat}
    (lowered : range.lower? n = some k) : Small (Char.ofNat k) := by
  have undotted : k ≠ 0x130 := lower?_ne (by decide) (by decide +kernel) mem lowered
  rcases toNat_ofNat k with valid | invalid
  · apply small_of_findSome?
    · rwa [valid]
    · rw [valid, List.findSome?_eq_none_iff]
      exact fun other mem' => CaseRange.lower?_of_lower? mem mem' lowered
  · apply small_of_findSome?
    · rw [invalid]
      decide
    · rw [invalid]
      decide +kernel

theorem small_of_mem_lowerChar {c d : Char} (mem : d ∈ lowerChar c) : Small d := by
  unfold lowerChar at mem
  split at mem
  · have both : Small 'i' ∧ Small (Char.ofNat 0x307) := by decide +kernel
    rw [List.mem_cons, List.mem_singleton] at mem
    rcases mem with rfl | rfl
    · exact both.1
    · exact both.2
  · rename_i undotted
    cases found : caseRanges.findSome? (·.lower? c.toNat) with
    | none =>
      rw [found] at mem
      obtain rfl := List.mem_singleton.mp mem
      exact small_of_findSome? undotted found
    | some k =>
      rw [found] at mem
      obtain rfl := List.mem_singleton.mp mem
      obtain ⟨range, held, lowered⟩ := List.exists_of_findSome?_eq_some found
      exact small_ofNat held lowered

theorem small_of_mem_lowerAt {before after : List Char} {c d : Char}
    (mem : d ∈ lowerAt before c after) : Small d := by
  by_cases sigma : c = capitalSigma
  · subst sigma
    rw [lowerAt_sigma, List.mem_singleton] at mem
    subst mem
    cases endsWord before after <;> decide +kernel
  · rw [lowerAt_of_ne sigma] at mem
    exact small_of_mem_lowerChar mem

theorem small_of_mem_lowerFrom {before cs : List Char} {d : Char} (mem : d ∈ lowerFrom before cs) :
    Small d := by
  induction cs generalizing before with
  | nil => cases mem
  | cons c cs ih =>
    rw [lowerFrom_cons, List.mem_append] at mem
    exact mem.elim small_of_mem_lowerAt ih

/-- A small letter is no capital sigma, so the place at which it stands does not matter. -/
theorem Small.lowerAt {c : Char} (small : Small c) (before after : List Char) :
    lowerAt before c after = [c] := by
  rw [lowerAt_of_ne _ before after]
  · exact small
  · rintro rfl
    exact absurd small (by decide +kernel)

theorem lowerFrom_of_small {before cs : List Char} (small : ∀ c ∈ cs, Small c) :
    lowerFrom before cs = cs := by
  induction cs generalizing before with
  | nil => rfl
  | cons c cs ih =>
    rw [List.forall_mem_cons] at small
    rw [lowerFrom_cons, small.1.lowerAt, ih small.2]
    rfl

end AgentAlgebra

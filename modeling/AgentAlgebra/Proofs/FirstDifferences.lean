import AgentAlgebra.Proofs.Blame
/-!
# The first difference of two traces

Between two traces a divergence is reported at the first step at which something that is compared
differs, and of the first thing that does there: the output, the frontier or the stages. It shows
both sides as values, which are never equal, since what is written of steps is equal only where the
steps are. If the same agents moved in the same order, it also names the first stage that differs.
-/

namespace AgentAlgebra

/-- Two lists have members at index `i` that are not alike, and at no index before it. -/
structure FirstApart {α : Type} (Alike : α → α → Prop) (xs ys : List α) (i : Nat) (a b : α) :
    Prop where
  left : xs[i]? = some a
  right : ys[i]? = some b
  apart : ¬ Alike a b
  before : ∀ j < i, ∀ a b, xs[j]? = some a → ys[j]? = some b → Alike a b

/-- There is one first index at which two lists differ. -/
theorem FirstApart.unique {α : Type} {Alike : α → α → Prop} {xs ys : List α} {i j : Nat}
    {a b a' b' : α} (first : FirstApart Alike xs ys i a b)
    (first' : FirstApart Alike xs ys j a' b') : i = j ∧ a = a' ∧ b = b' := by
  obtain rfl : i = j := by
    rcases Nat.lt_trichotomy i j with less | same | greater
    · exact absurd (first'.before i less a b first.left first.right) first.apart
    · exact same
    · exact absurd (first.before j greater a' b' first'.left first'.right) first'.apart
  exact ⟨rfl, Option.some.inj (first.left.symm.trans first'.left),
    Option.some.inj (first.right.symm.trans first'.right)⟩

namespace Stage

/-- What is written of two stages is equal only where they are. -/
theorem toValue_beq_toValue {s t : Stage} : (s.toValue == t.toValue) = (s == t) := by
  rw [Bool.eq_iff_iff, beq_eq_true]
  unfold toValue
  rw [Value.record_beq_record (by simp) (by simp)]
  simp only [Fields.lookup_cons]
  constructor
  · intro same
    have agent : (s.agent == t.agent) = true := same "agent"
    exact ⟨beq_iff_eq.mp agent, same "input", same "output"⟩
  · rintro ⟨agent, input, output⟩ name
    rw [agent]
    split
    · exact BEq.rfl
    · split
      · exact input
      · split
        · exact output
        · rfl

theorem map_toValue_beq_map_toValue {stages stages' : List Stage} :
    (stages.map toValue == stages'.map toValue) = (stages == stages') := by
  induction stages generalizing stages' with
  | nil => cases stages' <;> rfl
  | cons s stages ih =>
    cases stages' with
    | nil => rfl
    | cons t stages' =>
      rw [List.map_cons, List.map_cons, List.cons_beq_cons, List.cons_beq_cons, ih,
        toValue_beq_toValue]

end Stage

/-- Two steps part at a stage: the same agents moved in the same order, and this is the first stage
in which they differ. -/
structure StepTrace.PartAt (l r : StepTrace) (i : Nat) (s t : Stage) : Prop where
  agents : l.stages.map (·.agent) = r.stages.map (·.agent)
  first : FirstApart (fun s t => (s == t) = true) l.stages r.stages i s t

/-- The first difference of two lists is found by going through both at once. -/
theorem findIdx?_zip_eq_some {α : Type} [BEq α] {xs ys : List α} {i : Nat} :
    ((xs.zip ys).findIdx? fun pair => pair.1 != pair.2) = some i ↔
      ∃ a b, FirstApart (fun a b => (a == b) = true) xs ys i a b := by
  rw [List.findIdx?_eq_some_iff_getElem]
  constructor
  · rintro ⟨bound, differ, before⟩
    obtain ⟨left, right⟩ := List.getElem?_zip_eq_some.mp (List.getElem?_eq_getElem bound)
    refine ⟨_, _, left, right, by simpa [bne] using differ, fun j less a b ofLeft ofRight => ?_⟩
    have pair : (xs.zip ys)[j]? = some (a, b) := List.getElem?_zip_eq_some.mpr ⟨ofLeft, ofRight⟩
    obtain ⟨bound', here⟩ := List.getElem?_eq_some_iff.mp pair
    have equal := before j less
    rw [here] at equal
    simpa [bne] using equal
  · rintro ⟨a, b, first⟩
    have pair : (xs.zip ys)[i]? = some (a, b) :=
      List.getElem?_zip_eq_some.mpr ⟨first.left, first.right⟩
    obtain ⟨bound, here⟩ := List.getElem?_eq_some_iff.mp pair
    refine ⟨bound, ?_, fun j less => ?_⟩
    · rw [here]
      simpa [bne] using first.apart
    · have earlier : (xs.zip ys)[j]? = some (xs.zip ys)[j] :=
        List.getElem?_eq_getElem (less.trans bound)
      obtain ⟨ofLeft, ofRight⟩ := List.getElem?_zip_eq_some.mp earlier
      simpa [bne] using first.before j less _ _ ofLeft ofRight

/-- A stage is named exactly where the two steps part at it. -/
theorem firstStageDifference?_iff {l r : StepTrace} {i : Nat} {name : String} :
    firstStageDifference? l r = some (i, name) ↔ ∃ s t, l.PartAt r i s t ∧ s.agent = name := by
  constructor
  · intro found
    unfold firstStageDifference? at found
    obtain ⟨⟨many, agents⟩, found⟩ := Option.ite_none_right_eq_some.mp found
    obtain ⟨k, index, found⟩ := Option.bind_eq_some_iff.mp found
    obtain ⟨⟨s, t⟩, pair, found⟩ := Option.bind_eq_some_iff.mp found
    obtain ⟨rfl, rfl⟩ := Prod.mk.inj (Option.some.inj found)
    obtain ⟨a, b, first⟩ := findIdx?_zip_eq_some.mp index
    obtain ⟨rfl, rfl⟩ : a = s ∧ b = t := by
      obtain ⟨left, right⟩ := List.getElem?_zip_eq_some.mp pair
      exact ⟨Option.some.inj (first.left.symm.trans left),
        Option.some.inj (first.right.symm.trans right)⟩
    refine ⟨a, b, ⟨?_, first⟩, rfl⟩
    rw [← List.forall₂_eq_eq_eq, List.forall₂_map_left_iff, List.forall₂_map_right_iff,
      List.forall₂_iff_zip]
    exact ⟨many, fun {a b} mem => by simpa using List.all_eq_true.mp agents (a, b) mem⟩
  · rintro ⟨s, t, part, rfl⟩
    have index := findIdx?_zip_eq_some.mpr ⟨s, t, part.first⟩
    exact firstStageDifference?_eq_some part.agents index part.first.left part.first.right

namespace Observable

/-- All that can be compared, in the order in which it is. -/
def all : List Observable := [.output, .frontier, .stages]

/-- Whether it is compared: the output always is. -/
def isCompared (frontier stages : Bool) : Observable → Bool
  | .output => true
  | .frontier => frontier
  | .stages => stages

/-- Whether two steps differ in it. -/
def differs : Observable → StepTrace → StepTrace → Bool
  | .output, l, r => l.output != r.output
  | .frontier, l, r => l.frontier != r.frontier
  | .stages, l, r => l.stages != r.stages

/-- What is shown of it as a value. -/
def form : Observable → StepTrace → Value
  | .output, step => step.output
  | .frontier, step => .ofList step.frontier
  | .stages, step => .ofList (step.stages.map Stage.toValue)

/-- What is shown of two steps differs exactly where they do. -/
theorem form_bne_form (observable : Observable) (l r : StepTrace) :
    (observable.form l != observable.form r) = observable.differs l r := by
  cases observable with
  | output => rfl
  | frontier => exact congrArg (!·) Value.ofList_beq_ofList
  | stages =>
    exact congrArg (!·) (Value.ofList_beq_ofList.trans Stage.map_toValue_beq_map_toValue)

/-- The first thing that is compared and differs. -/
def firstDiffering? (frontier stages : Bool) (l r : StepTrace) : Option Observable :=
  all.find? fun observable => observable.isCompared frontier stages && observable.differs l r

/-- The stage that is named with it, and its agent: none with the frontier. -/
def blamed (observable : Observable) (l r : StepTrace) : Option (Nat × String) :=
  if observable = .frontier then none else firstStageDifference? l r

theorem blamed_eq_some {observable : Observable} {l r : StepTrace} {i : Nat} {name : String} :
    observable.blamed l r = some (i, name) ↔
      observable ≠ .frontier ∧ ∃ s t, l.PartAt r i s t ∧ s.agent = name := by
  unfold blamed
  rw [Option.ite_none_left_eq_some, firstStageDifference?_iff]

theorem blamed_stage {observable : Observable} {l r : StepTrace} {i : Nat} :
    (observable.blamed l r).map (·.1) = some i ↔
      observable ≠ .frontier ∧ ∃ s t, l.PartAt r i s t := by
  rw [Option.map_eq_some_iff]
  constructor
  · rintro ⟨⟨j, name⟩, blamed, rfl⟩
    obtain ⟨other, s, t, part, -⟩ := blamed_eq_some.mp blamed
    exact ⟨other, s, t, part⟩
  · rintro ⟨other, s, t, part⟩
    exact ⟨(i, s.agent), blamed_eq_some.mpr ⟨other, s, t, part, rfl⟩, rfl⟩

theorem blamed_agent {observable : Observable} {l r : StepTrace} {name : String} :
    (observable.blamed l r).map (·.2) = some name ↔
      observable ≠ .frontier ∧ ∃ i s t, l.PartAt r i s t ∧ s.agent = name := by
  rw [Option.map_eq_some_iff]
  constructor
  · rintro ⟨⟨i, agent⟩, blamed, rfl⟩
    obtain ⟨other, s, t, part, named⟩ := blamed_eq_some.mp blamed
    exact ⟨other, i, s, t, part, named⟩
  · rintro ⟨other, i, s, t, part, named⟩
    exact ⟨(i, name), blamed_eq_some.mpr ⟨other, s, t, part, named⟩, rfl⟩

end Observable

namespace Divergence

variable {frontier stages : Bool} {n : Nat} {l r : StepTrace} {left right : List StepTrace}
  {divergence : Divergence}

/-- Of two steps the first thing that differs is reported. -/
theorem atStep?_eq : atStep? frontier stages n l r =
    (Observable.firstDiffering? frontier stages l r).map fun o =>
      ⟨n, o, (o.blamed l r).map (·.1), (o.blamed l r).map (·.2), o.form l, o.form r⟩ := by
  unfold atStep? Observable.firstDiffering? Observable.all
  rw [List.find?_cons, List.find?_cons, List.find?_cons, List.find?_nil]
  dsimp only [Observable.isCompared, Observable.differs]
  rw [Bool.true_and]
  cases l.output != r.output with
  | true => rfl
  | false =>
    cases frontier && l.frontier != r.frontier with
    | true => rfl
    | false =>
      cases stages && l.stages != r.stages with
      | true => rfl
      | false => rfl

/-- No divergence is found exactly if all steps match that both have. -/
theorem among?_eq_none_iff : among? frontier stages n left right = none ↔
    ∀ (k : Nat) (l r : StepTrace), left[k]? = some l → right[k]? = some r →
      StepTrace.Matches frontier stages l r := by
  induction left generalizing n right with
  | nil => exact iff_of_true rfl nofun
  | cons l left ih =>
    cases right with
    | nil => exact iff_of_true rfl nofun
    | cons r right =>
      rw [among?_cons_eq_none, ih]
      constructor
      · rintro ⟨here, later⟩ k a b ofLeft ofRight
        cases k with
        | zero =>
          obtain rfl := Option.some.inj ofLeft
          obtain rfl := Option.some.inj ofRight
          exact here
        | succ k => exact later k a b ofLeft ofRight
      · intro all
        exact ⟨all 0 l r rfl rfl, fun k a b ofLeft ofRight => all (k + 1) a b ofLeft ofRight⟩

/-- The divergence is the first difference of two lists of steps, and these are the steps that
differ. -/
structure FirstBetween (frontier stages : Bool) (left right : List StepTrace) (l r : StepTrace)
    (divergence : Divergence) : Prop where
  step : FirstApart (StepTrace.Matches frontier stages) left right divergence.step l r
  observable : Observable.firstDiffering? frontier stages l r = some divergence.observable
  lhs : divergence.lhs = divergence.observable.form l
  rhs : divergence.rhs = divergence.observable.form r
  unequal : (divergence.lhs == divergence.rhs) = false
  stage (i : Nat) : divergence.stage = some i ↔
    divergence.observable ≠ .frontier ∧ ∃ s t, l.PartAt r i s t
  stageAgent (name : String) : divergence.stageAgent = some name ↔
    divergence.observable ≠ .frontier ∧ ∃ i s t, l.PartAt r i s t ∧ s.agent = name

theorem firstBetween_of_among? (found : among? frontier stages 0 left right = some divergence) :
    ∃ l r, divergence.FirstBetween frontier stages left right l r := by
  obtain ⟨k, l, r, ofLeft, ofRight, here, before⟩ := among?_eq_some found
  rw [Nat.zero_add] at here
  have apart : ¬ StepTrace.Matches frontier stages l r := by
    rw [← atStep?_eq_none (n := k), here]
    exact Option.some_ne_none _
  rw [atStep?_eq] at here
  obtain ⟨observable, first, rfl⟩ := Option.map_eq_some_iff.mp here
  have differs : (observable.form l == observable.form r) = false := by
    have both := List.find?_some first
    rw [Bool.and_eq_true, ← Observable.form_bne_form] at both
    simpa [bne] using both.2
  refine ⟨l, r, ⟨ofLeft, ofRight, apart, ?_⟩, first, rfl, rfl, differs,
    fun i => Observable.blamed_stage, fun name => Observable.blamed_agent⟩
  intro j less a b earlier earlier'
  refine (List.forall₂_iff_zip.mp before).2 (List.mem_of_getElem? (i := j) ?_)
  rw [List.getElem?_zip_eq_some, List.getElem?_take_of_lt less, List.getElem?_take_of_lt less]
  exact ⟨earlier, earlier'⟩

/-- Two lists of steps have one first difference. -/
theorem FirstBetween.unique {divergence' : Divergence} {l' r' : StepTrace}
    (first : divergence.FirstBetween frontier stages left right l r)
    (first' : divergence'.FirstBetween frontier stages left right l' r') :
    divergence = divergence' := by
  obtain ⟨step, rfl, rfl⟩ := first.step.unique first'.step
  have observable : divergence.observable = divergence'.observable :=
    Option.some.inj (first.observable.symm.trans first'.observable)
  have stage : divergence.stage = divergence'.stage := by
    ext i
    rw [first.stage, first'.stage, observable]
  have stageAgent : divergence.stageAgent = divergence'.stageAgent := by
    ext name
    rw [first.stageAgent, first'.stageAgent, observable]
  have lhs : divergence.lhs = divergence'.lhs := by
    rw [first.lhs, first'.lhs, observable]
  have rhs : divergence.rhs = divergence'.rhs := by
    rw [first.rhs, first'.rhs, observable]
  cases divergence
  cases divergence'
  rw [mk.injEq]
  exact ⟨step, observable, stage, stageAgent, lhs, rhs⟩

/-- A divergence is reported between two traces exactly if it is their first difference, and none is
reported exactly if all steps are equal in all that is compared. -/
theorem between_reports_first (left right : Trace) (frontier stages : Bool) :
    (between? left right frontier stages = none ↔
      ∀ (k : Nat) (l r : StepTrace), left.steps[k]? = some l → right.steps[k]? = some r →
        (l.output == r.output) = true ∧ (frontier = true → (l.frontier == r.frontier) = true) ∧
          (stages = true → (l.stages == r.stages) = true)) ∧
    ∀ divergence, between? left right frontier stages = some divergence ↔
      ∃ l r, divergence.FirstBetween frontier stages left.steps right.steps l r := by
  unfold between?
  constructor
  · rw [among?_eq_none_iff]
    constructor
    · intro all k l r ofLeft ofRight
      have found := all k l r ofLeft ofRight
      exact ⟨found.output, found.frontier, found.stages⟩
    · intro all k l r ofLeft ofRight
      obtain ⟨output, ofFrontier, ofStages⟩ := all k l r ofLeft ofRight
      exact ⟨output, ofFrontier, ofStages⟩
  · intro divergence
    constructor
    · exact firstBetween_of_among?
    · rintro ⟨l, r, first⟩
      cases found : among? frontier stages 0 left.steps right.steps with
      | none =>
        have all := among?_eq_none_iff.mp found
        exact absurd (all _ l r first.step.left first.step.right) first.step.apart
      | some reported =>
        obtain ⟨l', r', first'⟩ := firstBetween_of_among? found
        rw [first.unique first']

end Divergence

end AgentAlgebra

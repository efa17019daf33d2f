import AgentAlgebra.Proofs.CompleteViews
import AgentAlgebra.Proofs.EffectfulChecks
import AgentAlgebra.Proofs.WitnessIds
import Mathlib.Data.List.Dedup
import Mathlib.Data.List.Pairwise
/-!
# The ids of the conflicts of one check

A conflict is known by its sort, the two views that it is between, and what was expected and found.
The names of the two views are joined by an arrow, and that is where two conflicts of one check may
come to have one key: names that hold arrows themselves can be joined to one text in two ways. Other
than that all conflicts of a check have keys of their own; the stand-in for all views is not mistaken
for a view.
-/

namespace AgentAlgebra

open MonadAttach LawfulMonadAttach

/-- A value is no field of itself. -/
theorem Value.field_ne_self {value : Value} {names : Names} {field : Fin names.size → Value}
    (same : value = .object names field) (i : Fin names.size) : field i ≠ value := by
  induction value generalizing names with
  | object names' field' ih =>
    obtain ⟨rfl, rfl⟩ := Value.object.inj same
    intro circle
    exact ih i circle i rfl
  | _ => exact nomatch same

theorem Value.ofFields_ne {fields : Fields Value} {name : String} {value : Value}
    (held : fields.get? name = some value) : ofFields fields ≠ value := by
  rw [← Fields.lookup_names] at held
  obtain ⟨i, -, rfl⟩ := Names.lookup_eq_some.mp held
  exact (field_ne_self rfl i).symm

namespace Conflict

variable {m : Type → Type} {sheaf : String} {all : Renderings} {complete : List (View m × Value)}
  {one other : Conflict}

theorem of_witnessKey_eq (same : one.witnessKey sheaf = other.witnessKey sheaf) :
    one.failure = other.failure ∧
      s!"{one.source} -> {one.target}" = s!"{other.source} -> {other.target}" ∧
      one.expected = other.expected := by
  have context := Option.some.inj (congrArg WitnessKey.context same)
  exact ⟨congrArg WitnessKey.failure same, Option.some.inj (congrArg WitnessKey.subject same),
    Option.some.inj (Value.record_eq_record.mp context "expected")⟩

theorem witnessKey_eq_of_same (same : (one.witnessKey sheaf).Same (other.witnessKey sheaf)) :
    one.witnessKey sheaf = other.witnessKey sheaf := by
  obtain ⟨failure, -, subject, context⟩ := same
  unfold witnessKey key at *
  dsimp only [Option.getD_some] at failure subject context
  rw [failure, subject, context]

/-- Where keys differ and the ids are theirs, ids are the same only by a collision of the hash. -/
theorem collide_of_witnessId_eq (differ : one.witnessKey sheaf ≠ other.witnessKey sheaf)
    (id : one.witnessId = (one.witnessKey sheaf).id)
    (id' : other.witnessId = (other.witnessKey sheaf).id) (same : one.witnessId = other.witnessId) :
    Sha256.Collide (one.witnessKey sheaf).message (other.witnessKey sheaf).message := by
  rw [id, id'] at same
  rcases WitnessKey.id_eq_iff_same.mp same with alike | collision
  · exact absurd (witnessKey_eq_of_same alike) differ
  · exact collision

/-- A conflict of the glue has another key than one between two views, even where a view is named as
the stand-in for all: what all views render is not what one of them renders. -/
theorem OfGlue.witnessKey_ne (ofGlue : one.OfGlue sheaf all) (ofPair : other.OfPair sheaf complete)
    (held : ∀ entry ∈ complete, all.get? entry.1.name = some entry.2) :
    one.witnessKey sheaf ≠ other.witnessKey sheaf := by
  intro same
  obtain ⟨failures, -, expected⟩ := of_witnessKey_eq same
  rcases ofGlue.failure with unfaithful | ⟨-, whole⟩
  · rw [unfaithful] at failures
    rcases ofPair.failure with pair | pair
    · exact absurd (failures.trans pair) (by decide)
    · exact absurd (failures.trans pair) (by decide)
  · obtain ⟨target, mem, -, rendered⟩ := ofPair.target
    have circle : Value.ofFields all = target.2 := by rw [← whole, expected, rendered]
    exact Value.ofFields_ne (held target mem) circle

theorem OfGlue.witnessKey_ne_lossy {canonical : String} (ofGlue : one.OfGlue sheaf all)
    (ofLossy : other.OfLossy sheaf canonical) : one.witnessKey sheaf ≠ other.witnessKey sheaf := by
  intro same
  have failures := (of_witnessKey_eq same).1.trans ofLossy.failure
  rcases ofGlue.failure with glue | ⟨glue, -⟩
  · exact absurd (glue.symm.trans failures) (by decide)
  · exact absurd (glue.symm.trans failures) (by decide)

theorem OfPair.witnessKey_ne_lossy {canonical : String} (ofPair : one.OfPair sheaf complete)
    (ofLossy : other.OfLossy sheaf canonical) : one.witnessKey sheaf ≠ other.witnessKey sheaf := by
  intro same
  have failures := (of_witnessKey_eq same).1.trans ofLossy.failure
  rcases ofPair.failure with pair | pair
  · exact absurd (pair.symm.trans failures) (by decide)
  · exact absurd (pair.symm.trans failures) (by decide)

/-- Conflicts of one source and different targets have different keys. -/
theorem pairwise_witnessKey_ne (sheaf : String) {found : List Conflict} {source : String}
    (targets : (found.map Conflict.target).Nodup)
    (sources : ∀ conflict ∈ found, conflict.source = source) :
    found.Pairwise fun one other => one.witnessKey sheaf ≠ other.witnessKey sheaf := by
  refine (List.pairwise_map.mp targets).imp_of_mem fun {one other} mem mem' apart same => ?_
  obtain ⟨-, subjects, -⟩ := of_witnessKey_eq same
  rw [sources one mem, sources other mem'] at subjects
  have chars := congrArg String.toList subjects
  simp only [String.toList_append, List.append_cancel_left_eq] at chars
  exact apart (String.toList_inj.mp chars)

end Conflict

namespace CoherenceCheck

open Conflict

variable {m : Type → Type} [Monad m] [LawfulMonad m] [MonadAttach m] [LawfulMonadAttach m]

/-- A conflict is between two different complete views of a sheaf. -/
structure Between (sheaf : Sheaf m) (conflict : Conflict) : Prop where
  source : ∃ view ∈ sheaf.completeViews, view.name = conflict.source
  target : ∃ view ∈ sheaf.completeViews, view.name = conflict.target
  apart : conflict.source ≠ conflict.target

/-- The ids of a check are those of the keys, and where two of its conflicts have one key they are
between two different pairs of complete views. -/
theorem keys_of_check {checking : CoherenceCheck m} {sheaf : Sheaf m} {artifact : Value}
    {outcome : Coherence} (returned : CanReturn (checking.check sheaf artifact) outcome) :
    (∀ conflict ∈ outcome.list, conflict.witnessId = (conflict.witnessKey sheaf.name).id) ∧
      outcome.list.Pairwise fun one other =>
        one.witnessKey sheaf.name = other.witnessKey sheaf.name →
          Between sheaf one ∧ Between sheaf other ∧ one.views ≠ other.views := by
  obtain ⟨all, complete, ofGlue, ofPairs, ofLossy, whole, passes⟩ := passes_of_check returned
  have between (conflict : Conflict) (mem : conflict ∈ ofPairs) : Between sheaf conflict := by
    obtain ⟨-, -, ⟨source, inside, named⟩, ⟨target, inside', named', -⟩, apart⟩ :=
      passes.pairs conflict mem
    exact ⟨⟨source.1, (passes.held source inside).1, named⟩,
      ⟨target.1, (passes.held target inside').1, named'⟩, apart⟩
  rw [whole]
  constructor
  · intro conflict mem
    rcases List.mem_append.mp mem with mem | mem
    · rcases List.mem_append.mp mem with mem | mem
      · exact (passes.glue conflict mem).id
      · exact (passes.pairs conflict mem).id
    · exact (passes.lossy conflict mem).id
  -- only two conflicts between pairs of complete views may have one key
  · rw [List.pairwise_append, List.pairwise_append]
    refine ⟨⟨?_, ?_, ?_⟩, ?_, ?_⟩
    · have keys := pairwise_witnessKey_ne sheaf.name passes.glueTargets fun conflict mem =>
        (passes.glue conflict mem).source
      exact keys.imp fun differ same => absurd same differ
    · refine (List.pairwise_map.mp passes.pairViews).imp_of_mem fun {one other} mem mem' apart _ => ?_
      exact ⟨between one mem, between other mem', apart⟩
    · intro one mem other mem' same
      exact absurd same ((passes.glue one mem).witnessKey_ne (passes.pairs other mem')
        fun entry inside => (passes.held entry inside).2)
    · have keys := pairwise_witnessKey_ne sheaf.name passes.lossyTargets fun conflict mem =>
        (passes.lossy conflict mem).source
      exact keys.imp fun differ same => absurd same differ
    · intro one mem other mem' same
      rcases List.mem_append.mp mem with mem | mem
      · exact absurd same ((passes.glue one mem).witnessKey_ne_lossy (passes.lossy other mem'))
      · exact absurd same ((passes.pairs one mem).witnessKey_ne_lossy (passes.lossy other mem'))

/-! ## Names that are read back -/

/-- Joined by the arrow, the names of two different views show which they are. -/
def ReadBack (allowed : String → Prop) : Prop :=
  ∀ v w x y, allowed v → allowed w → allowed x → allowed y → v ≠ w → x ≠ y →
    s!"{v} -> {w}" = s!"{x} -> {y}" → v = x ∧ w = y

/-- A name that holds the arrow may be read in two ways. -/
example : "a" ++ " -> " ++ "a -> a" = "a -> a" ++ " -> " ++ "a" := by decide

theorem toList_joined (source target : String) : s!"{source} -> {target}".toList =
    (source.toList ++ [' ', '-']) ++ '>' :: ' ' :: target.toList := by
  rw [String.toList_append, String.toList_append, List.append_assoc, List.append_assoc]
  rfl

/-- Up to the first arrow's head stands a name that has none itself, with the start of the arrow. -/
theorem parted_joined {source : String} (free : '>' ∉ source.toList) (target : String) :
    s!"{source} -> {target}".toList.takeWhile (· != '>') = source.toList ++ [' ', '-'] ∧
      s!"{source} -> {target}".toList.dropWhile (· != '>') = '>' :: ' ' :: target.toList := by
  rw [toList_joined]
  refine parted (fun c mem => ?_) (by simp)
  have other : c ≠ '>' := by
    rintro rfl
    rcases List.mem_append.mp mem with mem | mem
    · exact free mem
    · simp at mem
  simpa using other

/-- Names without the arrow's head are read back. -/
theorem readBack_of_free : ReadBack fun name => '>' ∉ name.toList := by
  intro source target source' target' free _ free' _ _ _ same
  obtain ⟨before, behind⟩ := parted_joined free target
  obtain ⟨before', behind'⟩ := parted_joined free' target'
  rw [same] at before behind
  have sources := List.append_cancel_right (before.symm.trans before')
  have targets := (List.cons.inj (List.cons.inj (behind.symm.trans behind')).2).2
  exact ⟨String.toList_inj.mp sources, String.toList_inj.mp targets⟩

/-- A complete view that renders nothing. -/
def blank (name : String) : View Id := ⟨name, false, fun _ => pure .null⟩

/-- Blank views of given names, of which no artifact can be glued. -/
def unglued (names : List String) (distinct : names.Nodup) (canonical : String)
    (mem : canonical ∈ names) : Sheaf Id where
  name := "unglued"
  views := names.map blank
  canonical := blank canonical
  glue _ := pure none
  distinct := List.pairwise_map.mpr distinct
  canonical_mem := List.mem_map_of_mem mem
  canonical_complete := rfl

/-- An outline and notes, of which neither can be glued. -/
def outlined : Sheaf Id := unglued ["outline", "notes"] (by decide) "outline" (by decide)

theorem mem_completeViews_unglued {names : List String} {distinct : names.Nodup}
    {canonical : String} {listed : canonical ∈ names} {view : View Id} :
    view ∈ (unglued names distinct canonical listed).completeViews ↔
      ∃ name ∈ names, blank name = view := by
  constructor
  · intro mem
    exact List.mem_map.mp (List.mem_filter.mp mem).1
  · rintro ⟨name, mem, rfl⟩
    exact List.mem_filter.mpr ⟨List.mem_map_of_mem mem, rfl⟩

/-- Every pair of blank views is reported, with nothing expected and nothing found. -/
theorem mem_check_unglued (checking : CoherenceCheck Id) {names : List String}
    (distinct : names.Nodup) {canonical : String} (listed : canonical ∈ names)
    {source target : String} (mem : source ∈ names) (mem' : target ∈ names)
    (apart : source ≠ target) :
    ∃ conflict ∈ (checking.check (unglued names distinct canonical listed) .null).run.list,
      conflict.views = (source, target) ∧
        conflict.witnessKey "unglued" =
          key FailureClass.glueUndefined.name "unglued" source target .null .null := by
  have result := check_lifted (unglued names distinct canonical listed) .null checking
  rw [Sheaf.lifted_id, lossyConflicts_eq, map_pure] at result
  have pair : (blank source, blank target) ∈ (unglued names distinct canonical listed).pairs :=
    Sheaf.mem_pairs.mpr ⟨mem_completeViews_unglued.mpr ⟨source, mem, rfl⟩,
      mem_completeViews_unglued.mpr ⟨target, mem', rfl⟩, apart.symm⟩
  have reported : Conflict.of "unglued" .glueUndefined source target .null .null none
      s!"glue cannot reconstruct from view {source} alone" ∈
        (unglued names distinct canonical listed).pairFailures .null :=
    List.mem_filterMap.mpr ⟨(blank source, blank target), pair, rfl⟩
  have found : Conflict.of "unglued" .glueUndefined source target .null .null none
      s!"glue cannot reconstruct from view {source} alone" ∈
        (checking.check (unglued names distinct canonical listed) .null).run.list := by
    rw [result, Id.run_pure, Coherence.list_ofConflicts]
    exact List.mem_append_left _ (List.mem_append_right _ reported)
  exact ⟨_, found, rfl, rfl⟩

/-- Names of which two joins are the same text give a sheaf of blank views with two conflicts of one
key. -/
theorem readBack_of_keys_apart {allowed : String → Prop} (checking : CoherenceCheck Id)
    (apart : ∀ sheaf : Sheaf Id, (∀ view ∈ sheaf.completeViews, allowed view.name) →
      (checking.check sheaf .null).run.list.Pairwise fun one other =>
        one.witnessKey sheaf.name ≠ other.witnessKey sheaf.name) :
    ReadBack allowed := by
  intro v w x y allowV allowW allowX allowY differ differ' same
  by_contra notBoth
  -- two of the four names may be the same, as the names of one sheaf may not
  have among {name : String} (mem : name ∈ [v, w, x, y]) : name ∈ [v, w, x, y].dedup :=
    List.mem_dedup.mpr mem
  have distinct := List.nodup_dedup [v, w, x, y]
  have listed : v ∈ [v, w, x, y].dedup := among List.mem_cons_self
  have keys := apart (unglued _ distinct v listed) (by
    intro view mem
    obtain ⟨name, inside, rfl⟩ := mem_completeViews_unglued.mp mem
    have listed := List.mem_dedup.mp inside
    simp only [List.mem_cons, List.not_mem_nil, or_false] at listed
    rcases listed with rfl | rfl | rfl | rfl
    all_goals assumption)
  obtain ⟨one, mem, shown, ofOne⟩ := mem_check_unglued checking distinct listed listed
    (among (by simp)) differ
  obtain ⟨other, mem', shown', ofOther⟩ := mem_check_unglued checking distinct listed
    (among (by simp)) (among (by simp)) differ'
  have views : one ≠ other := by
    rintro rfl
    exact notBoth (Prod.mk.inj (shown.symm.trans shown'))
  have symmetric (sheaf : String) : Std.Symm fun one other : Conflict =>
      one.witnessKey sheaf ≠ other.witnessKey sheaf := ⟨fun _ _ => Ne.symm⟩
  refine keys.forall mem mem' views ?_
  have shared : key FailureClass.glueUndefined.name "unglued" v w .null .null =
      key FailureClass.glueUndefined.name "unglued" x y .null .null := by
    unfold key
    rw [same]
  exact ofOne.trans (shared.trans ofOther.symm)

/-- Two conflicts of one key are between two pairs of views whose names are joined to one text. -/
theorem keys_apart_of_readBack {allowed : String → Prop} (readBack : ReadBack allowed)
    {checking : CoherenceCheck m} {sheaf : Sheaf m} {artifact : Value} {outcome : Coherence}
    (allow : ∀ view ∈ sheaf.completeViews, allowed view.name)
    (returned : CanReturn (checking.check sheaf artifact) outcome) :
    outcome.list.Pairwise fun one other =>
      one.witnessKey sheaf.name ≠ other.witnessKey sheaf.name := by
  refine (keys_of_check returned).2.imp fun {one other} unique same => ?_
  obtain ⟨first, second, views⟩ := unique same
  obtain ⟨⟨v, inside, named⟩, ⟨w, inside', named'⟩, apart⟩ := first
  obtain ⟨⟨x, within, called⟩, ⟨y, within', called'⟩, apart'⟩ := second
  obtain ⟨sources, targets⟩ := readBack one.source one.target other.source other.target
    (named ▸ allow v inside) (named' ▸ allow w inside') (called ▸ allow x within)
    (called' ▸ allow y within') apart apart' (of_witnessKey_eq same).2.1
  exact views (Prod.ext sources targets)

/-- Whatever names a rule allows for complete views, the conflicts of one check are told apart by their
keys, and so by their ids unless the hash has one value for two keys, just if the rule allows only
names that are read back when two of them are joined by the arrow. -/
theorem conflicts_told_apart_iff_read_back (allowed : String → Prop) :
    (∀ (m : Type → Type) [Monad m] [LawfulMonad m] [MonadAttach m] [LawfulMonadAttach m]
      (checking : CoherenceCheck m) (sheaf : Sheaf m) (artifact : Value) (outcome : Coherence),
      (∀ view ∈ sheaf.completeViews, allowed view.name) →
        CanReturn (checking.check sheaf artifact) outcome →
          outcome.list.Pairwise fun one other =>
            one.witnessKey sheaf.name ≠ other.witnessKey sheaf.name ∧
              (one.witnessId = other.witnessId → Sha256.Collide
                (one.witnessKey sheaf.name).message (other.witnessKey sheaf.name).message)) ↔
      ReadBack allowed := by
  constructor
  · intro apart
    have checking : CoherenceCheck Id := ⟨{}, .exact⟩
    refine readBack_of_keys_apart checking fun sheaf allow => ?_
    exact (apart Id checking sheaf .null _ allow rfl).imp fun told => told.1
  · intro readBack m _ _ _ _ checking sheaf artifact outcome allow returned
    obtain ⟨ids, -⟩ := keys_of_check returned
    refine (keys_apart_of_readBack readBack allow returned).imp_of_mem
      fun {one other} mem mem' differ => ?_
    exact ⟨differ, collide_of_witnessId_eq differ (ids one mem) (ids other mem')⟩

/-- Two blank views with plain names are told apart in all three conflicts that they are in. -/
theorem conflicts_told_apart_iff_read_back_plain :
    ('>' ∉ "outline".toList ∧ '>' ∉ "notes".toList) ∧
      ((check ⟨{}, .exact⟩ outlined .null).run.list.map Conflict.views =
        [("*", "outline"), ("outline", "notes"), ("notes", "outline")]) ∧
      (check ⟨{}, .exact⟩ outlined .null).run.list.Pairwise fun one other =>
        one.witnessKey outlined.name ≠ other.witnessKey outlined.name ∧
          (one.witnessId = other.witnessId → Sha256.Collide
            (one.witnessKey outlined.name).message (other.witnessKey outlined.name).message) := by
  refine ⟨by decide, rfl, ?_⟩
  refine (conflicts_told_apart_iff_read_back fun name => '>' ∉ name.toList).mpr readBack_of_free
    Id ⟨{}, .exact⟩ outlined .null _ ?_ rfl
  intro view mem
  obtain ⟨name, inside, rfl⟩ := mem_completeViews_unglued.mp mem
  have plain : ∀ name ∈ ["outline", "notes"], '>' ∉ name.toList := by decide
  exact plain name inside

end CoherenceCheck

end AgentAlgebra

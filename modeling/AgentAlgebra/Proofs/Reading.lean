import AgentAlgebra.Proofs.Construction
import AgentAlgebra.Proofs.Trees
import AgentAlgebra.Proofs.WellFormed
/-!
# Reading a tree off its name

Where the operations and the agents at the leaves have names without brackets and commas, the name of a
composite can be read in one way only: two trees of operations whose values have one name are one
tree.
-/

namespace AgentAlgebra

/-- The characters that mark the structure of a name. -/
def marks : List Char := ['(', ')', ',']

/-- A name in which no mark occurs. -/
def Plain (name : String) : Prop := ∀ c ∈ name.toList, c ∉ marks

instance (name : String) : Decidable (Plain name) := List.decidableBAll (· ∉ marks) name.toList

/-- What may stand behind the name of an operand: nothing, the next operand or the end of the list. -/
def Ends (rest : List Char) : Prop := ∀ c ∈ rest.head?, c = ',' ∨ c = ')'

/-- The first text is never taken for the second where an operand may end, unless they are one. -/
def ToldApart (text text' : List Char) : Prop :=
  ∀ rest rest', Ends rest → Ends rest' → text ++ rest = text' ++ rest' → text = text'

theorem ends_nil : Ends [] := nofun

theorem ends_comma (rest : List Char) : Ends (',' :: rest) := by
  rintro _ ⟨⟩
  exact .inl rfl

theorem ends_close (rest : List Char) : Ends (')' :: rest) := by
  rintro _ ⟨⟩
  exact .inr rfl

theorem toList_applied_append (operation : String) (operands : List String) (rest : List Char) :
    (applied operation operands).toList ++ rest =
      operation.toList ++
        '(' :: (separated [',', ' '] (operands.map String.toList) ++ ')' :: rest) := by
  simp [applied, joinTexts]

section

variable {one other : String} {rest rest' : List Char}

theorem takeWhile_plain (plain : Plain one) (marked : ∀ c ∈ rest.head?, c ∈ marks) :
    (one.toList ++ rest).takeWhile (· ∉ marks) = one.toList := by
  have none : rest.takeWhile (· ∉ marks) = [] := by
    cases rest with
    | nil => rfl
    | cons c rest =>
      have mark : c ∈ marks := marked c rfl
      rw [List.takeWhile_cons_of_neg (by simpa using mark)]
  have all (c : Char) (among : c ∈ one.toList) : decide (c ∉ marks) = true :=
    decide_eq_true (plain c among)
  rw [List.takeWhile_append_of_pos all, none, List.append_nil]

/-- A plain name in front of a mark or of nothing is known by where it ends. -/
theorem plain_append_inj (plain : Plain one) (plain' : Plain other)
    (marked : ∀ c ∈ rest.head?, c ∈ marks) (marked' : ∀ c ∈ rest'.head?, c ∈ marks)
    (same : one.toList ++ rest = other.toList ++ rest') : one = other ∧ rest = rest' := by
  have front : one.toList = other.toList := by
    rw [← takeWhile_plain plain marked, same, takeWhile_plain plain' marked']
  rw [front] at same
  exact ⟨String.toList_inj.mp front, List.append_cancel_left same⟩

theorem Ends.marked (ends : Ends rest) : ∀ c ∈ rest.head?, c ∈ marks := by
  intro c first
  rcases ends c first with rfl | rfl
  · decide
  · decide

theorem marked_open : ∀ c ∈ ('(' :: rest).head?, c ∈ marks := by
  rintro _ ⟨⟩
  decide

/-- A plain name is not taken for an application, which has a bracket where the name ends. -/
theorem plain_ne_applied {operands : List String} (plain : Plain one) (plain' : Plain other)
    (ends : Ends rest) : one.toList ++ rest ≠ (applied other operands).toList ++ rest' := by
  intro same
  rw [toList_applied_append] at same
  obtain ⟨-, behind⟩ := plain_append_inj plain plain' ends.marked marked_open same
  subst behind
  exact absurd (ends _ rfl) (by decide)

/-- Two lists of operands that are told apart one by one are told apart as they are written, up to the
bracket behind the last. -/
theorem separated_inj {texts texts' : List (List Char)} (each : List.Forall₂ ToldApart texts texts')
    (same : separated [',', ' '] texts ++ ')' :: rest = separated [',', ' '] texts' ++ ')' :: rest') :
    texts = texts' := by
  induction each with
  | nil => rfl
  | @cons text text' texts texts' apart others ih =>
    cases others with
    | nil =>
      obtain rfl := apart _ _ (ends_close _) (ends_close _) same
      rfl
    | cons next later =>
      simp only [separated, List.append_assoc, List.cons_append, List.nil_append] at same ih
      obtain rfl := apart _ _ (ends_comma _) (ends_comma _) same
      have behind := List.append_cancel_left same
      rw [ih (List.cons.inj (List.cons.inj behind).2).2]

end

variable {m : Type → Type}

/-- What a built-in operation makes is named after it and its operands. -/
theorem Builtin.name_of_compose {builtin : Builtin m} {agents : List (Agent m)} {agent : Agent m}
    (made : builtin.compose agents = .ok agent) :
    agent.name = applied builtin.name (agents.map Agent.name) := by
  unfold Builtin.compose at made
  split at made
  · obtain ⟨-, rfl⟩ := Agent.inSequence_eq_ok.mp made
    rfl
  · obtain ⟨_, -, rfl⟩ := Agent.inParallel_eq_ok.mp made
    rfl
  · obtain ⟨-, _, -, _, -, _, -, rfl⟩ := Agent.branching_eq_ok.mp made
    rfl
  · obtain ⟨-, -, rfl⟩ := Agent.retrying_eq_ok.mp made
    rfl
  · obtain rfl := Except.ok.inj made
    rfl
  · exact nomatch made

/-- Where names differ, a name tells the place of an agent. -/
theorem index_eq_of_name {agents : List (Agent m)} {agent agent' : Agent m} {index index' : Nat}
    (distinct : (agents.map Agent.name).Nodup) (bound : agents[index]? = some agent)
    (bound' : agents[index']? = some agent') (same : agent.name = agent'.name) :
    index = index' := by
  have within : index < (agents.map Agent.name).length := by
    rw [List.length_map]
    exact (List.getElem?_eq_some_iff.mp bound).1
  refine (List.getElem?_inj within distinct).mp ?_
  rw [List.getElem?_map, List.getElem?_map, bound, bound', Option.map_some, Option.map_some, same]

variable [Monad m]

/-- The operations of an algebra have different plain names, and each names what it makes after itself
and its operands. -/
structure Algebra.Legible (algebra : Algebra m) : Prop where
  distinct : (algebra.operations.map Operation.name).Nodup
  plain : ∀ operation ∈ algebra.operations, Plain operation.name
  named : ∀ operation ∈ algebra.operations, ∀ {agents agent}, operation.Makes agents agent →
    agent.name = applied operation.name (agents.map Agent.name)

theorem Algebra.legible_baseWith (policy : RetryPolicy m) : (baseWith policy).Legible where
  distinct := (wellFormed_baseWith policy).operations
  plain := by
    have names : (baseWith policy).operations.map Operation.name =
        ["seq", "par", "branch", "fix", "observe"] := rfl
    have plain : ∀ name ∈ ["seq", "par", "branch", "fix", "observe"], Plain name := by decide
    intro operation among
    exact plain _ (names ▸ List.mem_map_of_mem among)
  named := by
    intro operation among agents agent made
    obtain ⟨builtin, -, rfl⟩ := List.mem_map.mp among
    exact Builtin.name_of_compose made.2

namespace Composes

variable {algebra : Algebra m} {primitives : List (Agent m)} {tree tree' : Expr m}
  {agent agent' : Agent m} {rest rest' : List Char}

/-- The value of a tree is named by the text of the tree. -/
theorem name_eq (legible : algebra.Legible) (composed : Composes algebra primitives tree agent) :
    agent.name = tree.textWith (nameBound primitives) := by
  induction composed with
  | leaf bound => simp only [Expr.textWith, nameBound, bound]
  | node among _ made ih =>
    rw [legible.named _ among made, List.map_ofFn, Expr.textWith]
    congr 2
    exact funext ih

variable (legible : algebra.Legible) (distinct : (primitives.map Agent.name).Nodup)
  (plain : ∀ primitive ∈ primitives, Plain primitive.name)
include legible distinct plain

/-- Trees whose values are written alike, up to where an operand may end, are one tree. The induction
is on the first tree; both texts show by their first mark whether there is a leaf or a node. -/
theorem read (one : Composes algebra primitives tree agent)
    (two : Composes algebra primitives tree' agent') (ends : Ends rest) (ends' : Ends rest')
    (same : agent.name.toList ++ rest = agent'.name.toList ++ rest') : tree = tree' := by
  induction one generalizing tree' agent' rest rest' with
  | leaf bound =>
    have leaf := plain _ (List.mem_of_getElem? bound)
    cases two with
    | leaf bound' =>
      have leaf' := plain _ (List.mem_of_getElem? bound')
      have names := (plain_append_inj leaf leaf' ends.marked ends'.marked same).1
      rw [index_eq_of_name distinct bound bound' names]
    | node among _ made =>
      rw [legible.named _ among made] at same
      exact absurd same (plain_ne_applied leaf (legible.plain _ among) ends)
  | @node operation count operand agents agent among operands made ih =>
    cases two with
    | leaf bound =>
      have leaf := plain _ (List.mem_of_getElem? bound)
      rw [legible.named _ among made] at same
      exact absurd same.symm (plain_ne_applied leaf (legible.plain _ among) ends')
    | @node operation' count' operand' agents' agent' among' operands' made' =>
      rw [legible.named _ among made, legible.named _ among' made', toList_applied_append,
        toList_applied_append, List.map_ofFn, List.map_ofFn, List.map_ofFn, List.map_ofFn] at same
      obtain ⟨names, inside⟩ := plain_append_inj (legible.plain _ among) (legible.plain _ among')
        marked_open marked_open same
      obtain rfl := List.inj_on_of_nodup_map legible.distinct among among' names
      have counts := made.1.trans made'.1.symm
      rw [List.length_ofFn, List.length_ofFn] at counts
      subst counts
      -- Operands that are written alike are one tree, so they have one name wherever they end.
      have apart (i : Fin count) : ToldApart (agents i).name.toList (agents' i).name.toList := by
        intro s s' ends ends' alike
        have one := ih i (operands' i) ends ends' alike
        rw [(operands i).name_eq legible, (operands' i).name_eq legible, one]
      have each : List.Forall₂ ToldApart (List.ofFn (String.toList ∘ Agent.name ∘ agents))
          (List.ofFn (String.toList ∘ Agent.name ∘ agents')) := by
        rw [List.ofFn_eq_map, List.ofFn_eq_map, List.forall₂_map_left_iff,
          List.forall₂_map_right_iff, List.forall₂_same]
        exact fun i _ => apart i
      have texts := List.ofFn_inj.mp (separated_inj each (List.cons.inj inside).2)
      have trees (i : Fin count) : operand i = operand' i := by
        refine ih i (operands' i) ends_nil ends_nil ?_
        rw [List.append_nil, List.append_nil]
        exact congrFun texts i
      rw [funext trees]

/-- Two trees whose values have one name are one tree. -/
theorem tree_eq_of_name (one : Composes algebra primitives tree agent)
    (two : Composes algebra primitives tree' agent') (same : agent.name = agent'.name) :
    tree = tree' :=
  one.read legible distinct plain two ends_nil ends_nil (by rw [same])

end Composes

end AgentAlgebra

import AgentAlgebra.Proofs.PlainRounds
/-!
# Depth and cap only cut short

Without a cap the agents known after more rounds begin with those known after fewer, `reached`. What
the enumeration gives within a depth and a cap is the front of this one list up to the cap, wherever
in a round the cap may fall; so all its results are fronts of each other.
-/

namespace AgentAlgebra

namespace Enumeration

variable {m : Type → Type}

/-- The agents known after a number of rounds that are not cut short. -/
def reached (attempt : Operation m → List (Agent m) → Option (Agent m))
    (operations : List (Operation m)) (primitives : List (Agent m)) (depth : Nat) : List (Agent m) :=
  (wholeRound attempt operations)^[depth] (appendAll [] primitives)

variable {attempt : Operation m → List (Agent m) → Option (Agent m)}
  {operations : List (Operation m)} {known primitives : List (Agent m)}
  {depth depth' cap cap' : Nat}

/-- A round up to the cap, from as much as is kept under the cap, keeps the front of the whole round. -/
theorem plainRound_take :
    plainRound attempt operations cap (known.take cap) =
      (wholeRound attempt operations known).take cap := by
  by_cases room : known.length ≤ cap
  · rw [List.take_of_length_le room, plainRound]
  · have more : cap ≤ known.length := Nat.le_of_not_le room
    have full : (known.take cap).length = cap := List.length_take_of_le more
    obtain ⟨new, grown⟩ : known <+: wholeRound attempt operations known := prefix_appendAll
    rw [plainRound, wholeRound, take_appendAll_of_full full, ← grown,
      List.take_append_of_le_length more]

theorem iterate_plainRound_take (depth : Nat) :
    (plainRound attempt operations cap)^[depth] (known.take cap) =
      ((wholeRound attempt operations)^[depth] known).take cap := by
  induction depth generalizing known with
  | zero => rfl
  | succ depth ih => rw [Function.iterate_succ_apply, plainRound_take, ih, Function.iterate_succ_apply]

theorem prefix_reached (deeper : depth ≤ depth') :
    reached attempt operations primitives depth <+: reached attempt operations primitives depth' := by
  induction deeper with
  | refl => exact List.prefix_rfl
  | step _ ih =>
    refine ih.trans ?_
    rw [reached, reached, Function.iterate_succ_apply']
    exact prefix_appendAll

theorem nodup_reached : ((reached attempt operations primitives depth).map Agent.name).Nodup := by
  induction depth with
  | zero => exact nodup_appendAll List.nodup_nil
  | succ depth ih =>
    rw [reached, Function.iterate_succ_apply', ← reached]
    exact nodup_appendAll ih

variable [Monad m] [LawfulMonad m] {algebra : Algebra m}

/-- The enumeration gives the front, up to the cap, of what is reached without one. -/
theorem enumerate_eq_take (builds : algebra.BuildsBy attempt) (primitives : List (Agent m))
    (depth cap : Nat) :
    enumerate algebra primitives depth cap =
      pure ((reached attempt algebra.operations primitives depth).take cap).toArray := by
  rw [enumerate, rounds_eq_iterate builds (size_start_le primitives) .start, toList_start,
    iterate_plainRound_take, reached]

/-- The enumeration gives no more agents than the cap allows, of which no two have one name. With a
greater depth and a greater cap it begins with the same agents; and where only the cap is greater, what
it gave under the lower one is just the front of what it gives, as long as the lower cap allows. -/
theorem enumerate_truncates (builds : algebra.BuildsBy attempt) (primitives : List (Agent m))
    (deeper : depth ≤ depth') (wider : cap ≤ cap') :
    ∃ found wide further : List (Agent m),
      enumerate algebra primitives depth cap = pure found.toArray ∧
      enumerate algebra primitives depth cap' = pure wide.toArray ∧
      enumerate algebra primitives depth' cap' = pure further.toArray ∧
      found.length ≤ cap ∧ (found.map Agent.name).Nodup ∧ found <+: further ∧
      found = wide.take (min cap wide.length) := by
  have among (depth) := enumerate_eq_take builds primitives depth
  refine ⟨_, _, _, among depth cap, among depth cap', among depth' cap', ?_, ?_, ?_, ?_⟩
  · exact List.length_take_le cap _
  · exact nodup_reached.sublist ((List.take_sublist cap _).map Agent.name)
  · refine List.prefix_take_iff.mpr ⟨(List.take_prefix cap _).trans (prefix_reached deeper), ?_⟩
    exact Nat.le_trans (List.length_take_le cap _) wider
  · rw [List.take_take, List.take_eq_take_iff, List.length_take]
    omega

/-- Under a lower cap, which falls within the second round, the enumeration of fewer rounds gives the
front of what it gives under the higher cap. -/
theorem enumerate_truncates_mid_round :
    2 ≤ 3 ∧ 6 ≤ 9 ∧ ∃ found wide further : List (Agent Id),
      enumerate withNothing [.id .number, .id .text] 2 6 = pure found.toArray ∧
      enumerate withNothing [.id .number, .id .text] 2 9 = pure wide.toArray ∧
      enumerate withNothing [.id .number, .id .text] 3 9 = pure further.toArray ∧
      found.map Agent.name = ["id", "const(null)", "seq(id, id)", "observe(id)",
        "seq(id, const(null))", "seq(id, seq(id, id))"] ∧
      found <+: further ∧ found = wide.take (min 6 wide.length) := by
  obtain ⟨found, wide, further, few, more, deep, -, -, front, taken⟩ :=
    enumerate_truncates withNothing.buildsBy_built? [.id .number, .id .text]
      (by decide : 2 ≤ 3) (by decide : 6 ≤ 9)
  have found_eq : found = (Id.run (enumerate withNothing [.id .number, .id .text] 2 6)).toList :=
    congrArg Array.toList few.symm
  refine ⟨by decide, by decide, found, wide, further, few, more, deep, ?_, front, taken⟩
  rw [found_eq]
  decide +kernel

end Enumeration

end AgentAlgebra

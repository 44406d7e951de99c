import Shadows.Rpc.TopicLoops
import Shadows.Rpc.Proofs.LogsProofs

/-!
# Proofs: the loops of `filter_topics` end without a panic

The inner loop drops the wildcards at the end. It leaves at most as many items as the log has topics, or
the flat topic is not replaced, so that no wildcard is looked up beyond the topics of the log.
-/

namespace Shadows.Rpc.FilteredParams

open Foundations

/-! ## The wildcards at the end -/

theorem shrinkTurn_concat_none (multi : List (Option H256)) :
    shrinkTurn (multi ++ [none]) = .next multi := by
  unfold shrinkTurn
  rw [List.getLast?_concat, List.dropLast_concat]
  rfl

theorem shrinkTurn_concat_some (multi : List (Option H256)) (t : H256) :
    shrinkTurn (multi ++ [some t]) = .exit (multi ++ [some t]) := by
  unfold shrinkTurn
  rw [List.getLast?_concat]
  rfl

/-- The inner loop ends within a turn for each item and one more. -/
theorem loop_shrinkTurn {multi : List (Option H256)} {turns : ℕ} (h : multi.length < turns) :
    loop shrinkTurn turns multi = some (multi.rdropWhile Option.isNone) := by
  refine loop_eq_of_variant shrinkTurn (List.rdropWhile Option.isNone) List.length ?_ turns multi h
  intro multi
  cases multi using List.reverseRecOn with
  | nil => exact .inr rfl
  | append_singleton multi item =>
    cases item with
    | none =>
      refine .inl ⟨multi, shrinkTurn_concat_none multi, ?_, ?_⟩
      · exact (List.rdropWhile_concat_pos _ _ _ rfl).symm
      · rw [List.length_append]
        exact Nat.lt_succ_self _
    | some t =>
      rw [List.rdropWhile_concat_neg _ _ _ (by simp)]
      exact .inr (shrinkTurn_concat_some multi t)

/-! ## The flat topics -/

theorem length_le_longestTopic {flatTopics : List FlatTopic} {multi : List (Option H256)}
    (h : .multiple multi ∈ flatTopics) : multi.length ≤ longestTopic flatTopics := by
  induction flatTopics with
  | nil => exact absurd h List.not_mem_nil
  | cons topic flatTopics ih =>
    rcases List.mem_cons.1 h with rfl | h
    · exact le_max_left _ _
    · exact (ih h).trans (le_max_right _ _)

/-- With enough turns, the loop over the flat topics decides what `filter_topics` answers. -/
theorem loop_filterTopicsTurn {log : Log} {turns : ℕ} (flatTopics : List FlatTopic) :
    ∀ {turns' : ℕ} {out : Bool}, flatTopics.length < turns' →
      (∀ multi, .multiple multi ∈ flatTopics → multi.length < turns) →
      loop (filterTopicsTurn log turns) turns' (flatTopics, out) =
        some (filterTopicsLoop log flatTopics out) := by
  induction flatTopics with
  | nil =>
    intro turns' out hlength _
    obtain ⟨turns', rfl⟩ := Nat.exists_eq_add_one_of_ne_zero (Nat.ne_of_gt hlength)
    rfl
  | cons topic rest ih =>
    intro turns' out hlength hturns
    obtain ⟨turns', rfl⟩ := Nat.exists_eq_add_one_of_ne_zero (Nat.ne_of_gt (Nat.zero_lt_of_lt hlength))
    have hrest : rest.length < turns' := Nat.lt_of_succ_lt_succ hlength
    have hturns' : ∀ multi, .multiple multi ∈ rest → multi.length < turns :=
      fun multi h => hturns multi (List.mem_cons_of_mem _ h)
    cases topic with
    | single value =>
      cases value with
      | none => exact ih hrest hturns'
      | some single => exact ih hrest hturns'
    | null => exact ih hrest hturns'
    | multiple multi =>
      have hshrink := loop_shrinkTurn (hturns multi List.mem_cons_self)
      rw [loop, filterTopicsTurn, hshrink, filterTopicsLoop]
      dsimp only
      split_ifs with hbeyond
      · rfl
      · cases hreplace : replace log (.multiple (multi.rdropWhile Option.isNone)) with
        | none => rfl
        | some replaced =>
          cases replaced with
          | none => exact ih hrest hturns'
          | some replaced =>
            dsimp only
            split_ifs with hprefix
            · rfl
            · exact ih hrest hturns'

/-- The loops refine `filter_topics`. -/
theorem filterTopicsWithin_eq (params : FilteredParams) (log : Log) {turns : ℕ}
    (h : params.flatTopics.length + longestTopic params.flatTopics < turns) :
    params.filterTopicsWithin log turns = params.filterTopics log := by
  have hloop : loop (filterTopicsTurn log turns) turns (params.flatTopics, true) = _ :=
    loop_filterTopicsTurn params.flatTopics (by omega) fun multi hmulti => by
      have hle := length_le_longestTopic hmulti
      omega
  unfold filterTopicsWithin
  rw [hloop]
  rfl

/-- **Log matching never panics.** The loops of `filter_topics` end with an answer, and where a flat
topic is replaced, its wildcards are at positions of the topics of the log. -/
theorem filterTopics_safe (filter : Option Filter) (log : Log) :
    (∃ turns out, ∀ turns' ≥ turns, (new filter).filterTopicsWithin log turns' = some out) ∧
    ∀ multi newMulti turns, .multiple multi ∈ (new filter).flatTopics →
      loop shrinkTurn turns multi = some newMulti → ¬ log.topics.length < newMulti.length →
      ∀ k, newMulti[k]? = some none → k < log.topics.length := by
  constructor
  · obtain ⟨out, hout⟩ := Option.isSome_iff_exists.1 (filterTopics_isSome (new filter) log)
    refine ⟨(new filter).flatTopics.length + longestTopic (new filter).flatTopics + 1, out,
      fun turns' hturns => ?_⟩
    rw [filterTopicsWithin_eq _ _ hturns, hout]
  · intro multi newMulti turns _ _ hwithin k hk
    obtain ⟨hlt, -⟩ := List.getElem?_eq_some_iff.1 hk
    omega

end Shadows.Rpc.FilteredParams

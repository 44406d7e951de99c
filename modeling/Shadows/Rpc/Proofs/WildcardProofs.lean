import Shadows.Rpc.Proofs.TopicMatchingProofs

/-!
# Proofs: when `null` among alternatives is a wildcard

What one slot contributes to the decision of `filter_topics`, next to the other slots. A slot with
`null` alone contributes nothing.
-/

namespace Shadows.Rpc

open FilteredParams

section Insert

variable {b a : List Slot} {s : Slot}

theorem exists_mem_insert {P : Slot → Prop} :
    (∃ r ∈ b ++ s :: a, P r) ↔ P s ∨ ∃ r ∈ b ++ a, P r := by
  simp only [List.mem_append, List.mem_cons, or_and_right, exists_or, exists_eq_left]
  exact or_left_comm

theorem forall_mem_insert {P : Slot → Prop} :
    (∀ r ∈ b ++ s :: a, P r) ↔ P s ∧ ∀ r ∈ b ++ a, P r := by
  simp only [List.forall_mem_append, List.forall_mem_cons]
  exact and_left_comm

theorem firsts_insert : firsts (b ++ s :: a) =
    firsts b ++ { s with alternatives := s.alternatives.take 1 } :: firsts a := by
  unfold firsts
  rw [List.map_append, List.map_cons]

theorem firsts_append : firsts (b ++ a) = firsts b ++ firsts a := List.map_append

theorem reaches_insert : Reaches (b ++ s :: a) ↔
    (s.logTopic = none ∧ ∃ t, some t ∈ s.alternatives) ∨ Reaches (b ++ a) := exists_mem_insert

theorem bare_insert : Bare (b ++ s :: a) ↔
    (∀ r ∈ s.alternatives, r = none) ∧ Bare (b ++ a) := forall_mem_insert

theorem fits_insert : Fits (b ++ s :: a) ↔
    (none ∈ s.alternatives ∨ s.logTopic ∈ s.alternatives) ∧ Fits (b ++ a) := forall_mem_insert

theorem hits_insert : Hits (b ++ s :: a) ↔
    (∃ x, s.logTopic = some x ∧ some x ∈ s.alternatives) ∨ Hits (b ++ a) := exists_mem_insert

/-- What a slot contributes to the decision. -/
theorem passes_insert : Passes (b ++ s :: a) ↔
    (s.alternatives = [] ∨ ∃ r ∈ b ++ a, r.alternatives = []) ∨
      ¬ ((s.logTopic = none ∧ ∃ t, some t ∈ s.alternatives.take 1) ∨ Reaches (firsts (b ++ a))) ∧
      ((s.logTopic = none ∧ ∃ t, some t ∈ s.alternatives) ∨ Reaches (b ++ a) →
        ((none ∈ s.alternatives.take 1 ∨ s.logTopic ∈ s.alternatives.take 1) ∧
          Fits (firsts (b ++ a))) ∧
        ((∃ x, s.logTopic = some x ∧ some x ∈ s.alternatives.take 1) ∨ Hits (firsts (b ++ a)))) ∧
      (¬ ((s.logTopic = none ∧ ∃ t, some t ∈ s.alternatives) ∨ Reaches (b ++ a)) →
        ((∀ r ∈ s.alternatives, r = none) ∧ Bare (b ++ a)) ∨
        ((none ∈ s.alternatives ∨ s.logTopic ∈ s.alternatives) ∧ Fits (b ++ a)) ∧
          ((∃ x, s.logTopic = some x ∧ some x ∈ s.alternatives) ∨ Hits (b ++ a))) := by
  unfold Passes
  rw [exists_mem_insert, firsts_insert, reaches_insert, reaches_insert, bare_insert, fits_insert,
    fits_insert, hits_insert, hits_insert, firsts_append]

end Insert

/-! ## Other slots -/

section Others

variable {ss : List Slot}

theorem Bare.not_hits (h : Bare ss) : ¬ Hits ss := by
  rintro ⟨s, hs, x, -, hx⟩
  cases h s hs _ hx

theorem Bare.fits (hne : ¬ ∃ s ∈ ss, s.alternatives = []) (h : Bare ss) : Fits ss := by
  intro s hs
  obtain ⟨a, rest, hrest⟩ := List.exists_cons_of_ne_nil fun hempty => hne ⟨s, hs, hempty⟩
  have ha := h s hs a (hrest ▸ List.mem_cons_self)
  left
  rw [hrest, ha]
  exact List.mem_cons_self

end Others

/-- A slot with nothing but `null` contributes nothing. -/
theorem passes_null {b a : List Slot} {x : Option H256} {alternatives : List (Option H256)}
    (hnone : none ∈ alternatives) (hnull : ∀ r ∈ alternatives, r = none) :
    Passes (b ++ ⟨x, alternatives⟩ :: a) ↔ Passes (b ++ a) := by
  obtain ⟨first, rest, rfl⟩ := List.exists_cons_of_ne_nil (List.ne_nil_of_mem hnone)
  obtain rfl : first = none := hnull first List.mem_cons_self
  have htopic : ∀ t, some t ∉ none :: rest := fun t ht => Option.some_ne_none t (hnull _ ht)
  have hempty : ¬ none :: rest = [] := List.cons_ne_nil _ _
  rw [passes_insert]
  unfold Passes
  simp only [hempty, hnone, htopic, and_iff_right hnull, List.take_one, List.head?_cons,
    Option.toList_some, List.mem_singleton, reduceCtorEq, exists_false, and_false, false_or,
    true_or, true_and]

/-- A slot without alternatives makes every log pass. -/
theorem passes_empty {b a : List Slot} {x : Option H256} : Passes (b ++ ⟨x, []⟩ :: a) :=
  Or.inl ⟨_, List.mem_append_right b List.mem_cons_self, rfl⟩

/-- What alternatives with `null` contribute. -/
theorem passes_with_null {b a : List Slot} {x : Option H256} {alternatives : List (Option H256)}
    (hnone : none ∈ alternatives) :
    (Passes (b ++ ⟨x, alternatives⟩ :: a) ↔ Passes (b ++ a)) ↔
      AsGoodAsNull x alternatives (b ++ a) := by
  by_cases hempty : ∃ r ∈ b ++ a, r.alternatives = []
  · have hpasses : Passes (b ++ a) := Or.inl hempty
    have hpasses' : Passes (b ++ ⟨x, alternatives⟩ :: a) := by
      rw [passes_insert]
      exact Or.inl (Or.inr hempty)
    exact iff_of_true (iff_of_true hpasses' hpasses) (Or.inl hempty)
  by_cases hnull : ∀ r ∈ alternatives, r = none
  · exact iff_of_true (passes_null hnone hnull) (Or.inr (Or.inr (Or.inl hnull)))
  have hhits : Bare (b ++ a) → ¬ Hits (b ++ a) := Bare.not_hits
  have hfits : Bare (b ++ a) → Fits (b ++ a) := Bare.fits hempty
  have htopic : ∃ t, some t ∈ alternatives := by
    by_contra hno
    refine hnull fun r hr => ?_
    cases r with
    | none => rfl
    | some t => exact absurd ⟨t, hr⟩ hno
  obtain ⟨first, rest, rfl⟩ := List.exists_cons_of_ne_nil (List.ne_nil_of_mem hnone)
  rw [passes_insert]
  unfold AsGoodAsNull Passes
  -- what is left is a matter of the truth values of the other slots
  generalize Bare (b ++ a) = bare at hhits hfits ⊢
  generalize Fits (b ++ a) = fits at hfits ⊢
  generalize Hits (b ++ a) = hits at hhits ⊢
  generalize Reaches (b ++ a) = reaches
  generalize Reaches (firsts (b ++ a)) = reachesFirst
  generalize Fits (firsts (b ++ a)) = fitsFirst
  generalize Hits (firsts (b ++ a)) = hitsFirst
  simp only [List.take_one, List.head?_cons, Option.toList_some, List.mem_singleton, hnull, htopic,
    hnone, hempty, reduceCtorEq, or_self, false_or, true_or, and_true, true_and, false_and]
  cases x with
  | none =>
    cases first with
    | none => grind
    | some t => grind
  | some x => grind

/-! ## Filters -/

theorem slotsFrom_cons (topics : List H256) (k : ℕ) (l : List (Option H256))
    (lists : List (List (Option H256))) :
    slotsFrom topics k (l :: lists) = ⟨topics[k]?, l⟩ :: slotsFrom topics (k + 1) lists := by
  unfold slotsFrom
  rw [List.mapIdx_cons]
  congr 2
  funext j l
  rw [Nat.add_assoc, Nat.add_comm 1 j]

theorem slotsFrom_append (topics : List H256) (k : ℕ) (lists lists' : List (List (Option H256))) :
    slotsFrom topics k (lists ++ lists') =
      slotsFrom topics k lists ++ slotsFrom topics (k + lists.length) lists' := by
  unfold slotsFrom
  rw [List.mapIdx_append]
  congr 2
  funext j l
  rw [Nat.add_assoc, Nat.add_comm lists.length j]

/-- **Wildcards.** Next to the other positions, a list of alternatives with `null`, or an empty one,
gives the same answer as `null` exactly if it is like a wildcard. A filter with an empty list of
addresses never gives the answer of the one without addresses. -/
theorem wildcard_iff {filter filter' : Filter} {topic topic' : Topic}
    (before after : List (Option (VariadicValue (Option H256)))) {values : List (Option H256)}
    (hvalues : none ∈ values ∨ values = []) (htopic : filter.topics = some topic)
    (hshape : topic.Shape (before ++ some (.multiple values) :: after))
    (htopic' : filter'.topics = some topic') (hshape' : topic'.Shape (before ++ none :: after))
    (log : Log) :
    ((FilteredParams.new (some filter)).filterTopics log =
        (FilteredParams.new (some filter')).filterTopics log ↔
      WildcardLike log.topics[before.length]? values
        (slotsFrom log.topics 0 (before.map alternatives) ++
          slotsFrom log.topics (before.length + 1) (after.map alternatives))) ∧
    (FilteredParams.new (some { filter with address := some (.multiple []) })).filterAddress log ≠
      (FilteredParams.new (some { filter with address := none })).filterAddress log := by
  refine ⟨?_, Bool.false_ne_true ∘ Option.some.inj⟩
  obtain ⟨answer, hanswer, hpasses⟩ := filterTopics_answer htopic hshape log
  obtain ⟨answer', hanswer', hpasses'⟩ := filterTopics_answer htopic' hshape' log
  rw [List.map_append, List.map_cons, slotsFrom_append, slotsFrom_cons, List.length_map,
    Nat.zero_add] at hpasses hpasses'
  have hnull : Passes (slotsFrom log.topics 0 (before.map alternatives) ++
        ⟨log.topics[before.length]?, [none]⟩ ::
          slotsFrom log.topics (before.length + 1) (after.map alternatives)) ↔
      Passes (slotsFrom log.topics 0 (before.map alternatives) ++
        slotsFrom log.topics (before.length + 1) (after.map alternatives)) :=
    passes_null List.mem_cons_self fun _ => List.mem_singleton.1
  rw [hanswer, hanswer', Option.some.injEq, Bool.eq_iff_iff, hpasses, hpasses']
  unfold WildcardLike
  refine (iff_congr Iff.rfl hnull).trans ?_
  split_ifs with hempty
  · rw [hempty]
    exact iff_true_left passes_empty
  · exact passes_with_null (hvalues.resolve_right hempty)

theorem wildcard_iff_documented :
    ((FilteredParams.new (some (topicFilter documentedTopic))).filterTopics otherTopicLog =
        (FilteredParams.new (some (topicFilter nullTopic))).filterTopics otherTopicLog ↔
      WildcardLike (some 6) [none, some 7] [⟨some 5, [none]⟩]) ∧
    (FilteredParams.new (some { topicFilter documentedTopic with
        address := some (.multiple []) })).filterAddress otherTopicLog ≠
      (FilteredParams.new (some { topicFilter documentedTopic with
        address := none })).filterAddress otherTopicLog :=
  wildcard_iff [none] [] (Or.inl (by decide)) rfl .nested rfl .nested
    otherTopicLog

/-- The alternatives `null` and `7` do not match the topic `6`, which `null` alone does, and an empty
list of addresses does not match the address. -/
theorem documentedTopic_refuses :
    (FilteredParams.new (some (topicFilter documentedTopic))).filterTopics otherTopicLog =
        some false ∧
      (FilteredParams.new (some (topicFilter nullTopic))).filterTopics otherTopicLog = some true ∧
      (FilteredParams.new (some { topicFilter nullTopic with
        address := some (.multiple []) })).filterAddress otherTopicLog = some false ∧
      (FilteredParams.new (some (topicFilter nullTopic))).filterAddress otherTopicLog = some true := by
  decide

end Shadows.Rpc

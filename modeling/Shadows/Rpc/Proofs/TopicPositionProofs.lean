import Shadows.Rpc.Proofs.TopicMatchingProofs
import Mathlib.Data.Nat.Find

/-!
# Proofs: filters without `null` among alternatives

Where a position is either a wildcard or asks for topics only, the order of the alternatives does not
matter, and `filter_topics` decides whether the log meets every position.
-/

namespace Shadows.Rpc

open FilteredParams

namespace TopicPosition

theorem alternatives_any : alternatives any.entry = [none] := rfl

theorem alternatives_entry {p : TopicPosition} (h : p ≠ any) :
    alternatives p.entry = p.choices.map some := by
  cases p with
  | any => exact absurd rfl h
  | topic t => rfl
  | oneOf t ts => rfl

theorem choices_ne_nil {p : TopicPosition} (h : p ≠ any) : p.choices ≠ [] := by
  cases p with
  | any => exact absurd rfl h
  | topic t => exact List.cons_ne_nil _ _
  | oneOf t ts => exact List.cons_ne_nil _ _

theorem mem_alternatives {p : TopicPosition} {x : H256} :
    some x ∈ alternatives p.entry ↔ x ∈ p.choices := by
  cases p with
  | any => simp [alternatives_any, choices]
  | topic t => simp [alternatives_entry, choices]
  | oneOf t ts => simp [alternatives_entry, choices]

theorem ne_any_of_mem {p : TopicPosition} {x : H256} (h : some x ∈ alternatives p.entry) :
    p ≠ any := by
  rintro rfl
  exact absurd (mem_alternatives.1 h) (List.not_mem_nil (a := x))

theorem none_mem_alternatives {p : TopicPosition} : none ∈ alternatives p.entry ↔ p = any := by
  cases p with
  | any => simp [alternatives_any]
  | topic t => simp [alternatives_entry]
  | oneOf t ts => simp [alternatives_entry]

end TopicPosition

variable {positions : List TopicPosition} {topics : List H256}

/-- The log meets every position that is not `null`. -/
def MeetsEach (positions : List TopicPosition) (topics : List H256) : Prop :=
  ∀ (i : ℕ) (p : TopicPosition), positions[i]? = some p → p ≠ .any →
    ∃ x, topics[i]? = some x ∧ x ∈ p.choices

/-- Position `i` is there and is not `null`. -/
def Restricted (positions : List TopicPosition) (i : ℕ) : Prop :=
  ∃ p : TopicPosition, positions[i]? = some p ∧ p ≠ .any

theorem Restricted.le_length {i : ℕ} (h : Restricted positions i) : i ≤ positions.length := by
  obtain ⟨p, hp, -⟩ := h
  exact le_of_lt (List.getElem?_eq_some_iff.1 hp).1

theorem exists_lastRestricted {i : ℕ} (h : Restricted positions i) :
    ∃ k, i ≤ k ∧ LastRestricted positions k := by
  classical
  refine ⟨Nat.findGreatest (Restricted positions) positions.length,
    Nat.le_findGreatest h.le_length h, Nat.findGreatest_spec h.le_length h, fun j hj q hq => ?_⟩
  by_contra hne
  have hlater : Restricted positions j := ⟨q, hq, hne⟩
  exact Nat.findGreatest_is_greatest hj hlater.le_length hlater

theorem matches_iff : Matches positions topics ↔ MeetsEach positions topics := by
  constructor
  · intro h i p hi hp
    obtain ⟨k, hik, hk⟩ := exists_lastRestricted ⟨p, hi, hp⟩
    exact (h k hk).2 i p hik hi hp
  · intro h k hk
    obtain ⟨p, hkp, hp⟩ := hk.1
    obtain ⟨x, hx, -⟩ := h k p hkp hp
    refine ⟨(List.getElem?_eq_some_iff.1 hx).1, fun i p _ hi hp => h i p hi hp⟩

/-- The slots of the positions. -/
theorem position_slot {s : Slot} {j : ℕ}
    (hs : (slotsFrom topics 0 ((positions.map TopicPosition.entry).map alternatives))[j]? = some s) :
    ∃ p, positions[j]? = some p ∧ s = ⟨topics[j]?, alternatives p.entry⟩ := by
  unfold slotsFrom at hs
  rw [List.getElem?_mapIdx, List.getElem?_map, List.getElem?_map, Option.map_map, Option.map_map] at hs
  obtain ⟨p, hp, rfl⟩ := Option.map_eq_some_iff.1 hs
  refine ⟨p, hp, ?_⟩
  simp

theorem slot_position (topics : List H256) {p : TopicPosition} {j : ℕ} (hp : positions[j]? = some p) :
    ⟨topics[j]?, alternatives p.entry⟩ ∈
      slotsFrom topics 0 ((positions.map TopicPosition.entry).map alternatives) := by
  refine List.mem_of_getElem? (i := j) ?_
  unfold slotsFrom
  rw [List.getElem?_mapIdx, List.getElem?_map, List.getElem?_map, hp]
  simp

section Slots

variable (positions topics)

/-- The slots of the positions of a filter. -/
def positionSlots : List Slot :=
  slotsFrom topics 0 ((positions.map TopicPosition.entry).map alternatives)

variable {positions topics}

theorem mem_positionSlots {s : Slot} (hs : s ∈ positionSlots positions topics) :
    ∃ (j : ℕ) (p : TopicPosition), positions[j]? = some p ∧
      s = ⟨topics[j]?, alternatives p.entry⟩ := by
  obtain ⟨j, hj⟩ := List.mem_iff_getElem?.1 hs
  exact ⟨j, position_slot hj⟩

theorem positionSlots_nonempty {s : Slot} (hs : s ∈ positionSlots positions topics) :
    s.alternatives ≠ [] := by
  obtain ⟨j, p, -, rfl⟩ := mem_positionSlots hs
  by_cases hp : p = .any
  · rw [hp]
    exact List.cons_ne_nil _ _
  · show alternatives p.entry ≠ []
    rw [TopicPosition.alternatives_entry hp]
    exact fun h => TopicPosition.choices_ne_nil hp (List.map_eq_nil_iff.1 h)

/-- Where the alternatives contain a topic, they begin with one. -/
theorem reaches_firsts (h : Reaches (positionSlots positions topics)) :
    Reaches (firsts (positionSlots positions topics)) := by
  obtain ⟨s, hs, hnone, t, ht⟩ := h
  obtain ⟨j, p, -, rfl⟩ := mem_positionSlots hs
  have hp := TopicPosition.ne_any_of_mem ht
  obtain ⟨t', rest, hrest⟩ := List.exists_cons_of_ne_nil (TopicPosition.choices_ne_nil hp)
  refine ⟨_, List.mem_map.2 ⟨_, hs, rfl⟩, hnone, t', ?_⟩
  show some t' ∈ (alternatives p.entry).take 1
  rw [TopicPosition.alternatives_entry hp, hrest]
  exact List.mem_cons_self

/-- The topic of the log is among the alternatives of a position that is not `null` exactly if the
log meets the position. -/
theorem mem_alternatives_iff {p : TopicPosition} (hp : p ≠ .any) {x : Option H256} :
    x ∈ alternatives p.entry ↔ ∃ t, x = some t ∧ t ∈ p.choices := by
  constructor
  · intro hx
    cases x with
    | none => exact absurd (TopicPosition.none_mem_alternatives.1 hx) hp
    | some t => exact ⟨t, rfl, TopicPosition.mem_alternatives.1 hx⟩
  · rintro ⟨t, rfl, ht⟩
    exact TopicPosition.mem_alternatives.2 ht

/-- A position that is not `null` asks for a topic. -/
theorem not_bare {i : ℕ} {p : TopicPosition} (hi : positions[i]? = some p) (hp : p ≠ .any) :
    ¬ Bare (positionSlots positions topics) := by
  intro hbare
  obtain ⟨t, rest, hrest⟩ := List.exists_cons_of_ne_nil (TopicPosition.choices_ne_nil hp)
  have hmem : some t ∈ alternatives p.entry := by
    rw [TopicPosition.mem_alternatives, hrest]
    exact List.mem_cons_self
  cases hbare _ (slot_position topics hi) _ hmem

/-- Only a position that is not `null` contains a topic, so that without one there is none. -/
theorem bare_of_unrestricted (h : ∀ (i : ℕ) (p : TopicPosition), positions[i]? = some p → p = .any) :
    Bare (positionSlots positions topics) := by
  intro s hs a ha
  obtain ⟨j, p, hp, rfl⟩ := mem_positionSlots hs
  cases a with
  | none => rfl
  | some t => exact absurd (h j p hp) (TopicPosition.ne_any_of_mem ha)

theorem meetsEach_of_fits (h : Fits (positionSlots positions topics)) :
    MeetsEach positions topics := by
  intro i p hi hp
  obtain hnone | hlog := h _ (slot_position topics hi)
  · exact absurd (TopicPosition.none_mem_alternatives.1 hnone) hp
  · exact (mem_alternatives_iff hp).1 hlog

theorem MeetsEach.fits (h : MeetsEach positions topics) : Fits (positionSlots positions topics) := by
  intro s hs
  obtain ⟨j, p, hp, rfl⟩ := mem_positionSlots hs
  by_cases hany : p = .any
  · exact Or.inl (TopicPosition.none_mem_alternatives.2 hany)
  · exact Or.inr ((mem_alternatives_iff hany).2 (h j p hp hany))

theorem MeetsEach.hits (h : MeetsEach positions topics) {i : ℕ} {p : TopicPosition}
    (hi : positions[i]? = some p) (hp : p ≠ .any) : Hits (positionSlots positions topics) := by
  obtain ⟨x, hx, hmem⟩ := h i p hi hp
  exact ⟨_, slot_position topics hi, x, hx, TopicPosition.mem_alternatives.2 hmem⟩

theorem MeetsEach.not_reaches (h : MeetsEach positions topics) :
    ¬ Reaches (positionSlots positions topics) := by
  rintro ⟨s, hs, hnone, t, ht⟩
  obtain ⟨j, p, hp, rfl⟩ := mem_positionSlots hs
  obtain ⟨x, hx, -⟩ := h j p hp (TopicPosition.ne_any_of_mem ht)
  have hnone' : topics[j]? = none := hnone
  rw [hx] at hnone'
  cases hnone'

theorem passes_positions_iff :
    Passes (positionSlots positions topics) ↔ MeetsEach positions topics := by
  have hempty : ¬ ∃ s ∈ positionSlots positions topics, s.alternatives = [] := by
    rintro ⟨s, hs, hs'⟩
    exact positionSlots_nonempty hs hs'
  unfold Passes
  rw [or_iff_right hempty]
  constructor
  · rintro ⟨hfirsts, -, h⟩ i p hi hp
    rcases h (mt reaches_firsts hfirsts) with hbare | ⟨hfits, -⟩
    · exact absurd hbare (not_bare hi hp)
    · exact meetsEach_of_fits hfits i p hi hp
  · intro h
    have hreaches := h.not_reaches
    refine ⟨mt reaches_of_firsts hreaches, fun h => absurd h hreaches, fun _ => ?_⟩
    by_cases hrestricted : ∃ (i : ℕ) (p : TopicPosition), positions[i]? = some p ∧ p ≠ .any
    · obtain ⟨i, p, hi, hp⟩ := hrestricted
      exact Or.inr ⟨h.fits, h.hits hi hp⟩
    · refine Or.inl (bare_of_unrestricted fun i p hi => ?_)
      by_contra hp
      exact hrestricted ⟨i, p, hi, hp⟩

end Slots

/-- **Topics.** Where every position of a filter is `null`, a topic or a list of topics, in either
shape, a log passes exactly if its topics meet the positions. -/
theorem filterTopics_matches {filter : Filter} {topic : Topic} {positions : List TopicPosition}
    (htopic : filter.topics = some topic)
    (hshape : topic.Shape (positions.map TopicPosition.entry)) (log : Log) :
    ∃ answer, (FilteredParams.new (some filter)).filterTopics log = some answer ∧
      (answer = true ↔ Matches positions log.topics) := by
  obtain ⟨answer, hanswer, hiff⟩ := filterTopics_answer htopic hshape log
  exact ⟨answer, hanswer, hiff.trans (passes_positions_iff.trans matches_iff.symm)⟩

theorem filterTopics_matches_flat :
    ∃ answer, (FilteredParams.new (some ⟨none, none, none, none,
        some (.single (some (.multiple [none, some 7])))⟩)).filterTopics
          (Log.unplaced ⟨0, [5, 7], []⟩) = some answer ∧
      (answer = true ↔ Matches [.any, .topic 7] [5, 7]) :=
  filterTopics_matches rfl (.flat [none, some 7] rfl) _

end Shadows.Rpc

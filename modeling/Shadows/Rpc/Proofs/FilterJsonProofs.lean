import Shadows.Foundations.Partial
import Shadows.Rpc.FilterJson
import Shadows.Rpc.Proofs.LogsProofs
import Shadows.Rpc.Proofs.TopicPositionProofs

/-!
# Proofs: reading filters from JSON

A `VariadicValue` that cannot be read as a single value is read as a list. A list of positions with
room for one topic each is therefore read as one flat value, and another one as nested values; both are
shapes of the same positions, so that the filter means what is written.
-/

namespace Shadows.Rpc

open FilteredParams Foundations

variable {formats : FilterFormats}

/-! ## Single values and lists -/

section Variadic

variable {T : Type} {read : Json → Except DeserializeError T} {v : Json} {vs : List Json}

theorem readOption_ok {value : T} (hnull : v ≠ .null) (h : read v = .ok value) :
    readOption read v = .ok (some value) := by
  cases v with
  | null => exact absurd rfl hnull
  | bool | number | str | array | object => simp only [readOption, h, Except.map]

theorem readOption_eq_ok {option : Option T} (hnull : v ≠ .null)
    (h : readOption read v = .ok option) : ∃ value, read v = .ok value ∧ option = some value := by
  cases hread : read v with
  | ok value =>
    rw [readOption_ok hnull hread] at h
    exact ⟨value, rfl, (Except.ok.inj h).symm⟩
  | error err =>
    cases v with
    | null => exact absurd rfl hnull
    | bool | number | str | array | object => simp [readOption, hread, Except.map] at h

theorem deserialize_single {value : T} (hnull : v ≠ .null) (h : read v = .ok value) :
    VariadicValue.deserialize formats read v = .ok (.single value) := by
  cases v with
  | null => exact absurd rfl hnull
  | bool | number | str | array | object => simp only [VariadicValue.deserialize, h]

theorem deserialize_multiple {values : List T} {err : DeserializeError}
    (hsingle : read (.array vs) = .error err)
    (h : List.Forall₂ (fun v value => read v = .ok value) vs values) :
    VariadicValue.deserialize formats read (.array vs) = .ok (.multiple values) := by
  have hvalues : readVec read (.array vs) = .ok values := mapM_eq_ok.2 h
  simp only [VariadicValue.deserialize, hsingle, hvalues]

/-- What is read is a single value or a list. The variant `Null` is left to a `null` without an `Option`
around it. -/
theorem deserialize_cases {value : VariadicValue T} (hnull : v ≠ .null)
    (h : VariadicValue.deserialize formats read v = .ok value) :
    (∃ single, read v = .ok single ∧ value = .single single) ∨
      ∃ vs values, v = .array vs ∧ value = .multiple values ∧
        List.Forall₂ (fun v value => read v = .ok value) vs values := by
  cases hread : read v with
  | ok single =>
    rw [deserialize_single hnull hread] at h
    exact Or.inl ⟨single, rfl, (Except.ok.inj h).symm⟩
  | error err =>
    cases v with
    | null => exact absurd rfl hnull
    | array vs =>
      cases hvalues : vs.mapM read with
      | ok values =>
        have hforall := mapM_eq_ok.1 hvalues
        rw [deserialize_multiple hread hforall] at h
        exact Or.inr ⟨vs, values, rfl, (Except.ok.inj h).symm, hforall⟩
      | error err' => simp [VariadicValue.deserialize, hread, readVec, hvalues] at h
    | bool | number | str | object => simp [VariadicValue.deserialize, hread, readVec] at h

/-- An optional variadic value is `null`, a single value or a list of these. -/
theorem variadic_accepted :
    (∃ option, readOption (VariadicValue.deserialize formats read) v = .ok option) ↔
      v = .null ∨ (∃ single, read v = .ok single) ∨
        ∃ vs, v = .array vs ∧ ∀ w ∈ vs, ∃ value, read w = .ok value := by
  constructor
  · rintro ⟨option, h⟩
    by_cases hnull : v = .null
    · exact Or.inl hnull
    obtain ⟨value, hvalue, -⟩ := readOption_eq_ok hnull h
    rcases deserialize_cases hnull hvalue with ⟨single, hsingle, -⟩ | ⟨vs, values, hvs, -, hvalues⟩
    · exact Or.inr (Or.inl ⟨single, hsingle⟩)
    · exact Or.inr (Or.inr ⟨vs, hvs, fun w hw => exists_forall₂.1 ⟨values, hvalues⟩ w hw⟩)
  · intro h
    by_cases hnull : v = .null
    · rw [hnull]
      exact ⟨none, rfl⟩
    rcases h with rfl | ⟨single, hsingle⟩ | ⟨vs, rfl, hvs⟩
    · exact absurd rfl hnull
    · exact ⟨_, readOption_ok hnull (deserialize_single hnull hsingle)⟩
    · cases hread : read (.array vs) with
      | ok single => exact ⟨_, readOption_ok hnull (deserialize_single hnull hread)⟩
      | error err =>
        obtain ⟨values, hvalues⟩ := exists_forall₂.2 hvs
        exact ⟨_, readOption_ok hnull (deserialize_multiple hread hvalues)⟩

end Variadic

/-! ## Positions -/

theorem WritesHash.ne_null {v : Json} {t : H256} (h : WritesHash formats v t) : v ≠ .null := by
  obtain ⟨value, rfl, -⟩ := h
  exact Json.noConfusion

theorem WritesHash.read {v : Json} {t : H256} (h : WritesHash formats v t) :
    readStr formats.readHash v = .ok t := by
  obtain ⟨value, rfl, hread⟩ := h
  exact hread

/-- A topic where there is room for one topic or `null`. -/
theorem WritesHash.readOption {v : Json} {t : H256} (h : WritesHash formats v t) :
    Rpc.readOption (readStr formats.readHash) v = .ok (some t) :=
  readOption_ok h.ne_null h.read

theorem readPosition_writes {v : Json} {p : TopicPosition} (h : WritesPosition formats v p) :
    readPosition formats v = .ok p.entry := by
  cases h with
  | any => rfl
  | topic _ t h => exact readOption_ok h.ne_null (deserialize_single h.ne_null h.readOption)
  | oneOf vs t ts h =>
    have hvalues : List.Forall₂
        (fun v value => readOption (readStr formats.readHash) v = .ok value) vs ((t :: ts).map some) :=
      List.forall₂_map_right_iff.2 (h.imp fun _ _ h => h.readOption)
    exact readOption_ok Json.noConfusion (deserialize_multiple rfl hvalues)

/-- A position is read as one topic or `null` only if it is written so. -/
theorem readOption_writes {v : Json} {p : TopicPosition} {t : Option H256}
    (h : WritesPosition formats v p) (hread : readOption (readStr formats.readHash) v = .ok t) :
    p.entry = flatEntry t := by
  cases h with
  | any =>
    cases hread
    rfl
  | topic _ t' h =>
    rw [h.readOption] at hread
    cases hread
    rfl
  | oneOf vs t' ts h => cases hread

/-! ## Topics -/

/-- The positions of a flat value. -/
theorem flat_entries {vs : List Json} {ps : List TopicPosition} {values : List (Option H256)}
    (h : List.Forall₂ (WritesPosition formats) vs ps)
    (hvalues : List.Forall₂
      (fun v value => readOption (readStr formats.readHash) v = .ok value) vs values) :
    ps.map TopicPosition.entry = values.map flatEntry := by
  induction h generalizing values with
  | nil =>
    cases hvalues
    rfl
  | cons hp _ ih =>
    cases hvalues with
    | cons hvalue hvalues => rw [List.map_cons, List.map_cons, readOption_writes hp hvalue, ih hvalues]

/-- A list is read as a position only if there is one topic or `null` at every place. -/
theorem readPosition_array {vs : List Json} {entry : Option (VariadicValue (Option H256))}
    (h : readPosition formats (.array vs) = .ok entry) :
    ∃ values, entry = some (.multiple values) ∧ List.Forall₂
      (fun v value => readOption (readStr formats.readHash) v = .ok value) vs values := by
  obtain ⟨value, hvalue, rfl⟩ := readOption_eq_ok Json.noConfusion h
  rcases deserialize_cases Json.noConfusion hvalue with ⟨single, hsingle, -⟩ | ⟨_, values, hvs, rfl, hvalues⟩
  · cases hsingle
  · cases hvs
    exact ⟨values, rfl, hvalues⟩

/-- A list of positions is read in one of its shapes. -/
theorem readTopics_positions {vs : List Json} {ps : List TopicPosition}
    (h : List.Forall₂ (WritesPosition formats) vs ps) :
    ∃ topic, readTopics formats (.array vs) = .ok (some topic) ∧
      topic.Shape (ps.map TopicPosition.entry) := by
  cases hflat : readPosition formats (.array vs) with
  | error err =>
    have hentries : List.Forall₂ (fun v entry => readPosition formats v = .ok entry) vs
        (ps.map TopicPosition.entry) :=
      List.forall₂_map_right_iff.2 (h.imp fun _ _ => readPosition_writes)
    exact ⟨_, readOption_ok Json.noConfusion (deserialize_multiple hflat hentries), .nested⟩
  | ok entry =>
    obtain ⟨values, rfl, hvalues⟩ := readPosition_array hflat
    exact ⟨_, readOption_ok Json.noConfusion (deserialize_single Json.noConfusion hflat),
      .flat values (flat_entries h hvalues)⟩

/-- One topic restricts the first position. -/
theorem filterTopics_single {filter : Filter} {t : H256}
    (htopics : filter.topics = some (.single (some (.single (some t))))) (log : Log) :
    (FilteredParams.new (some filter)).filterTopics log = some true ↔ Matches [.topic t] log.topics := by
  have hloop : (FilteredParams.new (some filter)).filterTopics log =
      some ([t].isPrefixOf log.topics) := by
    unfold filterTopics new
    dsimp only
    rw [htopics]
    show some (if [t].isPrefixOf log.topics then true else false) = _
    cases [t].isPrefixOf log.topics <;> rfl
  rw [hloop, Option.some.injEq, matches_iff, List.isPrefixOf_iff_prefix, List.prefix_iff_getElem?]
  constructor
  · intro h i p hi hp
    obtain ⟨rfl, rfl⟩ : i = 0 ∧ p = .topic t := by
      cases i with
      | zero => exact ⟨rfl, (Option.some.inj hi).symm⟩
      | succ i => cases hi
    exact ⟨t, h 0 Nat.one_pos, List.mem_singleton_self t⟩
  · intro h i hi
    obtain ⟨x, hx, hmem⟩ := h 0 (.topic t) rfl TopicPosition.noConfusion
    obtain rfl := Nat.lt_one_iff.1 hi
    rw [hx, List.mem_singleton.1 hmem]
    rfl

/-- What is written about the topics of a log is what `filter_topics` decides. -/
theorem filterTopics_written {v : Json} {ps : List TopicPosition} (h : WritesTopics formats v ps) :
    ∃ topics, readTopics formats v = .ok topics ∧
      ∀ filter : Filter, filter.topics = topics → ∀ log : Log,
        (FilteredParams.new (some filter)).filterTopics log = some true ↔ Matches ps log.topics := by
  cases h with
  | null =>
    refine ⟨none, rfl, fun filter htopics log => ?_⟩
    rw [filterTopics_none htopics]
    refine iff_of_true rfl (matches_iff.2 ?_)
    intro i p hi
    cases hi
  | topic _ t h =>
    exact ⟨_, readOption_ok h.ne_null (deserialize_single h.ne_null
      (readOption_ok h.ne_null (deserialize_single h.ne_null h.readOption))), fun filter htopics log =>
        filterTopics_single htopics log⟩
  | positions vs ps h =>
    obtain ⟨topic, hread, hshape⟩ := readTopics_positions h
    refine ⟨some topic, hread, fun filter htopics log => ?_⟩
    rw [filterTopics_iff htopics hshape]
    exact passes_positions_iff.trans matches_iff.symm

/-! ## What is accepted -/

theorem option_accepted {v : Json} :
    (∃ t, readOption (readStr formats.readHash) v = .ok t) ↔ IsAlternative formats v := by
  constructor
  · rintro ⟨t, h⟩
    by_cases hnull : v = .null
    · exact Or.inl hnull
    · obtain ⟨t', ht', -⟩ := readOption_eq_ok hnull h
      exact Or.inr ⟨t', ht'⟩
  · rintro (rfl | ⟨t, h⟩)
    · exact ⟨none, rfl⟩
    · cases v with
      | null => cases h
      | bool | number | str | array | object => exact ⟨some t, readOption_ok Json.noConfusion h⟩

theorem position_accepted {v : Json} :
    (∃ entry, readPosition formats v = .ok entry) ↔ IsPosition formats v := by
  unfold readPosition
  rw [variadic_accepted]
  simp only [option_accepted]
  exact or_iff_right_of_imp fun h => Or.inl (Or.inl h)

theorem topics_accepted {v : Json} :
    (∃ topics, readTopics formats v = .ok topics) ↔ IsTopics formats v := by
  unfold readTopics
  rw [variadic_accepted]
  simp only [position_accepted]
  exact or_iff_right_of_imp fun h => Or.inl (Or.inl (Or.inl h))

theorem readPosition_ne_null {v : Json} {entry : Option (VariadicValue (Option H256))}
    (h : readPosition formats v = .ok entry) : entry ≠ some .null := by
  by_cases hnull : v = .null
  · rw [hnull] at h
    cases h
    nofun
  · obtain ⟨value, hvalue, rfl⟩ := readOption_eq_ok hnull h
    rcases deserialize_cases hnull hvalue with ⟨single, -, rfl⟩ | ⟨vs, values, -, rfl, -⟩
    · simp
    · simp

/-- No flat topic that is read is `Null`, with which `filter_topics` would forget the flat topics before. -/
theorem null_not_mem_flatten {v : Json} {topic : Topic} (h : readTopics formats v = .ok (some topic)) :
    .null ∉ flatten topic := by
  have hnull : v ≠ .null := by
    rintro rfl
    cases h
  obtain ⟨value, hvalue, heq⟩ := readOption_eq_ok hnull h
  cases heq
  rcases deserialize_cases hnull hvalue with ⟨entry, hentry, rfl⟩ | ⟨vs, entries, -, rfl, -⟩
  · cases entry with
    | none => exact List.not_mem_nil
    | some flat =>
      rw [flatten, List.mem_singleton]
      rintro rfl
      exact readPosition_ne_null hentry rfl
  · rw [flatten, List.mem_map]
    rintro ⟨choice, -, hchoice⟩
    cases hchoice

/-- **Topics in JSON.** The topics of a filter are a position or a list of positions, each of them a
topic, `null` or a list of these. Whatever is read of them, the loop of `filter_topics` never meets the
flat topic `Null`. -/
theorem topics_well_formed (v : Json) :
    ((∃ topics, readTopics formats v = .ok topics) ↔ IsTopics formats v) ∧
      ∀ topic, readTopics formats v = .ok (some topic) → .null ∉ flatten topic :=
  ⟨topics_accepted, fun _ h => null_not_mem_flatten h⟩

theorem topics_well_formed_nested :
    ((∃ topics, readTopics hexFilterFormats nestedTopics = .ok topics) ↔
        IsTopics hexFilterFormats nestedTopics) ∧
      ∀ topic, readTopics hexFilterFormats nestedTopics = .ok (some topic) → .null ∉ flatten topic :=
  topics_well_formed nestedTopics

/-! ## Addresses -/

theorem WritesAddress.ne_null {v : Json} {a : H160} (h : WritesAddress formats v a) : v ≠ .null := by
  obtain ⟨value, rfl, -⟩ := h
  exact Json.noConfusion

theorem WritesAddress.read {v : Json} {a : H160} (h : WritesAddress formats v a) :
    readStr formats.readAddress v = .ok a := by
  obtain ⟨value, rfl, hread⟩ := h
  exact hread

/-- What is written about the address of a log is what `filter_address` decides. -/
theorem filterAddress_written {v : Json} {addressed : H160 → Prop}
    (h : WritesAddresses formats v addressed) :
    ∃ address, readAddresses formats v = .ok address ∧
      ∀ filter : Filter, filter.address = address → ∀ log : Log,
        (FilteredParams.new (some filter)).filterAddress log = some true ↔ addressed log.address := by
  cases h with
  | null =>
    refine ⟨none, rfl, fun filter haddress log => ?_⟩
    rw [filterAddress_none haddress]
    exact iff_of_true rfl trivial
  | address _ a h =>
    refine ⟨_, readOption_ok h.ne_null (deserialize_single h.ne_null h.read),
      fun filter haddress log => ?_⟩
    show (some filter).map _ = _ ↔ _
    rw [Option.map_some, haddress]
    simp
  | addresses vs as h =>
    refine ⟨_, readOption_ok Json.noConfusion (deserialize_multiple rfl (h.imp fun _ _ => WritesAddress.read)),
      fun filter haddress log => ?_⟩
    show (some filter).map _ = _ ↔ _
    rw [Option.map_some, haddress]
    simp

/-! ## Filters -/

/-- **Filters in JSON.** A filter that is read from JSON selects the logs that are written: those at
one of the addresses, with topics that meet every position. -/
theorem filter_read {vAddress vTopics : Json} {addressed : H160 → Prop} {ps : List TopicPosition}
    (haddress : WritesAddresses formats vAddress addressed) (htopics : WritesTopics formats vTopics ps) :
    ∃ address topics, readAddresses formats vAddress = .ok address ∧
      readTopics formats vTopics = .ok topics ∧
      ∀ filter : Filter, filter.address = address → filter.topics = topics → ∀ log : Shadows.Log,
        ∃ add, addToQuery filter (new (some filter)) (Log.unplaced log) = some add ∧
          (add = true ↔ addressed log.address ∧ Matches ps log.topics) := by
  obtain ⟨address, hreadAddress, hfilterAddress⟩ := filterAddress_written haddress
  obtain ⟨topics, hreadTopics, hfilterTopics⟩ := filterTopics_written htopics
  refine ⟨address, topics, hreadAddress, hreadTopics, fun filter ha ht log => ?_⟩
  refine ⟨_, addToQuery_eq filter log, ?_⟩
  rw [decide_eq_true_iff]
  exact and_congr (hfilterAddress filter ha _) (hfilterTopics filter ht _)

theorem filter_read_nested :
    ∃ address topics, readAddresses hexFilterFormats .null = .ok address ∧
      readTopics hexFilterFormats nestedTopics = .ok topics ∧
      ∀ filter : Filter, filter.address = address → filter.topics = topics → ∀ log : Shadows.Log,
        ∃ add, addToQuery filter (new (some filter)) (Log.unplaced log) = some add ∧
          (add = true ↔ True ∧ Matches [.any, .oneOf 7 [7]] log.topics) := by
  have hseven : WritesHash hexFilterFormats (.str sevenText) 7 := ⟨sevenText, rfl, by decide +kernel⟩
  exact filter_read .null (.positions _ _ (.cons .any (.cons
    (.oneOf _ 7 [7] (.cons hseven (.cons hseven .nil))) .nil)))

end Shadows.Rpc

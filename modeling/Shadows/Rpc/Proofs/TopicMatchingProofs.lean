import Shadows.Rpc.TopicMatching
import Shadows.Rpc.Proofs.LogsProofs

/-!
# Proofs: what `filter_topics` decides

One flat topic either reaches beyond the log, or is blank, or fits the log, or does not. The loop
over all of them is decided by the first choice if some choice reaches beyond the log, and by the
existence of one that fits if none does.
-/

namespace Shadows.Rpc

open Foundations FilteredParams

/-! ## One flat topic -/

theorem Agrees.not_beyond {topics : List H256} {p : List (Option H256)} (h : Agrees topics p) :
    ¬ Beyond topics p := by
  rintro ⟨j, t, ht, hj⟩
  have htopic := h j t ht
  rw [List.getElem?_eq_none hj] at htopic
  cases htopic

/-- The topic of a flat topic is in front of the wildcards at its end. -/
theorem getElem?_rdropWhile {p : List (Option H256)} {j : ℕ} {t : H256} :
    (p.rdropWhile Option.isNone)[j]? = some (some t) ↔ p[j]? = some (some t) := by
  induction p using List.reverseRecOn with
  | nil => exact Iff.rfl
  | append_singleton p a ih =>
    cases a with
    | none =>
      rw [List.rdropWhile_concat_pos _ _ _ rfl, ih, List.getElem?_append]
      split_ifs with hlt
      · exact Iff.rfl
      · rw [List.getElem?_eq_none (not_lt.1 hlt)]
        refine iff_of_false nofun fun h => ?_
        rw [List.getElem?_singleton] at h
        split_ifs at h
        cases Option.some.inj h
    | some t' =>
      rw [List.rdropWhile_concat_neg _ _ _ Bool.false_ne_true]

theorem rdropWhile_eq_nil {p : List (Option H256)} : p.rdropWhile Option.isNone = [] ↔ Blank p := by
  rw [List.rdropWhile_eq_nil_iff]
  exact forall₂_congr fun a _ => Option.isNone_iff_eq_none

theorem beyond_iff {topics : List H256} {p : List (Option H256)} :
    Beyond topics p ↔ topics.length < (p.rdropWhile Option.isNone).length := by
  constructor
  · rintro ⟨j, t, ht, hj⟩
    obtain ⟨hlt, -⟩ := List.getElem?_eq_some_iff.1 (getElem?_rdropWhile.2 ht)
    omega
  · intro hlt
    have hne : p.rdropWhile Option.isNone ≠ [] := by
      intro h
      rw [h] at hlt
      exact Nat.not_lt_zero _ hlt
    have hlast := List.rdropWhile_last_not Option.isNone p hne
    obtain ⟨t, ht⟩ := Option.ne_none_iff_exists'.1 (mt Option.isNone_iff_eq_none.2 hlast)
    refine ⟨(p.rdropWhile Option.isNone).length - 1, t, getElem?_rdropWhile.1 ?_, by omega⟩
    rw [← ht, List.getLast_eq_getElem, List.getElem?_eq_getElem]

/-- What is compared with the log agrees with it where the flat topic has a topic. -/
theorem isPrefixOf_iff {topics : List H256} {p : List (Option H256)} {replaced : List H256}
    (h : p.mapIdx (fun k v => v <|> topics[k]?) = replaced.map some) :
    replaced.isPrefixOf topics = true ↔ Agrees topics p := by
  have hvalue : ∀ j : ℕ, (p[j]?.map fun v => v <|> topics[j]?) = replaced[j]?.map some := by
    intro j
    have hj := congrArg (fun l => l[j]?) h
    rw [List.getElem?_mapIdx, List.getElem?_map] at hj
    exact hj
  rw [List.isPrefixOf_iff_prefix, List.prefix_iff_getElem?]
  constructor
  · intro hleading j t ht
    have hj := hvalue j
    rw [ht] at hj
    obtain ⟨x, hx, hxt⟩ := Option.map_eq_some_iff.1 hj.symm
    obtain ⟨hlt, rfl⟩ := List.getElem?_eq_some_iff.1 hx
    rw [hleading j hlt]
    exact hxt
  · intro hagrees j hlt
    have hj := hvalue j
    rw [List.getElem?_eq_getElem hlt] at hj
    obtain ⟨v, hv, hvt⟩ := Option.map_eq_some_iff.1 hj
    cases v with
    | none => exact hvt
    | some t =>
      rw [hagrees j t hv]
      exact hvt

theorem mapM_id_eq_some {α : Type} {l : List (Option α)} {r : List α} (h : l.mapM id = some r) :
    l = r.map some := by
  rw [← List.forall₂_eq_eq_eq, List.forall₂_map_right_iff]
  exact Foundations.mapM_eq_some.1 h

theorem agrees_rdropWhile {topics : List H256} {p : List (Option H256)} :
    Agrees topics (p.rdropWhile Option.isNone) ↔ Agrees topics p :=
  forall₂_congr fun _ _ => imp_congr getElem?_rdropWhile Iff.rfl

theorem replace_blank {log : Log} {p : List (Option H256)} (h : Blank p) :
    replace log (.multiple (p.rdropWhile Option.isNone)) = some none := by
  rw [rdropWhile_eq_nil.2 h]
  rfl

theorem replace_of_not_blank {log : Log} {p : List (Option H256)} (hblank : ¬ Blank p)
    (hbeyond : ¬ Beyond log.topics p) :
    ∃ replaced, replace log (.multiple (p.rdropWhile Option.isNone)) = some (some replaced) ∧
      (replaced.isPrefixOf log.topics = true ↔ Agrees log.topics p) := by
  have hsome : (replace log (.multiple (p.rdropWhile Option.isNone))).isSome :=
    replace_isSome (not_lt.1 (mt beyond_iff.2 hbeyond))
  unfold replace at hsome ⊢
  rw [Option.isSome_map] at hsome
  obtain ⟨replaced, hreplaced⟩ := Option.isSome_iff_exists.1 hsome
  dsimp only at hreplaced ⊢
  have hmap := mapM_id_eq_some hreplaced
  have hne : replaced ≠ [] := by
    rintro rfl
    rw [List.map_nil, List.mapIdx_eq_nil_iff] at hmap
    exact hblank (rdropWhile_eq_nil.1 hmap)
  refine ⟨replaced, ?_, (isPrefixOf_iff hmap).trans agrees_rdropWhile⟩
  rw [hreplaced, Option.map_some, if_neg hne]

/-! ## One turn of the loop -/

section Turn

variable {log : Log} {p : List (Option H256)} (rest : List FlatTopic) (out : Bool)

theorem loop_beyond (h : Beyond log.topics p) :
    filterTopicsLoop log (.multiple p :: rest) out = some false := by
  rw [filterTopicsLoop]
  exact if_pos (beyond_iff.1 h)

theorem loop_blank (h : Blank p) :
    filterTopicsLoop log (.multiple p :: rest) out = filterTopicsLoop log rest out := by
  have hempty : (p.rdropWhile Option.isNone).length = 0 := by
    rw [rdropWhile_eq_nil.2 h]
    rfl
  rw [filterTopicsLoop]
  simp only [hempty, Nat.not_lt_zero, if_false, replace_blank h]

theorem loop_agrees (hblank : ¬ Blank p) (h : Agrees log.topics p) :
    filterTopicsLoop log (.multiple p :: rest) out = some true := by
  obtain ⟨replaced, hreplaced, hiff⟩ := replace_of_not_blank hblank h.not_beyond
  rw [filterTopicsLoop]
  simp only [if_neg (mt beyond_iff.2 h.not_beyond), hreplaced, hiff.2 h, if_true]

theorem loop_differs (hblank : ¬ Blank p) (hbeyond : ¬ Beyond log.topics p)
    (h : ¬ Agrees log.topics p) :
    filterTopicsLoop log (.multiple p :: rest) out = filterTopicsLoop log rest false := by
  obtain ⟨replaced, hreplaced, hiff⟩ := replace_of_not_blank hblank hbeyond
  rw [filterTopicsLoop]
  simp only [if_neg (mt beyond_iff.2 hbeyond), hreplaced, mt hiff.1 h, Bool.false_eq_true, if_false]

end Turn

/-! ## The loop -/

/-- Without a flat topic beyond the log, the loop accepts if one of them agrees with the log, or if
all are blank. -/
theorem loop_within {log : Log} {ps : List (List (Option H256))}
    (h : ∀ p ∈ ps, ¬ Beyond log.topics p) : ∀ out,
    filterTopicsLoop log (ps.map .multiple) out = some true ↔
      (∃ p ∈ ps, ¬ Blank p ∧ Agrees log.topics p) ∨ out = true ∧ ∀ p ∈ ps, Blank p := by
  induction ps with
  | nil => simp [filterTopicsLoop]
  | cons p ps ih =>
    intro out
    obtain ⟨hp, hps⟩ := List.forall_mem_cons.1 h
    rw [List.map_cons, List.exists_mem_cons_iff, List.forall_mem_cons]
    by_cases hblank : Blank p
    · rw [loop_blank _ _ hblank, ih hps]
      simp [hblank]
    · by_cases hagrees : Agrees log.topics p
      · rw [loop_agrees _ _ hblank hagrees]
        simp [hblank, hagrees]
      · rw [loop_differs _ _ hblank hp hagrees, ih hps]
        simp [hblank, hagrees]

/-- A flat topic beyond the log, with none before it that agrees with the log, makes the loop
refuse. -/
theorem loop_reaches {log : Log} {ps : List (List (Option H256))}
    (hbeyond : ∃ p ∈ ps, Beyond log.topics p)
    (h : ∀ p ∈ ps, ¬ Blank p → ¬ Agrees log.topics p) (rest : List FlatTopic) : ∀ out,
    filterTopicsLoop log (ps.map .multiple ++ rest) out = some false := by
  induction ps with
  | nil =>
    obtain ⟨p, hp, -⟩ := hbeyond
    exact absurd hp List.not_mem_nil
  | cons p ps ih =>
    intro out
    obtain ⟨hp, hps⟩ := List.forall_mem_cons.1 h
    rw [List.map_cons, List.cons_append]
    by_cases hfirst : Beyond log.topics p
    · exact loop_beyond _ _ hfirst
    · have hlater := (List.exists_mem_cons_iff ..).1 hbeyond |>.resolve_left hfirst
      by_cases hblank : Blank p
      · rw [loop_blank _ _ hblank]
        exact ih hlater hps out
      · rw [loop_differs _ _ hblank hfirst (hp hblank)]
        exact ih hlater hps false

/-! ## Choices and slots -/

section Slots

variable {topics : List H256} {ss : List Slot} {p : List (Option H256)}

theorem mem_choices_iff : p ∈ choices (ss.map Slot.alternatives) ↔
    List.Forall₂ (fun a s => a ∈ s.alternatives) p ss := by
  rw [mem_choices, List.forall₂_map_right_iff]

theorem choice_slot {j : ℕ} {a : Option H256} (hp : p ∈ choices (ss.map Slot.alternatives))
    (ha : p[j]? = some a) : ∃ s, ss[j]? = some s ∧ a ∈ s.alternatives := by
  have hall := mem_choices_iff.1 hp
  obtain ⟨hlt, rfl⟩ := List.getElem?_eq_some_iff.1 ha
  have hlt' : j < ss.length := hall.length_eq ▸ hlt
  exact ⟨ss[j], List.getElem?_eq_getElem hlt', hall.get hlt hlt'⟩

theorem slot_choice {j : ℕ} {s : Slot} (hp : p ∈ choices (ss.map Slot.alternatives))
    (hs : ss[j]? = some s) : ∃ a, p[j]? = some a ∧ a ∈ s.alternatives := by
  have hall := mem_choices_iff.1 hp
  obtain ⟨hlt, rfl⟩ := List.getElem?_eq_some_iff.1 hs
  have hlt' : j < p.length := hall.length_eq.symm ▸ hlt
  exact ⟨p[j], List.getElem?_eq_getElem hlt', hall.get hlt' hlt⟩

/-- A choice that is made slot by slot. -/
theorem map_mem_choices {pick : Slot → Option H256} (h : ∀ s ∈ ss, pick s ∈ s.alternatives) :
    ss.map pick ∈ choices (ss.map Slot.alternatives) := by
  rw [mem_choices_iff, List.forall₂_map_left_iff, List.forall₂_same]
  exact h

/-- Every alternative is chosen by some choice. -/
theorem exists_choice (hne : ∀ s ∈ ss, s.alternatives ≠ []) {j : ℕ} {s : Slot} {a : Option H256}
    (hs : ss[j]? = some s) (ha : a ∈ s.alternatives) :
    ∃ p ∈ choices (ss.map Slot.alternatives), p[j]? = some a := by
  refine ⟨ss.map fun s => if a ∈ s.alternatives then a else s.alternatives.headD none,
    map_mem_choices fun s' hs' => ?_, ?_⟩
  · split_ifs with hmem
    · exact hmem
    · obtain ⟨b, rest, hrest⟩ := List.exists_cons_of_ne_nil (hne s' hs')
      rw [hrest]
      exact List.mem_cons_self
  · rw [List.getElem?_map, hs, Option.map_some, if_pos ha]

theorem exists_beyond_iff (haligned : Aligned topics ss) (hne : ∀ s ∈ ss, s.alternatives ≠ []) :
    (∃ p ∈ choices (ss.map Slot.alternatives), Beyond topics p) ↔ Reaches ss := by
  constructor
  · rintro ⟨p, hp, j, t, ht, hj⟩
    obtain ⟨s, hs, hmem⟩ := choice_slot hp ht
    refine ⟨s, List.mem_of_getElem? hs, ?_, t, hmem⟩
    rw [haligned j s hs, List.getElem?_eq_none hj]
  · rintro ⟨s, hs, hnone, t, ht⟩
    obtain ⟨j, hj⟩ := List.mem_iff_getElem?.1 hs
    obtain ⟨p, hp, hpj⟩ := exists_choice hne hj ht
    refine ⟨p, hp, j, t, hpj, ?_⟩
    rw [haligned j s hj, List.getElem?_eq_none_iff] at hnone
    exact hnone

theorem forall_blank_iff (hne : ∀ s ∈ ss, s.alternatives ≠ []) :
    (∀ p ∈ choices (ss.map Slot.alternatives), Blank p) ↔ Bare ss := by
  constructor
  · intro h s hs a ha
    obtain ⟨j, hj⟩ := List.mem_iff_getElem?.1 hs
    obtain ⟨p, hp, hpj⟩ := exists_choice hne hj ha
    exact h p hp a (List.mem_of_getElem? hpj)
  · intro h p hp a ha
    obtain ⟨j, hj⟩ := List.mem_iff_getElem?.1 ha
    obtain ⟨s, hs, hmem⟩ := choice_slot hp hj
    exact h s (List.mem_of_getElem? hs) a hmem

/-- The alternative of a slot that agrees with the log, where there is one, and else the
wildcard. -/
def Slot.pick (s : Slot) : Option H256 := if s.logTopic ∈ s.alternatives then s.logTopic else none

theorem Slot.pick_mem {s : Slot} (h : none ∈ s.alternatives ∨ s.logTopic ∈ s.alternatives) :
    s.pick ∈ s.alternatives := by
  unfold Slot.pick
  split_ifs with hlog
  · exact hlog
  · exact h.resolve_right hlog

theorem Slot.pick_eq_some {s : Slot} {t : H256} :
    s.pick = some t ↔ s.logTopic = some t ∧ some t ∈ s.alternatives := by
  unfold Slot.pick
  split_ifs with hlog
  · exact ⟨fun h => ⟨h, h ▸ hlog⟩, And.left⟩
  · exact iff_of_false nofun fun h => hlog (h.1 ▸ h.2)

theorem exists_agrees_iff (haligned : Aligned topics ss) :
    (∃ p ∈ choices (ss.map Slot.alternatives), ¬ Blank p ∧ Agrees topics p) ↔ Fits ss ∧ Hits ss := by
  constructor
  · rintro ⟨p, hp, hblank, hagrees⟩
    constructor
    · intro s hs
      obtain ⟨j, hj⟩ := List.mem_iff_getElem?.1 hs
      obtain ⟨a, ha, hmem⟩ := slot_choice hp hj
      cases a with
      | none => exact Or.inl hmem
      | some t =>
        rw [haligned j s hj, hagrees j t ha]
        exact Or.inr hmem
    · have hsome : ∃ a ∈ p, a ≠ none := by
        by_contra hall
        refine hblank fun a ha => ?_
        by_contra hne
        exact hall ⟨a, ha, hne⟩
      obtain ⟨a, ha, hne⟩ := hsome
      obtain ⟨t, rfl⟩ := Option.ne_none_iff_exists'.1 hne
      obtain ⟨j, hj⟩ := List.mem_iff_getElem?.1 ha
      obtain ⟨s, hs, hmem⟩ := choice_slot hp hj
      refine ⟨s, List.mem_of_getElem? hs, t, ?_, hmem⟩
      rw [haligned j s hs, hagrees j t hj]
  · rintro ⟨hfits, s, hs, x, hx, hmem⟩
    refine ⟨ss.map Slot.pick, map_mem_choices fun s' hs' => ?_, fun hblank => ?_, fun j t ht => ?_⟩
    · exact Slot.pick_mem (hfits s' hs')
    · have hpick : s.pick = some x := Slot.pick_eq_some.2 ⟨hx, hmem⟩
      cases hblank _ (List.mem_map.2 ⟨s, hs, hpick⟩)
    · rw [List.getElem?_map] at ht
      obtain ⟨s', hs', hpick⟩ := Option.map_eq_some_iff.1 ht
      rw [← haligned j s' hs']
      exact (Slot.pick_eq_some.1 hpick).1

theorem firsts_alternatives (ss : List Slot) :
    (firsts ss).map Slot.alternatives = (ss.map Slot.alternatives).map (List.take 1) := by
  unfold firsts
  rw [List.map_map, List.map_map]
  rfl

theorem firsts_aligned (haligned : Aligned topics ss) : Aligned topics (firsts ss) := by
  intro j s hs
  unfold firsts at hs
  rw [List.getElem?_map] at hs
  obtain ⟨s', hs', rfl⟩ := Option.map_eq_some_iff.1 hs
  exact haligned j s' hs'

theorem firsts_nonempty (hne : ∀ s ∈ ss, s.alternatives ≠ []) :
    ∀ s ∈ firsts ss, s.alternatives ≠ [] := by
  intro s hs
  obtain ⟨s', hs', rfl⟩ := List.mem_map.1 hs
  obtain ⟨a, rest, hrest⟩ := List.exists_cons_of_ne_nil (hne s' hs')
  show s'.alternatives.take 1 ≠ []
  rw [hrest]
  exact List.cons_ne_nil _ _

theorem reaches_of_firsts (h : Reaches (firsts ss)) : Reaches ss := by
  obtain ⟨s, hs, hnone, t, ht⟩ := h
  obtain ⟨s', hs', rfl⟩ := List.mem_map.1 hs
  exact ⟨s', hs', hnone, t, List.mem_of_mem_take ht⟩

/-- The first choice takes the first alternative of every slot. -/
theorem first_choice (haligned : Aligned topics ss) (hne : ∀ s ∈ ss, s.alternatives ≠ []) :
    ∃ p rest, choices (ss.map Slot.alternatives) = p :: rest ∧
      (Beyond topics p ↔ Reaches (firsts ss)) ∧
      (¬ Blank p ∧ Agrees topics p ↔ Fits (firsts ss) ∧ Hits (firsts ss)) := by
  have hnil : [] ∉ ss.map Slot.alternatives := by
    intro hmem
    obtain ⟨s, hs, hempty⟩ := List.mem_map.1 hmem
    exact hne s hs hempty
  obtain ⟨p, rest, hp, hheads⟩ := choices_head hnil
  have hfirsts : choices ((firsts ss).map Slot.alternatives) = [p] := by
    rw [firsts_alternatives, choices_take_one hheads]
  refine ⟨p, rest, hp, ?_, ?_⟩
  · rw [← exists_beyond_iff (firsts_aligned haligned) (firsts_nonempty hne), hfirsts]
    simp
  · rw [← exists_agrees_iff (firsts_aligned haligned), hfirsts]
    simp

/-- The choices begin with a block in which the log has only one choice: all of them agree at the
positions of the log, and some choice of the block reaches beyond the log if any choice does. -/
theorem first_block (topics : List H256) (hne : ∀ s ∈ ss, s.alternatives ≠ []) :
    ∃ block rest, choices (ss.map Slot.alternatives) = block ++ rest ∧
      (∀ p ∈ block, ∀ q ∈ block, ∀ j, j < topics.length → p[j]? = q[j]?) ∧
      ((∃ p ∈ choices (ss.map Slot.alternatives), Beyond topics p) →
        ∃ p ∈ block, Beyond topics p) := by
  have hnil : [] ∉ (ss.take topics.length).map Slot.alternatives := by
    intro hmem
    obtain ⟨s, hs, hempty⟩ := List.mem_map.1 hmem
    exact hne s (List.mem_of_mem_take hs) hempty
  obtain ⟨h, hs, hheads, -⟩ := choices_head hnil
  have hsplit : choices (ss.map Slot.alternatives) =
      (h :: hs).flatMap fun p => (choices ((ss.drop topics.length).map Slot.alternatives)).map
        (p ++ ·) := by
    rw [← hheads, ← choices_append, ← List.map_append, List.take_append_drop]
  have hlength : ∀ p ∈ h :: hs, p.length = min topics.length ss.length := by
    intro p hp
    rw [← hheads] at hp
    rw [(mem_choices_iff.1 hp).length_eq, List.length_take]
  have htails : ∀ t ∈ choices ((ss.drop topics.length).map Slot.alternatives),
      t.length = ss.length - topics.length := by
    intro t ht
    rw [(mem_choices_iff.1 ht).length_eq, List.length_drop]
  refine ⟨_, _, hsplit.trans List.flatMap_cons, ?_, ?_⟩
  · -- at a position of the log there is nothing but the choice `h`
    have hread : ∀ p ∈ (choices ((ss.drop topics.length).map Slot.alternatives)).map (h ++ ·),
        ∀ j, j < topics.length → p[j]? = h[j]? := by
      intro p hp j hj
      obtain ⟨t, ht, rfl⟩ := List.mem_map.1 hp
      have hlen := hlength h List.mem_cons_self
      have hlen' := htails t ht
      by_cases hin : j < h.length
      · rw [List.getElem?_append_left hin]
      · rw [List.getElem?_eq_none (by rw [List.length_append]; omega),
          List.getElem?_eq_none (not_lt.1 hin)]
    intro p hp q hq j hj
    rw [hread p hp j hj, hread q hq j hj]
  · rintro ⟨p, hp, j, x, hx, hj⟩
    rw [hsplit] at hp
    obtain ⟨h', hh', hp⟩ := List.mem_flatMap.1 hp
    obtain ⟨t, ht, rfl⟩ := List.mem_map.1 hp
    refine ⟨h ++ t, List.mem_map.2 ⟨t, ht, rfl⟩, j, x, ?_, hj⟩
    have hlen := hlength h List.mem_cons_self
    have hlen' := hlength h' hh'
    rw [List.getElem?_append_right (by omega)] at hx ⊢
    rw [hlen, ← hlen']
    exact hx

theorem agrees_lt (h : Agrees topics p) {j : ℕ} {t : H256} (hj : p[j]? = some (some t)) :
    j < topics.length := (List.getElem?_eq_some_iff.1 (h j t hj)).1

/-- A choice that agrees with the log does so at the positions of the log, and so does every choice
that is the same there and does not reach beyond the log. -/
theorem accepted_of_same {q : List (Option H256)} (hp : ¬ Beyond topics p)
    (hsame : ∀ j, j < topics.length → p[j]? = q[j]?) (hblank : ¬ Blank q) (hq : Agrees topics q) :
    ¬ Blank p ∧ Agrees topics p := by
  constructor
  · intro hpblank
    refine hblank fun a ha => ?_
    cases a with
    | none => rfl
    | some t =>
      obtain ⟨j, hj⟩ := List.mem_iff_getElem?.1 ha
      rw [← hsame j (agrees_lt hq hj)] at hj
      exact hpblank _ (List.mem_of_getElem? hj)
  · intro j t ht
    have hlt : j < topics.length := by
      by_contra hge
      exact hp ⟨j, t, ht, not_lt.1 hge⟩
    rw [hsame j hlt] at ht
    exact hq j t ht

/-- The loop over all choices. -/
theorem loop_choices {log : Log} (haligned : Aligned log.topics ss)
    (hne : ∀ s ∈ ss, s.alternatives ≠ []) :
    filterTopicsLoop log ((choices (ss.map Slot.alternatives)).map .multiple) true = some true ↔
      ¬ Reaches (firsts ss) ∧ (Reaches ss → Fits (firsts ss) ∧ Hits (firsts ss)) ∧
        (¬ Reaches ss → Bare ss ∨ Fits ss ∧ Hits ss) := by
  obtain ⟨p, rest, hp, hbeyond, hagrees⟩ := first_choice haligned hne
  rw [← hbeyond, ← hagrees, ← exists_beyond_iff haligned hne]
  by_cases hfirst : Beyond log.topics p
  · rw [hp, List.map_cons, loop_beyond _ _ hfirst]
    exact iff_of_false (by simp) fun h => h.1 hfirst
  by_cases hreaches : ∃ q ∈ choices (ss.map Slot.alternatives), Beyond log.topics q
  · by_cases haccepted : ¬ Blank p ∧ Agrees log.topics p
    · rw [hp, List.map_cons, loop_agrees _ _ haccepted.1 haccepted.2, ← hp]
      exact iff_of_true rfl ⟨hfirst, fun _ => haccepted, fun h => absurd hreaches h⟩
    · refine iff_of_false ?_ fun h => haccepted (h.2.1 hreaches)
      obtain ⟨block, later, hblock, hsame, hsome⟩ := first_block log.topics hne
      have hpblock : p ∈ block := by
        cases block with
        | nil =>
          obtain ⟨q, hq, -⟩ := hsome hreaches
          exact absurd hq List.not_mem_nil
        | cons q block =>
          rw [hp, List.cons_append, List.cons.injEq] at hblock
          rw [hblock.1]
          exact List.mem_cons_self
      have hnone : ∀ q ∈ block, ¬ Blank q → ¬ Agrees log.topics q := by
        intro q hq hblank hq'
        exact haccepted (accepted_of_same hfirst (hsame p hpblock q hq) hblank hq')
      rw [hblock, List.map_append, loop_reaches (hsome hreaches) hnone]
      simp
  · have hall : ∀ q ∈ choices (ss.map Slot.alternatives), ¬ Beyond log.topics q :=
      fun q hq h => hreaches ⟨q, hq, h⟩
    rw [loop_within hall, exists_agrees_iff haligned, forall_blank_iff hne]
    constructor
    · intro h
      refine ⟨hfirst, fun h => absurd h hreaches, fun _ => ?_⟩
      exact h.symm.imp_left And.right
    · rintro ⟨-, -, h⟩
      exact (h hreaches).symm.imp_right fun h => ⟨rfl, h⟩

end Slots

/-! ## Filters -/

theorem slotsFrom_alternatives (topics : List H256) (k : ℕ) (lists : List (List (Option H256))) :
    (slotsFrom topics k lists).map Slot.alternatives = lists := by
  unfold slotsFrom
  apply List.ext_getElem?
  intro j
  rw [List.getElem?_map, List.getElem?_mapIdx, Option.map_map]
  exact Option.map_id'

theorem slotsFrom_aligned (topics : List H256) (lists : List (List (Option H256))) :
    Aligned topics (slotsFrom topics 0 lists) := by
  intro j s hs
  unfold slotsFrom at hs
  rw [List.getElem?_mapIdx] at hs
  obtain ⟨l, -, rfl⟩ := Option.map_eq_some_iff.1 hs
  rw [Nat.zero_add]

theorem cartesian_eq_choices {lists : List (List (Option H256))} (h : lists ≠ []) :
    cartesian lists = choices lists := by
  obtain ⟨first, rest, rfl⟩ := List.exists_cons_of_ne_nil h
  rw [cartesian, foldl_append_choices, List.flatMap_map]
  rfl

/-- The loop of `filter_topics` runs over all choices, in both shapes. -/
theorem filterTopics_eq_loop {filter : Filter} {topic : Topic}
    {entries : List (Option (VariadicValue (Option H256)))} (htopic : filter.topics = some topic)
    (hshape : topic.Shape entries) (log : Log) :
    (new (some filter)).filterTopics log =
      filterTopicsLoop log ((choices (entries.map alternatives)).map .multiple) true := by
  unfold filterTopics new
  dsimp only
  rw [htopic]
  cases hshape with
  | flat v h =>
    have hlists : entries.map alternatives = v.map fun a => [a] := by
      rw [h, List.map_map]
      refine List.map_congr_left fun a _ => ?_
      cases a <;> rfl
    rw [hlists, choices_singletons]
    rfl
  | nested =>
    cases entries with
    | nil => exact (loop_blank [] true (nofun : Blank [])).symm
    | cons entry entries =>
      show filterTopicsLoop log ((cartesian _).map .multiple) true = _
      rw [cartesian_eq_choices (by simp)]

theorem filterTopics_iff {filter : Filter} {topic : Topic}
    {entries : List (Option (VariadicValue (Option H256)))} (htopic : filter.topics = some topic)
    (hshape : topic.Shape entries) (log : Log) :
    (new (some filter)).filterTopics log = some true ↔
      Passes (slotsFrom log.topics 0 (entries.map alternatives)) := by
  have hlists := slotsFrom_alternatives log.topics 0 (entries.map alternatives)
  rw [filterTopics_eq_loop htopic hshape, ← hlists]
  unfold Passes
  by_cases hempty : ∃ s ∈ slotsFrom log.topics 0 (entries.map alternatives), s.alternatives = []
  · obtain ⟨s, hs, hs'⟩ := hempty
    rw [choices_of_empty (List.mem_map.2 ⟨s, hs, hs'⟩), hlists]
    exact iff_of_true rfl (Or.inl ⟨s, hs, hs'⟩)
  · have hne : ∀ s ∈ slotsFrom log.topics 0 (entries.map alternatives), s.alternatives ≠ [] :=
      fun s hs hs' => hempty ⟨s, hs, hs'⟩
    rw [loop_choices (slotsFrom_aligned _ _) hne, hlists, or_iff_right hempty]

/-- The answer to a filter, as a truth value. -/
theorem filterTopics_answer {filter : Filter} {topic : Topic}
    {entries : List (Option (VariadicValue (Option H256)))} (htopic : filter.topics = some topic)
    (hshape : topic.Shape entries) (log : Log) :
    ∃ answer, (new (some filter)).filterTopics log = some answer ∧
      (answer = true ↔ Passes (slotsFrom log.topics 0 (entries.map alternatives))) := by
  obtain ⟨answer, hanswer⟩ := Option.isSome_iff_exists.1
    (filterTopics_isSome (new (some filter)) log)
  refine ⟨answer, hanswer, ?_⟩
  rw [← filterTopics_iff htopic hshape log, hanswer, Option.some.injEq]

end Shadows.Rpc

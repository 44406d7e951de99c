import Shadows.Rpc.Proofs.FilterPoolProofs
import Mathlib.Data.List.Count

/-!
# Proofs: one filter in a run

What a step does to one filter of the pool, and to the requests in flight that poll it.
-/

namespace Shadows.Rpc

open Foundations

variable {cfg : FilterConfig} {node node' : Node} {event : Event} {key : U256}

/-- Under the lock a method changes only the pool, or fails with the pool as it is. -/
theorem locked_cases {α : Type} {method : FilterPool → Option (Except FilterError α × FilterPool)}
    {response : Option (Except FilterError α)} (h : node.locked method = (response, node')) :
    node'.best = node.best ∧ node'.inFlight = node.inFlight ∧
      ((node'.pool = node.pool ∧ ∀ a, response ≠ some (.ok a)) ∨
        ∃ result, response = some result ∧ method node.pool = some (result, node'.pool)) := by
  unfold Node.locked at h
  split_ifs at h
  · simp only [Prod.mk.injEq] at h
    obtain ⟨rfl, rfl⟩ := h
    exact ⟨rfl, rfl, .inl ⟨rfl, fun a h => nomatch h⟩⟩
  · cases hmethod : method node.pool with
    | none =>
      simp only [hmethod, Prod.mk.injEq] at h
      obtain ⟨rfl, rfl⟩ := h
      exact ⟨rfl, rfl, .inl ⟨rfl, fun a h => nomatch h⟩⟩
    | some out =>
      obtain ⟨result, pool⟩ := out
      simp only [hmethod, Prod.mk.injEq] at h
      obtain ⟨rfl, rfl⟩ := h
      exact ⟨rfl, rfl, .inr ⟨result, rfl, rfl⟩⟩

/-- What a step may do to the filter of an id. -/
inductive ItemChange (cfg : FilterConfig) (key : U256) (node : Node) (event : Event)
    (node' : Node) : Prop where
  | kept (hitem : node'.pool[key]? = node.pool[key]?)
      (hevent : ∀ sample changes, event ≠ .polled key sample (some (.ok changes)))
  | removed (hitem : node'.pool[key]? = none)
  | installed (hnew : key ∉ node.pool) (filterType : FilterType) (sample : UInt32)
      (hevent : event = .created filterType sample (some (.ok key)))
      (hitem : node'.pool[key]? =
        some ⟨.num sample.toUInt64, filterType, sample.toUInt64⟩)
  | polled (sample : UInt32) (changes : FilterChanges) (item : FilterPoolItem) (last : UInt64)
      (hevent : event = .polled key sample (some (.ok changes)))
      (hflight : (.filterChanges key, sample) ∈ node.inFlight)
      (hitem : node.pool[key]? = some item) (hlast : item.lastPoll = .num last)
      (hitem' : node'.pool[key]? = some { item with lastPoll := .num (sample.toUInt64 + 1) })
      (hanswers : sample ≤ node.best → Answers cfg last ⟨sample, node.best, changes⟩ item.filterType)

theorem mem_iff_isSome {pool : FilterPool} {key : U256} : key ∈ pool ↔ (pool[key]?).isSome :=
  Std.TreeMap.mem_iff_isSome_getElem?

theorem not_mem_of_eq_none {pool : FilterPool} {key : U256} (h : pool[key]? = none) :
    key ∉ pool := by
  rw [mem_iff_isSome, h]
  exact Bool.false_ne_true

theorem getElem?_insert_ne {pool : FilterPool} {key key' : U256} (h : key' ≠ key)
    (item : FilterPoolItem) : (pool.insert key' item)[key]? = pool[key]? := by
  rw [Std.TreeMap.getElem?_insert, if_neg]
  exact fun hcompare => h (Std.LawfulEqCmp.eq_of_compare hcompare)

theorem Step.itemChange (h : Step cfg node event node') (key : U256) :
    ItemChange cfg key node event node' := by
  cases h with
  | imported best hbest => exact .kept rfl fun _ _ h => nomatch h
  | sampled request => exact .kept rfl fun _ _ h => nomatch h
  | created _ filterType sample response hflight hrun =>
    obtain ⟨-, -, ⟨hpool, -⟩ | ⟨result, rfl, hmethod⟩⟩ := locked_cases hrun
    · exact .kept (by rw [hpool]; rfl) fun _ _ h => nomatch h
    · cases result with
      | error err => exact .kept (by rw [createFilter_error hmethod]; rfl) fun _ _ h => nomatch h
      | ok key' =>
        obtain ⟨hpool, hfresh, -⟩ := createFilter_ok hmethod
        by_cases hkey : key' = key
        · subst hkey
          refine .installed (fun hmem => ?_) filterType sample rfl ?_
          · exact absurd (hfresh key' hmem) (lt_irrefl _)
          · rw [hpool, Std.TreeMap.getElem?_insert_self]
        · exact .kept (by rw [hpool, getElem?_insert_ne hkey]; rfl) fun _ _ h => nomatch h
  | polled _ key' sample api response hflight hserves hrun =>
    obtain ⟨-, -, ⟨hpool, hfailed⟩ | ⟨result, rfl, hmethod⟩⟩ := locked_cases hrun
    · refine .kept (by rw [hpool]; rfl) fun _ changes h => ?_
      simp only [Event.polled.injEq] at h
      exact hfailed changes h.2.2
    · rcases filterChanges_cases hmethod with
        ⟨err, rfl, hpool⟩ | ⟨changes, item, last, rfl, hitem, hlast, hpool, hanswers⟩
      · exact .kept (by rw [hpool]; rfl) fun _ _ h => nomatch h
      · by_cases hkey : key' = key
        · subst hkey
          refine .polled sample changes item last rfl hflight hitem hlast ?_ (hanswers hserves)
          rw [hpool, Std.TreeMap.getElem?_insert_self]
        · refine .kept (by rw [hpool, getElem?_insert_ne hkey]; rfl) fun _ _ h => ?_
          simp only [Event.polled.injEq] at h
          exact hkey h.1
  | uninstalled _ key' response hrun =>
    obtain ⟨-, -, ⟨hpool, -⟩ | ⟨result, rfl, hmethod⟩⟩ := locked_cases hrun
    · exact .kept (by rw [hpool]) fun _ _ h => nomatch h
    · have hpool : (uninstallFilter key' node.pool).2 = node'.pool :=
        congrArg Prod.snd (Option.some.inj hmethod)
      rcases uninstallFilter_getElem? key' key node.pool with hkept | hgone
      · exact .kept (by rw [← hpool]; exact hkept) fun _ _ h => nomatch h
      · exact .removed (by rw [← hpool]; exact hgone)
  | expired _ importedNumber response hrun =>
    obtain ⟨-, -, ⟨hpool, -⟩ | ⟨result, -, hmethod⟩⟩ := locked_cases hrun
    · exact .kept (by rw [hpool]) fun _ _ h => nomatch h
    · have hpool : expireFilters cfg.retainThreshold importedNumber node.pool = node'.pool :=
        congrArg Prod.snd (Option.some.inj hmethod)
      rcases expireFilters_getElem? cfg.retainThreshold importedNumber key node.pool with
        hkept | hgone
      · exact .kept (by rw [← hpool]; exact hkept) fun _ _ h => nomatch h
      · exact .removed (by rw [← hpool]; exact hgone)

/-! ## Polls in flight -/

/-- What a step may do to the requests in flight. -/
inductive FlightChange (node : Node) (event : Event) (node' : Node) : Prop where
  | kept (hbest : node.best ≤ node'.best) (hflight : node'.inFlight = node.inFlight)
      (hevent : ∀ key sample response, event ≠ .polled key sample response)
  | sampled (request : Request) (hevent : event = .sampled request)
      (hbest : node'.best = node.best)
      (hflight : node'.inFlight = node.inFlight ++ [(request, node.best)])
  | answered (request : Request) (sample : UInt32) (hbest : node'.best = node.best)
      (hmem : (request, sample) ∈ node.inFlight)
      (hflight : node'.inFlight = node.inFlight.erase (request, sample))
      (hevent : ∀ key sample' response, event = .polled key sample' response →
        request = .filterChanges key)

theorem Step.flightChange (h : Step cfg node event node') : FlightChange node event node' := by
  cases h with
  | imported best hbest => exact .kept hbest rfl fun _ _ _ h => nomatch h
  | sampled request => exact .sampled request rfl rfl rfl
  | created _ filterType sample response hmem hrun =>
    obtain ⟨hbest, hflight, -⟩ := locked_cases hrun
    exact .answered _ sample hbest hmem hflight fun _ _ _ h => nomatch h
  | polled _ key sample api response hmem hserves hrun =>
    obtain ⟨hbest, hflight, -⟩ := locked_cases hrun
    refine .answered _ sample hbest hmem hflight fun _ _ _ h => ?_
    simp only [Event.polled.injEq] at h
    rw [h.1]
  | uninstalled _ key response hrun =>
    obtain ⟨hbest, hflight, -⟩ := locked_cases hrun
    exact .kept (by rw [hbest]; exact UInt32.le_refl _) hflight fun _ _ _ h => nomatch h
  | expired _ importedNumber response hrun =>
    obtain ⟨hbest, hflight, -⟩ := locked_cases hrun
    exact .kept (by rw [hbest]; exact UInt32.le_refl _) hflight fun _ _ _ h => nomatch h

/-- The polls in flight when one of them, or another request, is answered. -/
theorem pollsInFlight_answered {request : Request} {sample : UInt32}
    (hflight : node'.inFlight = node.inFlight.erase (request, sample))
    (hmem : (request, sample) ∈ node.inFlight) :
    pollsInFlight key node' =
      pollsInFlight key node - if request = .filterChanges key then 1 else 0 := by
  unfold pollsInFlight
  rw [hflight, List.countP_erase]
  by_cases hrequest : request = .filterChanges key
  · simp [hrequest, hrequest ▸ hmem]
  · simp [hrequest]

theorem Follows.step {floor : UInt32} (hf : Follows key floor node)
    (h : Step cfg node event node') (hone : OneAfterAnother key node event node') :
    Follows key floor node' := by
  cases h.flightChange with
  | kept hbest hflight hevent =>
    refine ⟨UInt32.le_trans hf.floor_le hbest, fun sample hmem => ?_, ?_⟩
    · rw [hflight] at hmem
      obtain ⟨hfloor, hsample⟩ := hf.sampled sample hmem
      exact ⟨hfloor, UInt32.le_trans hsample hbest⟩
    · unfold pollsInFlight
      rw [hflight]
      exact hf.single
  | sampled request hevent hbest hflight =>
    refine ⟨hbest ▸ hf.floor_le, fun sample hmem => ?_, ?_⟩
    · rw [hflight, List.mem_append, List.mem_singleton] at hmem
      rw [hbest]
      rcases hmem with hmem | hnew
      · exact hf.sampled sample hmem
      · rw [(Prod.mk.inj hnew).2]
        exact ⟨hf.floor_le, UInt32.le_refl _⟩
    · unfold pollsInFlight
      rw [hflight, List.countP_append, List.countP_singleton]
      by_cases hrequest : request = .filterChanges key
      · have hidle : node.inFlight.countP (fun entry => entry.1 = .filterChanges key) = 0 := by
          rw [List.countP_eq_zero]
          rintro ⟨other, sample⟩ hmem hother
          have hpoll : other = .filterChanges key := of_decide_eq_true hother
          exact hone (hrequest ▸ hevent) sample (hpoll ▸ hmem)
        rw [hidle]
        split_ifs <;> omega
      · rw [if_neg (by simpa using hrequest)]
        exact hf.single
  | answered request sample hbest hmem hflight hevent =>
    refine ⟨hbest ▸ hf.floor_le, fun sample' hmem' => ?_, ?_⟩
    · rw [hflight] at hmem'
      rw [hbest]
      exact hf.sampled sample' (List.mem_of_mem_erase hmem')
    · rw [pollsInFlight_answered hflight hmem]
      have := hf.single
      omega

/-- Once a poll is answered, none is in flight. -/
theorem Follows.polled {floor : UInt32} (hf : Follows key floor node)
    (h : Step cfg node event node') {sample : UInt32}
    {response : Option (Except FilterError FilterChanges)}
    (hpolled : event = .polled key sample response) : Follows key node.best node' := by
  cases h.flightChange with
  | kept _ _ hevent => exact absurd hpolled (hevent key sample response)
  | sampled request hevent => exact absurd (hevent.symm.trans hpolled) (fun h => nomatch h)
  | answered request sample' hbest hmem hflight hevent =>
    have hcount : pollsInFlight key node' = pollsInFlight key node - 1 := by
      rw [pollsInFlight_answered hflight hmem, if_pos (hevent key sample response hpolled)]
    have hsingle := hf.single
    have hnone : pollsInFlight key node' = 0 := by omega
    refine ⟨by rw [hbest]; exact UInt32.le_refl _, fun other hother => ?_, by omega⟩
    exact absurd (List.countP_eq_zero.1 hnone _ hother) (by simp)

end Shadows.Rpc

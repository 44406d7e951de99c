import Shadows.Rpc.Proofs.FilterIdProofs
import Shadows.Rpc.Proofs.FilterStepProofs

/-!
# Proofs: the life of a filter

Each step of a node is at most one operation on the table of the filters, so that after a run the filters
in the pool are those that live. No step makes the pool larger than its limit.
-/

namespace Shadows.Rpc

open Foundations

variable {cfg : FilterConfig} {node node' : Node} {event : Event}

/-! ## The operations on the pool -/

/-- What is removed from a list of ids. -/
theorem getElem?_foldl_erase (removeList : List U256) (key : U256) :
    ∀ pool : FilterPool, (removeList.foldl (fun pool key => pool.erase key) pool)[key]? =
      if key ∈ removeList then none else pool[key]? := by
  induction removeList with
  | nil => exact fun pool => rfl
  | cons removed rest ih =>
    intro pool
    rw [List.foldl_cons, ih, Std.TreeMap.getElem?_erase]
    by_cases hkey : key = removed
    · subst hkey
      simp
    · have hcompare : compare removed key ≠ .eq := fun h =>
        hkey (Std.LawfulEqCmp.eq_of_compare h).symm
      simp [hkey, hcompare]

/-- Expiry removes exactly the filters whose lifespan is over. -/
theorem getElem?_expireFilters (retainThreshold importedNumber : UInt64) (key : U256)
    (pool : FilterPool) :
    (expireFilters retainThreshold importedNumber pool)[key]? =
      pool[key]?.filter fun item => decide (importedNumber < item.atBlock + retainThreshold) := by
  have hmem : ∀ entry : U256 × FilterPoolItem, entry ∈ pool.toList ↔ pool[entry.1]? = some entry.2 :=
    fun entry => Std.TreeMap.mem_toList_iff_getElem?_eq_some
  unfold expireFilters
  dsimp only
  rw [getElem?_foldl_erase]
  split_ifs with hremoved
  · obtain ⟨⟨k, item⟩, hentry, hsome⟩ := List.mem_filterMap.1 hremoved
    dsimp only at hsome
    split_ifs at hsome with hover
    obtain rfl := Option.some.inj hsome
    have hitem : pool[k]? = some item := (hmem _).1 hentry
    have hkeep : ¬ importedNumber < item.atBlock + retainThreshold := UInt64.not_lt.2 hover
    rw [hitem, Option.filter_some, if_neg (by simpa using hkeep)]
  · cases hitem : pool[key]? with
    | none => rfl
    | some item =>
      have hkeep : importedNumber < item.atBlock + retainThreshold := by
        by_contra hover
        have hentry : (key, item) ∈ pool.toList := (hmem _).2 hitem
        exact hremoved (List.mem_filterMap.2 ⟨(key, item), hentry, if_pos (UInt64.not_lt.1 hover)⟩)
      rw [Option.filter_some, if_pos (by simpa using hkeep)]

theorem getElem?_uninstallFilter (key key' : U256) (pool : FilterPool) :
    (uninstallFilter key pool).2[key']? = if key' = key then none else pool[key']? := by
  unfold uninstallFilter
  by_cases hmem : key ∈ pool
  · rw [if_pos hmem]
    dsimp only
    rw [Std.TreeMap.getElem?_erase]
    by_cases hkey : key' = key
    · subst hkey
      simp
    · have hcompare : compare key key' ≠ .eq := fun h => hkey (Std.LawfulEqCmp.eq_of_compare h).symm
      rw [if_neg hcompare, if_neg hkey]
  · rw [if_neg hmem]
    by_cases hkey : key' = key
    · subst hkey
      rw [if_pos rfl]
      exact Option.not_isSome_iff_eq_none.1 fun h => hmem (mem_iff_isSome.2 h)
    · rw [if_neg hkey]

theorem size_foldl_erase_le (removeList : List U256) (pool : FilterPool) :
    (removeList.foldl (fun pool key => pool.erase key) pool).size ≤ pool.size := by
  induction removeList generalizing pool with
  | nil => exact le_rfl
  | cons removed rest ih =>
    rw [List.foldl_cons]
    exact (ih _).trans Std.TreeMap.size_erase_le

/-! ## One step -/

/-- A poll leaves the filters what they are. -/
theorem filterEntry_polled {key key' : U256} {pool : FilterPool} {item : FilterPoolItem}
    (hitem : pool[key]? = some item) (lastPoll : BlockNumber) :
    ((pool.insert key { item with lastPoll := lastPoll })[key']?.map
        fun item => (item.filterType, item.atBlock)) =
      pool[key']?.map fun item => (item.filterType, item.atBlock) := by
  by_cases hkey : key = key'
  · subst hkey
    rw [Std.TreeMap.getElem?_insert_self, hitem]
    rfl
  · rw [getElem?_insert_ne hkey]

/-- A step does to the table of the filters what `filterOp` tells, and keeps the limit. -/
structure FilterChange (cfg : FilterConfig) (node : Node) (event : Event) (node' : Node) : Prop where
  size : node.pool.size ≤ cfg.maxStoredFilters → node'.pool.size ≤ cfg.maxStoredFilters
  entry : ∀ key, filterEntry key node' =
    (filterOp cfg node event).elim (filterEntry key node) fun op => op.entry key (filterEntry key node)

theorem filterChange_idle (hpool : node'.pool = node.pool) (hop : filterOp cfg node event = none) :
    FilterChange cfg node event node' where
  size := fun hsize => hpool ▸ hsize
  entry := by
    intro key
    unfold filterEntry
    rw [hpool, hop, Option.elim_none]

theorem filterChange_created {filterType : FilterType} {sample : UInt32} {key : U256}
    (hmethod : createFilter cfg.maxStoredFilters sample.toUInt64 filterType node.pool =
      some (.ok key, node'.pool)) :
    FilterChange cfg node (.created filterType sample (some (.ok key))) node' where
  size := by
    intro _
    obtain ⟨hpool, -, -⟩ := createFilter_ok hmethod
    unfold createFilter at hmethod
    split_ifs at hmethod with hfull
    · simp at hmethod
    · rw [hpool]
      have hsize : (node.pool.insert key ⟨.num sample.toUInt64, filterType, sample.toUInt64⟩).size ≤
          node.pool.size + 1 := Std.TreeMap.size_insert_le
      omega
  entry := by
    intro key'
    obtain ⟨hpool, -, -⟩ := createFilter_ok hmethod
    unfold filterEntry filterOp
    rw [hpool, Option.elim_some]
    by_cases hkey : key = key'
    · subst hkey
      rw [Std.TreeMap.getElem?_insert_self]
      exact (if_pos rfl).symm
    · rw [getElem?_insert_ne hkey]
      exact (if_neg hkey).symm

theorem filterChange_polled {key : U256} {sample : UInt32} {changes : FilterChanges}
    {item : FilterPoolItem} (hitem : node.pool[key]? = some item)
    (hpool : node'.pool = node.pool.insert key { item with lastPoll := .num (sample.toUInt64 + 1) }) :
    FilterChange cfg node (.polled key sample (some (.ok changes))) node' where
  size := by
    intro hsize
    have hmem : node.pool.contains key = true :=
      mem_iff_isSome.2 (Option.isSome_iff_exists.2 ⟨item, hitem⟩)
    rw [hpool, Std.TreeMap.size_insert, if_pos hmem]
    exact hsize
  entry := by
    intro key'
    unfold filterEntry filterOp
    rw [hpool, Option.elim_none]
    exact filterEntry_polled hitem _

theorem filterChange_uninstalled {key : U256} {response : Except FilterError Bool}
    (hmethod : uninstallFilter key node.pool = (response, node'.pool)) :
    FilterChange cfg node (.uninstalled key (some response)) node' := by
  have hpool : node'.pool = (uninstallFilter key node.pool).2 := congrArg Prod.snd hmethod.symm
  have hresponse : response = (uninstallFilter key node.pool).1 := congrArg Prod.fst hmethod.symm
  by_cases hmem : key ∈ node.pool
  · have htrue : response = .ok true := by
      rw [hresponse, uninstallFilter, if_pos hmem]
    subst htrue
    refine ⟨fun hsize => ?_, fun key' => ?_⟩
    · rw [hpool, uninstallFilter, if_pos hmem]
      exact Std.TreeMap.size_erase_le.trans hsize
    · unfold filterEntry filterOp
      rw [hpool, getElem?_uninstallFilter, Option.elim_some]
      by_cases hkey : key' = key
      · simp [hkey, TableOp.entry]
      · cases node.pool[key']? with
        | none => simp [hkey, TableOp.entry]
        | some item => simp [hkey, TableOp.entry, Option.filter_some]
  · have hsame : node'.pool = node.pool := by
      rw [hpool, uninstallFilter, if_neg hmem]
    have hfailed : response = .error (.notExist key) := by
      rw [hresponse, uninstallFilter, if_neg hmem]
    rw [hfailed]
    exact filterChange_idle hsame rfl

theorem filterChange_expired {importedNumber : UInt64} {response : Option (Except FilterError Unit)}
    (hrun : node.locked (fun pool =>
      some (.ok (), expireFilters cfg.retainThreshold importedNumber pool)) = (response, node')) :
    FilterChange cfg node (.expired importedNumber) node' := by
  unfold Node.locked at hrun
  split_ifs at hrun with hpoisoned
  · obtain rfl := (Prod.mk.inj hrun).2
    exact filterChange_idle rfl (if_pos hpoisoned)
  · obtain rfl := (Prod.mk.inj hrun).2
    refine ⟨fun hsize => (size_foldl_erase_le _ _).trans hsize, fun key => ?_⟩
    have hop : filterOp cfg node (.expired importedNumber) =
        some (.sweep fun _ entry => decide (importedNumber < entry.2 + cfg.retainThreshold)) :=
      if_neg hpoisoned
    unfold filterEntry
    rw [hop, Option.elim_some, getElem?_expireFilters]
    cases node.pool[key]? with
    | none => rfl
    | some item =>
      simp only [Option.filter_some, Option.map_some, TableOp.entry]
      split_ifs <;> rfl

theorem Step.filterChange (h : Step cfg node event node') : FilterChange cfg node event node' := by
  cases h with
  | imported best hbest => exact filterChange_idle rfl rfl
  | sampled request => exact filterChange_idle rfl rfl
  | created _ filterType sample response hflight hrun =>
    obtain ⟨-, -, ⟨hpool, hfailed⟩ | ⟨result, rfl, hmethod⟩⟩ := locked_cases hrun
    · refine filterChange_idle hpool ?_
      cases response with
      | none => rfl
      | some result =>
        cases result with
        | error err => rfl
        | ok key => exact absurd rfl (hfailed key)
    · cases result with
      | error err => exact filterChange_idle (createFilter_error hmethod) rfl
      | ok key => exact filterChange_created hmethod
  | polled _ key' sample api response hflight hserves hrun =>
    obtain ⟨-, -, ⟨hpool, hfailed⟩ | ⟨result, rfl, hmethod⟩⟩ := locked_cases hrun
    · exact filterChange_idle hpool rfl
    · rcases filterChanges_cases hmethod with
        ⟨err, rfl, hpool⟩ | ⟨changes, item, last, rfl, hitem, hlast, hpool, -⟩
      · exact filterChange_idle hpool rfl
      · exact filterChange_polled hitem hpool
  | uninstalled _ key' response hrun =>
    obtain ⟨-, -, ⟨hpool, hfailed⟩ | ⟨result, rfl, hmethod⟩⟩ := locked_cases hrun
    · refine filterChange_idle hpool ?_
      rcases response with - | err | removed
      · rfl
      · rfl
      · exact absurd rfl (hfailed removed)
    · exact filterChange_uninstalled (Option.some.inj hmethod)
  | expired _ importedNumber response hrun => exact filterChange_expired hrun

/-! ## A run -/

/-- A run does to the table of the filters what `filterOps` tells. -/
theorem filterEntry_endState {run : List (Event × Node)} (hrun : IsRun (Step cfg) node run) :
    (node.pool.size ≤ cfg.maxStoredFilters →
        (endState node run).pool.size ≤ cfg.maxStoredFilters) ∧
      ∀ key, filterEntry key (endState node run) =
        (filterOps cfg node run).foldl (fun old op => op.entry key old) (filterEntry key node) := by
  induction run generalizing node with
  | nil => exact ⟨id, fun _ => rfl⟩
  | cons step run ih =>
    obtain ⟨event, node'⟩ := step
    obtain ⟨hstep, hrest⟩ := hrun
    obtain ⟨hsize, hentries⟩ := ih hrest
    obtain ⟨hkept, hentry⟩ := hstep.filterChange
    refine ⟨fun h => hsize (hkept h), fun key => ?_⟩
    rw [endState, hentries key, hentry key, filterOps, List.foldl_append]
    cases filterOp cfg node event with
    | none => rfl
    | some op => rfl

/-- **The life of a filter.** However requests, imports and expiry interleave, a filter is in the pool
exactly if it has been created, and since then neither has it been uninstalled nor has a block been
imported at which its lifespan from the creation is over; polls do not prolong it. The pool never holds
more filters than its limit. -/
theorem filter_life {run : List (Event × Node)} (hempty : node.pool = ∅)
    (hrun : IsRun (Step cfg) node run) :
    (endState node run).pool.size ≤ cfg.maxStoredFilters ∧
      ∀ key entry, filterEntry key (endState node run) = some entry ↔
        TableOp.Lives key entry (filterOps cfg node run) := by
  obtain ⟨hsize, hentries⟩ := filterEntry_endState hrun
  have hnone : ∀ key, filterEntry key node = none := by
    intro key
    unfold filterEntry
    rw [hempty, Std.TreeMap.getElem?_emptyc, Option.map_none]
  refine ⟨hsize ?_, fun key entry => ?_⟩
  · rw [hempty]
    exact Nat.zero_le _
  · rw [hentries key, hnone key]
    exact TableOp.foldl_entry_eq_some_iff

theorem expiringRun_isRun : IsRun (Step loggedConfig) idleNode expiringRun :=
  ⟨.sampled _ _, .created _ _ _ 0 _ (by decide) rfl, .expired _ _ 99 (some (.ok ())) rfl,
    .expired _ _ 100 (some (.ok ())) rfl, trivial⟩

theorem filter_life_expiring :
    (endState idleNode expiringRun).pool.size ≤ 500 ∧
      ∀ key entry, filterEntry key (endState idleNode expiringRun) = some entry ↔
        TableOp.Lives key entry
          [.put 1 (.block, 0), .sweep fun _ entry => decide (99 < entry.2 + 100),
            .sweep fun _ entry => decide (100 < entry.2 + 100)] :=
  filter_life rfl expiringRun_isRun

end Shadows.Rpc

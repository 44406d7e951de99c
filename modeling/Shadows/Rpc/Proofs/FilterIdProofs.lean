import Shadows.Rpc.Proofs.FilterStepProofs
import Mathlib.Data.List.Nodup

/-!
# Proofs: the ids of filters

The next id is the successor of the largest one in the pool. The invariant of a run from an empty
pool is that the ids returned so far are those up to the largest one returned, and that the pool has
none above it.
-/

namespace Shadows.Rpc

open Foundations

variable {cfg : FilterConfig}

/-- A successful `create_filter` adds its id to the pool, where it is above the others. -/
theorem created_id {node node' : Node} {event : Event} {key : U256}
    (h : Step cfg node event node') (hid : event.createdId = some key) :
    (∀ k ∈ node.pool, k.val < key.val) ∧ (key.val = 1 ∨ ∃ k ∈ node.pool, key.val = k.val + 1) ∧
      ∀ k ∈ node'.pool, k = key ∨ k ∈ node.pool := by
  cases h with
  | created _ filterType sample response hflight hrun =>
    obtain ⟨-, -, ⟨-, hfailed⟩ | ⟨result, rfl, hmethod⟩⟩ := locked_cases hrun
    · unfold Event.createdId at hid
      split at hid
      · next heq =>
        simp only [Event.created.injEq] at heq
        exact absurd heq.2.2 (hfailed _)
      · exact absurd hid (fun h => nomatch h)
    · cases result with
      | error err => exact absurd hid (fun h => nomatch h)
      | ok key' =>
        obtain rfl := Option.some.inj hid
        obtain ⟨hpool, hfresh, hsucc⟩ := createFilter_ok hmethod
        refine ⟨hfresh, hsucc, fun k hk => ?_⟩
        rw [hpool, Std.TreeMap.mem_insert] at hk
        rcases hk with hcompare | hk
        · exact .inl (Std.LawfulEqCmp.eq_of_compare hcompare).symm
        · exact .inr hk
  | _ => exact absurd hid (fun h => nomatch h)

/-- Any other step adds no id to the pool. -/
theorem mem_of_not_created {node node' : Node} {event : Event} (h : Step cfg node event node')
    (hid : event.createdId = none) {k : U256} (hk : k ∈ node'.pool) : k ∈ node.pool := by
  cases h.itemChange k with
  | kept hitem => rwa [mem_iff_isSome, hitem, ← mem_iff_isSome] at hk
  | removed hgone => exact absurd hk (not_mem_of_eq_none hgone)
  | installed _ _ _ hevent =>
    rw [hevent] at hid
    exact absurd hid (fun h => nomatch h)
  | polled _ _ _ _ _ _ hitem => exact mem_iff_isSome.2 (by rw [hitem]; rfl)

theorem freshId_of_step {node node' : Node} {event : Event} (h : Step cfg node event node') :
    FreshId node event node' := by
  intro key hid hmem
  obtain ⟨hbelow, -⟩ := created_id h hid
  exact absurd (hbelow key hmem) (lt_irrefl _)

/-- The number of the id returned last, which is also how many have been returned. -/
def latestNumber : Option U256 → ℕ
  | some latest => latest.val
  | none => 0

/-- The ids that have been returned are those from `1` to the latest one, and the pool has no
others. -/
structure IdsUpTo (latest : Option U256) (ids : List U256) (node : Node) : Prop where
  nodup : ids.Nodup
  mem_ids : ∀ k : U256, k ∈ ids ↔ 1 ≤ k.val ∧ k.val ≤ latestNumber latest
  pool_le : ∀ k ∈ node.pool, k.val ≤ latestNumber latest
  latest_mem : ∀ k ∈ latest, k ∈ ids

section Created

variable {latest : Option U256} {ids : List U256} {node node' : Node} {event : Event} {key : U256}

/-- With the latest filter in the pool, the next id is a new one. -/
theorem IdsUpTo.created (h : IdsUpTo latest ids node) (hstep : Step cfg node event node')
    (hid : event.createdId = some key) (hkept : ∀ k ∈ latest, k ∈ node.pool) :
    IdsUpTo (some key) (ids ++ [key]) node' := by
  obtain ⟨hbelow, hsucc, hpool⟩ := created_id hstep hid
  have hle : key.val ≤ latestNumber latest + 1 := by
    rcases hsucc with hone | ⟨k, hk, hsucc⟩
    · omega
    · have := h.pool_le k hk
      omega
  have hlt : latestNumber latest < key.val := by
    cases latest with
    | none =>
      show 0 < key.val
      rcases hsucc with hone | ⟨k, -, hsucc⟩ <;> omega
    | some last => exact hbelow last (hkept last rfl)
  have hnew : key ∉ ids := by
    rw [h.mem_ids]
    omega
  refine ⟨?_, fun k => ?_, fun k hk => ?_, fun k hk => ?_⟩
  · exact h.nodup.append (List.nodup_singleton key) (List.disjoint_singleton.2 hnew)
  · rw [List.mem_append, List.mem_singleton, h.mem_ids, Fin.ext_iff]
    show _ ↔ 1 ≤ k.val ∧ k.val ≤ key.val
    omega
  · show k.val ≤ key.val
    rcases hpool k hk with rfl | hk
    · exact le_refl _
    · exact (hbelow k hk).le
  · obtain rfl := Option.some.inj hk
    exact List.mem_append_right _ (List.mem_singleton_self _)

/-- Without it, the next id is one that has been returned before. -/
theorem IdsUpTo.reused (h : IdsUpTo latest ids node) (hstep : Step cfg node event node')
    (hid : event.createdId = some key) {last : U256} (hlast : latest = some last)
    (hgone : last ∉ node.pool) : key ∈ ids := by
  obtain ⟨-, hsucc, -⟩ := created_id hstep hid
  subst hlast
  obtain ⟨hpos, -⟩ := (h.mem_ids last).1 (h.latest_mem last rfl)
  rw [h.mem_ids]
  show 1 ≤ key.val ∧ key.val ≤ last.val
  rcases hsucc with hone | ⟨k, hk, hsucc⟩
  · omega
  · have hle : k.val ≤ last.val := h.pool_le k hk
    have hne : k.val ≠ last.val := fun heq => hgone (Fin.ext heq ▸ hk)
    omega

theorem IdsUpTo.other (h : IdsUpTo latest ids node) (hstep : Step cfg node event node')
    (hid : event.createdId = none) : IdsUpTo latest ids node' :=
  ⟨h.nodup, h.mem_ids, fun k hk => h.pool_le k (mem_of_not_created hstep hid hk), h.latest_mem⟩

end Created

theorem nodup_createdIds_iff (run : List (Event × Node)) : ∀ {latest : Option U256}
    {ids : List U256} {node : Node}, IdsUpTo latest ids node → IsRun (Step cfg) node run →
      ((ids ++ createdIds run).Nodup ↔ LatestKept latest node run) := by
  induction run with
  | nil =>
    intro latest ids node h _
    rw [show createdIds [] = [] from rfl, List.append_nil]
    exact iff_of_true h.nodup trivial
  | cons step run ih =>
    obtain ⟨event, node'⟩ := step
    rintro latest ids node h ⟨hstep, hrun⟩
    cases hid : event.createdId with
    | none =>
      have hcreated : createdIds ((event, node') :: run) = createdIds run :=
        List.filterMap_cons_none hid
      rw [hcreated, LatestKept, hid]
      exact ih (h.other hstep hid) hrun
    | some key =>
      have hcreated : createdIds ((event, node') :: run) = key :: createdIds run :=
        List.filterMap_cons_some hid
      rw [hcreated, LatestKept, hid]
      dsimp only
      by_cases hkept : ∀ k ∈ latest, k ∈ node.pool
      · rw [← ih (h.created hstep hid hkept) hrun, List.append_assoc]
        exact (and_iff_right hkept).symm
      · refine iff_of_false (fun hnodup => ?_) (fun hlatest => hkept hlatest.1)
        obtain ⟨last, hlast, hgone⟩ : ∃ last ∈ latest, last ∉ node.pool := by
          by_contra hall
          exact hkept fun k hk => by_contra fun hgone => hall ⟨k, hk, hgone⟩
        have hmem := h.reused hstep hid hlast hgone
        exact (List.nodup_append.1 hnodup).2.2 key hmem key (List.mem_cons_self ..) rfl

/-- **Ids.** In a run from an empty pool, no call of `create_filter` returns the id of a filter in the
pool, and no two calls return the same id exactly if at each one the filter created last is still
there. -/
theorem createdIds_fresh {node : Node} {run : List (Event × Node)} (hempty : node.pool = ∅)
    (hrun : IsRun (Step cfg) node run) :
    Each FreshId node run ∧ ((createdIds run).Nodup ↔ LatestKept none node run) := by
  have hpool : ∀ k, k ∉ node.pool := by
    intro k
    rw [hempty]
    exact Std.TreeMap.not_mem_emptyc
  constructor
  · exact Each.mono (fun _ _ _ hstep => freshId_of_step hstep) hrun
  · have hinit : IdsUpTo none [] node := by
      refine ⟨List.nodup_nil, fun k => ?_, fun k hk => absurd hk (hpool k), fun k hk => ?_⟩
      · refine iff_of_false List.not_mem_nil fun hk => ?_
        have hle : k.val ≤ 0 := hk.2
        omega
      · exact absurd hk (Option.not_mem_none k)
    exact nodup_createdIds_iff run hinit hrun

theorem recreatingRun_isRun : IsRun (Step loggedConfig) idleNode recreatingRun :=
  ⟨Step.sampled _ _, Step.created _ _ _ _ _ (by decide) rfl, Step.uninstalled _ _ _ _ rfl,
    Step.sampled _ _, Step.created _ _ _ _ _ (by decide) rfl, trivial⟩

theorem createdIds_fresh_recreating :
    Each FreshId idleNode recreatingRun ∧
      ((createdIds recreatingRun).Nodup ↔ LatestKept none idleNode recreatingRun) :=
  createdIds_fresh rfl recreatingRun_isRun

/-- The id of a filter that is uninstalled is returned again. -/
theorem id_reused :
    IsRun (Step loggedConfig) idleNode recreatingRun ∧ ¬ (createdIds recreatingRun).Nodup := by
  refine ⟨recreatingRun_isRun, ?_⟩
  rw [show createdIds recreatingRun = [1, 1] from rfl]
  decide

end Shadows.Rpc

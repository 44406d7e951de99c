import Shadows.Rpc.Proofs.PollingProofs

/-!
# Proofs: the cursor of a filter

A poll stores the number after the one it has read before it took the lock, whatever is stored then.
So the cursor follows the order in which requests take the lock, each with what it has read.
-/

namespace Shadows.Rpc

open Foundations

variable {cfg : FilterConfig} {key : U256}

theorem cursor_eq {node : Node} {item : FilterPoolItem} {last : UInt64}
    (hitem : node.pool[key]? = some item) (hlast : item.lastPoll = .num last) :
    cursor key node = some last := by
  unfold cursor
  rw [hitem, Option.bind_some, hlast]
  rfl

theorem cursorAdvances_iff {node node' : Node} {event : Event} {last last' : UInt64}
    (h : cursor key node = some last) (h' : cursor key node' = some last') :
    CursorAdvances key node event node' ↔ last ≤ last' := by
  constructor
  · exact fun hadvances => hadvances last last' h h'
  · intro hle m n hm hn
    rw [h] at hm
    rw [h'] at hn
    rwa [← Option.some.inj hm, ← Option.some.inj hn]

/-- A number before a sorted list can be left out if it is not above the first of the list. -/
theorem pairwise_cons_cons_iff (a b : UInt64) (rest : List UInt64) :
    (a :: b :: rest).Pairwise (· ≤ ·) ↔ a ≤ b ∧ (b :: rest).Pairwise (· ≤ ·) := by
  rw [List.pairwise_cons]
  constructor
  · exact fun h => ⟨h.1 b (List.mem_cons_self ..), h.2⟩
  · rintro ⟨hab, hrest⟩
    refine ⟨fun n hn => ?_, hrest⟩
    rcases List.mem_cons.1 hn with rfl | hn
    · exact hab
    · exact UInt64.le_trans hab ((List.pairwise_cons.1 hrest).1 n hn)

/-- **The cursor.** While a filter stays in the pool, its `last_poll` never moves back exactly if the
successful polls, in the order in which they take the lock, have read numbers that never go down, the
first of them none below the cursor. -/
theorem cursor_advances_iff (run : List (Event × Node)) : ∀ {node : Node} {last : UInt64},
    cursor key node = some last → IsRun (Step cfg) node run → Always (Installed key) node run →
      (Each (CursorAdvances key) node run ↔
        (last :: (polls key node run).map fun poll => poll.sample.toUInt64 + 1).Pairwise
          (· ≤ ·)) := by
  induction run with
  | nil => exact fun _ _ _ => ⟨fun _ => List.pairwise_singleton _ _, fun _ => trivial⟩
  | cons step run ih =>
    obtain ⟨event, node'⟩ := step
    rintro node last hcursor ⟨hstep, hrun⟩ ⟨hin, hinstalled⟩
    show CursorAdvances key node event node' ∧ Each _ node' run ↔ _
    cases hstep.itemChange key with
    | kept hkept hevent =>
      have hcursor' : cursor key node' = some last := by
        unfold cursor
        rw [hkept]
        exact hcursor
      rw [polls_cons_of_ne hevent, ih hcursor' hrun hinstalled, cursorAdvances_iff hcursor hcursor']
      exact and_iff_right (UInt64.le_refl last)
    | removed hgone =>
      have hin' : key ∈ node'.pool := hinstalled.head
      exact absurd hin' (not_mem_of_eq_none hgone)
    | installed hnew => exact absurd hin hnew
    | polled sample changes item last' hevent hflight hitem hlast hpolled hanswers =>
      have hcursor' : cursor key node' = some (sample.toUInt64 + 1) := cursor_eq hpolled rfl
      subst hevent
      rw [polls_cons_polled, ih hcursor' hrun hinstalled, cursorAdvances_iff hcursor hcursor',
        List.map_cons, pairwise_cons_cons_iff]

theorem overlappingPolls_isRun :
    IsRun (Step loggedConfig) (createdNode .block) overlappingPolls :=
  ⟨Step.sampled _ _, Step.imported _ 2 UInt32.zero_le, Step.sampled _ _,
    Step.polled _ _ 1 2 loggedChain.api _ (by decide) (loggedChain.api_serves 2) rfl,
    Step.polled _ _ 1 0 loggedChain.api _ (by decide) (loggedChain.api_serves 2) rfl, trivial⟩

theorem overlappingPolls_installed :
    Always (Installed 1) (createdNode .block) overlappingPolls := by
  refine ⟨?_, ?_, ?_, ?_, ?_, ?_⟩ <;> exact mem_iff_isSome.2 rfl

theorem cursor_advances_iff_overlapping :
    Each (CursorAdvances 1) (createdNode .block) overlappingPolls ↔
      (0 :: (polls 1 (createdNode .block) overlappingPolls).map
        fun poll => poll.sample.toUInt64 + 1).Pairwise (· ≤ ·) :=
  cursor_advances_iff overlappingPolls rfl overlappingPolls_isRun overlappingPolls_installed

/-- The request that has read the older number takes the lock last, and moves the cursor from `3` back
to `1`. -/
theorem cursor_moves_back :
    IsRun (Step loggedConfig) (createdNode .block) overlappingPolls ∧
      Always (Installed 1) (createdNode .block) overlappingPolls ∧
      ¬ Each (CursorAdvances 1) (createdNode .block) overlappingPolls := by
  refine ⟨overlappingPolls_isRun, overlappingPolls_installed, ?_⟩
  rintro ⟨-, -, -, -, hback, -⟩
  exact absurd (hback 3 1 rfl rfl) (by decide)

/-- Polls that are made one after the other read numbers that never go down. -/
theorem PollSeries.sorted {filterType : FilterType} {last : UInt64} {floor : UInt32}
    {series : List Poll} (h : PollSeries cfg filterType last floor series)
    (hlast : last.toNat ≤ floor.toNat + 1) :
    (last :: series.map fun poll => poll.sample.toUInt64 + 1).Pairwise (· ≤ ·) := by
  induction series generalizing last floor with
  | nil => exact List.pairwise_singleton _ _
  | cons first rest ih =>
    obtain ⟨hfloor, hsample, -, hrest⟩ := h
    rw [UInt32.le_iff_toNat_le] at hfloor hsample
    have hnext := toNat_succ first.sample
    rw [List.map_cons, pairwise_cons_cons_iff, UInt64.le_iff_toNat_le]
    exact ⟨by omega, ih hrest (by omega)⟩

/-- A client that polls in turn never moves the cursor of its filter back. -/
theorem PolledInTurn.cursor_advances {filterType : FilterType} {c : UInt32} {node : Node}
    {run : List (Event × Node)} (h : PolledInTurn cfg filterType key c node run) :
    Each (CursorAdvances key) node run := by
  obtain ⟨start, before, hstart, hrun⟩ := h.created
  obtain ⟨hc, hitem, hseries⟩ := h.pollSeries
  obtain ⟨-, -, hafter⟩ := Each.append.1 hrun
  have hc64 := UInt32.toNat_toUInt64 c
  rw [UInt32.le_iff_toNat_le] at hc
  exact (cursor_advances_iff run (cursor_eq hitem rfl) hafter h.installed).2
    (hseries.sorted (by omega))

end Shadows.Rpc

import Shadows.MappingSync.Worker
import Shadows.MappingSync.Proofs.CompletenessProofs
import Shadows.MappingSync.Proofs.SyncBlocksProofs

/-!
# Proofs: the worker sleeps only when there is nothing to do

A batch of two calls or more that syncs nothing has found the persisted tips and then the leaves synced,
so that everything is. If every import sends a notification, the next poll finds one for whatever has been
imported while the batch ran. While nothing is imported, a batch that has something to do syncs one block.
-/

namespace Shadows.MappingSync

open Db Foundations

variable {Hash : Type} [DecidableEq Hash] {hashing : Hashing} {chain : Chain Hash}
  {notifies : Hash → Bool}

/-! ## Batches -/

theorem syncBlocksLoop_call {client : Client Hash} {commits : Commits} {its : List (Iteration Hash)}
    {db : Database Hash} {r : Bool} (h : (syncOneBlock hashing client commits db).1 = .ok r) :
    syncBlocksLoop hashing (⟨client, commits⟩ :: its) false db =
      syncBlocksLoop hashing its r (syncOneBlock hashing client commits db).2 := by
  rw [syncBlocksLoop]
  dsimp only
  rw [if_neg Bool.false_ne_true]
  generalize syncOneBlock hashing client commits db = outcome at h
  obtain ⟨result, db'⟩ := outcome
  obtain rfl : result = .ok r := h
  rfl

/-- A walker that has nothing left to look at but the leaves, and has visited them, is done. -/
theorem Inv.all_written {s : SyncState Hash} (h : Inv hashing chain s) {client : Client Hash}
    (hc : client.Serves chain s.tree) {ls : List Hash} (hls : client.leaves = .ok ls)
    (hpending : s.walker.pending = []) (hvisited : ∀ b ∈ s.walker.start ls, b ∈ s.walker.visited) :
    ∀ b ∈ s.tree, b ∈ s.walker.visited := by
  obtain ⟨ls', hls', hmem⟩ := hc.leaves
  rw [hls, Except.ok.injEq] at hls'
  subst hls'
  refine h.tree.of_leaves (fun b hb => hvisited b ?_) fun b _ hb hne => ?_
  · unfold Walker.start
    rw [hpending]
    exact (hmem b).2 hb
  · rcases h.backed b hb hne with hparent | hparent
    · exact hparent
    · rw [hpending] at hparent
      exact absurd hparent List.not_mem_nil

/-- What a batch does on a tree that does not grow: it syncs one block, or it finds nothing to sync. -/
structure BatchEffect (hashing : Hashing) (chain : Chain Hash) (its : List (Iteration Hash))
    (s s' : SyncState Hash) (r : Bool) : Prop where
  tree : s'.tree = s.tree
  inv : Inv hashing chain s'
  synced : r = true → (s.tree \ s'.walker.visited).card + 1 = (s.tree \ s.walker.visited).card
  idle : r = false → s'.walker.visited = s.walker.visited
  /-- The first call has found all leaves synced. -/
  idle_leaves : r = false → its ≠ [] → s.walker.pending = [] → ∀ b ∈ s.tree, b ∈ s.walker.visited
  /-- The first call has left no tips, and the second has found all leaves synced. -/
  idle_twice : r = false → 2 ≤ its.length → ∀ b ∈ s.tree, b ∈ s.walker.visited

theorem syncBlocksLoop_effect {its : List (Iteration Hash)} : ∀ {s : SyncState Hash},
    Inv hashing chain s → (∀ it ∈ its, it.client.Serves chain s.tree ∧ it.commits = .succeed) →
      ∃ r s', syncBlocksLoop hashing its false s.db = (.ok r, s'.db) ∧
        BatchEffect hashing chain its s s' r := by
  induction its with
  | nil =>
    intro s h _
    exact ⟨false, s, rfl, ⟨rfl, h, nofun, fun _ => rfl, fun _ hne => absurd rfl hne,
      fun _ htwo => absurd htwo (Nat.not_succ_le_zero 1)⟩⟩
  | cons it its ih =>
    intro s h hits
    obtain ⟨client, commits⟩ := it
    obtain ⟨⟨hc, rfl⟩, hrest⟩ := List.forall_mem_cons.1 hits
    obtain ⟨ls, hls, -⟩ := hc.leaves
    obtain ⟨r, hr, hmove, hinv⟩ := sync_move h hc hls
    rw [syncBlocksLoop_call hr]
    cases r with
    | true =>
      have hcard := hmove.card_visit h.within (leaves_sub hc hls)
      exact ⟨true, s.sync hashing client .succeed, syncBlocksLoop_true _ _,
        ⟨rfl, hinv, fun _ => hcard, nofun, nofun, nofun⟩⟩
    | false =>
      obtain ⟨hwalker, hvisited⟩ := hmove.idle_eq
      have hsame : (s.sync hashing client .succeed).walker.visited = s.walker.visited := by
        rw [hwalker]
      have hempty : (s.sync hashing client .succeed).walker.pending = [] := by rw [hwalker]
      obtain ⟨r, s', hloop, heffect⟩ := ih hinv hrest
      refine ⟨r, s', hloop, heffect.tree, heffect.inv, ?_, ?_, ?_, ?_⟩
      · rw [← hsame]
        exact heffect.synced
      · rw [← hsame]
        exact heffect.idle
      · exact fun _ _ hpending => h.all_written hc hls hpending hvisited
      · intro hr htwo
        rw [← hsame]
        refine heffect.idle_leaves hr ?_ hempty
        rintro rfl
        exact absurd htwo (lt_irrefl 1)

/-- While blocks are imported, a batch still meets no error and keeps the invariant. -/
theorem BatchRun.inv {tree tree' : Finset Hash} {batch : List (Iteration Hash)} {n : ℕ}
    (hrun : BatchRun chain notifies tree batch n tree') : ∀ {db : Database Hash} {written : List Hash}
      (syncedAny : Bool), Inv hashing chain ⟨tree, db, written⟩ →
        ∃ r db' written', syncBlocksLoop hashing batch syncedAny db = (.ok r, db') ∧
          Inv hashing chain ⟨tree', db', written'⟩ := by
  induction hrun with
  | done tree =>
    intro db written syncedAny h
    exact ⟨syncedAny, db, written, rfl, h⟩
  | «import» b hb hrest ih =>
    intro db written syncedAny h
    exact ih syncedAny (h.import_block hb.parent_mem hb.number_parent hb.logged)
  | @call tree tree' batch n client hclient hrest ih =>
    intro db written syncedAny h
    cases syncedAny with
    | true =>
      obtain ⟨r, db', written', hloop, hinv⟩ := ih true h
      rw [syncBlocksLoop_true] at hloop ⊢
      exact ⟨r, db', written', hloop, hinv⟩
    | false =>
      obtain ⟨ls, hls, -⟩ := hclient.leaves
      obtain ⟨r, hr, -, hinv⟩ := sync_move h hclient hls
      rw [syncBlocksLoop_call hr]
      exact ih r hinv

/-- Without a notification, nothing has been imported. -/
theorem BatchRun.served (hnotifies : ∀ b, notifies b = true) {tree tree' : Finset Hash}
    {batch : List (Iteration Hash)} {n : ℕ} (hrun : BatchRun chain notifies tree batch n tree')
    (hn : n = 0) :
    tree' = tree ∧ ∀ it ∈ batch, it.client.Serves chain tree ∧ it.commits = .succeed := by
  induction hrun with
  | done tree => exact ⟨rfl, nofun⟩
  | «import» b hb hrest ih =>
    rw [hnotifies b] at hn
    cases hn
  | call client hclient hrest ih =>
    obtain ⟨rfl, hits⟩ := ih hn
    exact ⟨rfl, List.forall_mem_cons.2 ⟨⟨hclient, rfl⟩, hits⟩⟩

/-! ## Polls -/

@[simp] theorem drainNotifications_running (n : ℕ) (fire : Bool) :
    drainNotifications false n fire = some (fire || decide (0 < n)) := by
  induction n generalizing fire with
  | zero => simp [drainNotifications]
  | succ n ih => rw [drainNotifications, ih]; simp

theorem fires_cond {n : ℕ} {elapsed haveNext : Bool} (h : 0 < n ∨ elapsed = true ∨ haveNext = true) :
    (false || decide (0 < n) || elapsed || haveNext) = true := by
  simp only [Bool.false_or, Bool.or_eq_true, decide_eq_true_eq, or_assoc]
  exact h

/-- A poll that fires runs its batch. -/
theorem pollNext_fires (input : PollInput Hash) {worker : MappingSyncWorker} {db db' : Database Hash}
    {r : Bool} (hrunning : input.ended = false)
    (hfire : 0 < input.notifications ∨ input.elapsed = true ∨ worker.haveNext = true)
    (hbatch : syncBlocks hashing input.batch db = (.ok r, db')) :
    pollNext hashing input worker db = (.ready (some ()), ⟨false, r⟩, db') := by
  unfold pollNext
  rw [hrunning, drainNotifications_running]
  simp only [fires_cond hfire, if_true, hbatch]

/-- A poll whose batch fails waits for a notification or its delay. -/
theorem pollNext_fails (input : PollInput Hash) {worker : MappingSyncWorker} {db db' : Database Hash}
    {e : String} (hrunning : input.ended = false)
    (hfire : 0 < input.notifications ∨ input.elapsed = true ∨ worker.haveNext = true)
    (hbatch : syncBlocks hashing input.batch db = (.error e, db')) :
    pollNext hashing input worker db = (.ready (some ()), ⟨false, false⟩, db') := by
  unfold pollNext
  rw [hrunning, drainNotifications_running]
  simp only [fires_cond hfire, if_true, hbatch]

theorem pollNext_sleeps (input : PollInput Hash) {worker : MappingSyncWorker} {db : Database Hash}
    (hrunning : input.ended = false)
    (hfire : ¬ (0 < input.notifications ∨ input.elapsed = true ∨ worker.haveNext = true)) :
    pollNext hashing input worker db = (.pending, ⟨true, worker.haveNext⟩, db) := by
  unfold pollNext
  rw [hrunning, drainNotifications_running]
  have hcond : (false || decide (0 < input.notifications) || input.elapsed || worker.haveNext) =
      false := by
    rw [Bool.eq_false_iff]
    simp only [Bool.false_or, ne_eq, Bool.or_eq_true, decide_eq_true_eq, or_assoc]
    exact hfire
  simp only [hcond, Bool.false_eq_true, if_false]

/-! ## Runs of a node -/

/-- The sync is in order, whichever imports are notified. -/
theorem NodeStep.inv {s s' : NodeState Hash} (hstep : NodeStep hashing chain notifies s s')
    (h : ∃ written, Inv hashing chain ⟨s.tree, s.db, written⟩) :
    ∃ written, Inv hashing chain ⟨s'.tree, s'.db, written⟩ := by
  obtain ⟨written, hinv⟩ := h
  cases hstep with
  | «import» b hb => exact ⟨written, hinv.import_block hb.parent_mem hb.number_parent hb.logged⟩
  | poll elapsed batch n tree hlimit hrun =>
    by_cases hfire : 0 < s.notifications ∨ elapsed = true ∨ s.worker.haveNext = true
    · obtain ⟨r, db', written', hloop, hinv'⟩ := hrun.inv false hinv
      rw [pollNext_fires ⟨s.notifications, false, elapsed, batch⟩ rfl hfire hloop]
      exact ⟨written', hinv'⟩
    · rw [pollNext_sleeps ⟨s.notifications, false, elapsed, batch⟩ rfl hfire]
      obtain ⟨r, db', written', hloop, hinv'⟩ := hrun.inv true hinv
      rw [syncBlocksLoop_true, Prod.mk.injEq] at hloop
      rw [← hloop.2] at hinv'
      exact ⟨written', hinv'⟩

theorem NodeReachable.inv {s : NodeState Hash} (hs : NodeReachable hashing chain notifies s) :
    ∃ written, Inv hashing chain ⟨s.tree, s.db, written⟩ := by
  induction hs with
  | refl => exact ⟨[], inv_init⟩
  | tail _ hstep ih => exact hstep.inv ih

/-- The worker will be woken as long as a block is not synced. -/
def Awake (s : NodeState Hash) : Prop :=
  s.worker.haveNext = true ∨ 0 < s.notifications ∨ ∀ b ∈ s.tree, Synced s.db b

theorem NodeStep.awake (hnotifies : ∀ b, notifies b = true) {s s' : NodeState Hash}
    (hstep : NodeStep hashing chain notifies s s')
    (hinv : ∃ written, Inv hashing chain ⟨s.tree, s.db, written⟩) (h : Awake s) : Awake s' := by
  obtain ⟨written, hinv⟩ := hinv
  cases hstep with
  | «import» b hb =>
    refine .inr (.inl ?_)
    rw [hnotifies b]
    exact Nat.succ_pos _
  | poll elapsed batch n tree hlimit hrun =>
    by_cases hfire : 0 < s.notifications ∨ elapsed = true ∨ s.worker.haveNext = true
    · obtain ⟨r, db', written', hloop, -⟩ := hrun.inv false hinv
      rw [pollNext_fires ⟨s.notifications, false, elapsed, batch⟩ rfl hfire hloop]
      cases r with
      | true => exact .inl rfl
      | false =>
        right
        rcases Nat.eq_zero_or_pos n with hn | hn
        · -- nothing has been imported meanwhile, so that the batch has seen all there is
          right
          obtain ⟨rfl, hits⟩ := hrun.served hnotifies hn
          obtain ⟨r, s', hloop', heffect⟩ := syncBlocksLoop_effect hinv hits
          rw [hloop, Prod.mk.injEq, Except.ok.injEq] at hloop'
          obtain ⟨rfl, rfl⟩ := hloop'
          intro b hb
          rw [heffect.inv.synced_iff, ← List.mem_toFinset]
          show b ∈ s'.walker.visited
          rw [heffect.idle rfl]
          refine heffect.idle_twice rfl ?_ b hb
          rw [hlimit]
          decide
        · exact .inl hn
    · rw [pollNext_sleeps ⟨s.notifications, false, elapsed, batch⟩ rfl hfire]
      rw [not_or, not_or] at hfire
      rcases Nat.eq_zero_or_pos n with hn | hn
      · obtain ⟨rfl, -⟩ := hrun.served hnotifies hn
        right
        right
        rcases h with hnext | hnotified | hall
        · exact absurd hnext hfire.2.2
        · exact absurd hnotified hfire.1
        · exact hall
      · exact .inr (.inl hn)

theorem NodeReachable.awake (hnotifies : ∀ b, notifies b = true) {s : NodeState Hash}
    (hs : NodeReachable hashing chain notifies s) : Awake s := by
  induction hs with
  | refl => exact .inl rfl
  | tail hs hstep ih => exact hstep.awake hnotifies (NodeReachable.inv hs) ih

/-- **No lost wake-up.** If every import sends a notification, then however imports and polls are
interleaved, while a block is not synced the worker has more to do or a notification waits for it. So a
poll goes to sleep only when every block that had been imported before it is synced. -/
theorem no_lost_wakeup (hnotifies : ∀ b, notifies b = true) {s : NodeState Hash}
    (hs : NodeReachable hashing chain notifies s) :
    (s.worker.haveNext = true ∨ 0 < s.notifications ∨ ∀ b ∈ s.tree, Synced s.db b) ∧
    ∀ elapsed batch,
      (pollNext hashing ⟨s.notifications, false, elapsed, batch⟩ s.worker s.db).1 = .pending →
        ∀ b ∈ s.tree, Synced s.db b := by
  have h := hs.awake hnotifies
  refine ⟨h, fun elapsed batch hpending => ?_⟩
  by_cases hfire : 0 < s.notifications ∨ elapsed = true ∨ s.worker.haveNext = true
  · obtain ⟨r, db', hbatch⟩ : ∃ r db', syncBlocks hashing batch s.db = (r, db') := ⟨_, _, rfl⟩
    cases r with
    | ok r =>
      rw [pollNext_fires ⟨s.notifications, false, elapsed, batch⟩ rfl hfire hbatch] at hpending
      cases hpending
    | error e =>
      rw [pollNext_fails ⟨s.notifications, false, elapsed, batch⟩ rfl hfire hbatch] at hpending
      cases hpending
  · rw [not_or, not_or] at hfire
    rcases h with hnext | hnotified | hall
    · exact absurd hnext hfire.2.2
    · exact absurd hnotified hfire.1
    · exact hall

/-- Two imports, with the notifications that are sent of them. -/
theorem lineNode_reachable (notifies : Fin 3 → Bool) :
    NodeReachable numberHashing lineChain notifies
      (lineNode ((notifies 1).toNat + (notifies 2).toNat)) := by
  have h1 : NodeStep numberHashing lineChain notifies (NodeState.init lineChain)
      ⟨{1, 0}, Database.empty, .new, 0 + (notifies 1).toNat⟩ :=
    .import (NodeState.init lineChain) 1 ⟨by decide, by decide, by decide⟩
  rw [Nat.zero_add] at h1
  have hparent : lineChain.parent 2 ∈ ({1, 0} : Finset (Fin 3)) := by decide
  have h2 : NodeStep numberHashing lineChain notifies
      ⟨{1, 0}, Database.empty, .new, (notifies 1).toNat⟩
      (lineNode ((notifies 1).toNat + (notifies 2).toNat)) :=
    .import ⟨{1, 0}, Database.empty, .new, (notifies 1).toNat⟩ 2 ⟨hparent, by decide, by decide⟩
  exact (Relation.ReflTransGen.single h1).tail h2

theorem no_lost_wakeup_line :
    ((lineNode 2).worker.haveNext = true ∨ 0 < (lineNode 2).notifications ∨
      ∀ b ∈ (lineNode 2).tree, Synced (lineNode 2).db b) ∧
    ∀ elapsed batch, (pollNext numberHashing ⟨(lineNode 2).notifications, false, elapsed, batch⟩
        (lineNode 2).worker (lineNode 2).db).1 = .pending →
      ∀ b ∈ (lineNode 2).tree, Synced (lineNode 2).db b :=
  no_lost_wakeup (fun _ => rfl) (lineNode_reachable fun _ => true)

/-! ## Catching up -/

/-- The node after `k` of the polls that have something to do: each has synced one block. -/
structure CaughtUp (hashing : Hashing) (chain : Chain Hash) (s : NodeState Hash)
    (inputs : ℕ → PollInput Hash) (k : ℕ) (t : SyncState Hash) : Prop where
  tree : t.tree = s.tree
  db : t.db = (afterPolls hashing inputs s.worker s.db k).2
  inv : Inv hashing chain t
  left : (s.tree \ t.walker.visited).card + k = (unsyncedIn s.tree s.db).card
  fires : 0 < (inputs k).notifications ∨ (inputs k).elapsed = true ∨
    (afterPolls hashing inputs s.worker s.db k).1.haveNext = true

/-- A poll that has something to do syncs one block, and knows that there may be more. -/
theorem CaughtUp.succ {s : NodeState Hash} {inputs : ℕ → PollInput Hash} {k : ℕ} {t : SyncState Hash}
    (hquiet : QuietPolls chain s inputs) (h : CaughtUp hashing chain s inputs k t)
    (hk : k < (unsyncedIn s.tree s.db).card) :
    pollAnswer hashing inputs s.worker s.db k = .ready (some ()) ∧
      ∃ t', CaughtUp hashing chain s inputs (k + 1) t' ∧
        (afterPolls hashing inputs s.worker s.db (k + 1)).1.haveNext = true := by
  have hits : ∀ it ∈ (inputs k).batch, it.client.Serves chain t.tree ∧ it.commits = .succeed := by
    rw [h.tree]
    exact hquiet.served k
  obtain ⟨r, t', hloop, heffect⟩ := syncBlocksLoop_effect h.inv hits
  rw [h.db] at hloop
  have hpoll := pollNext_fires (inputs k) (hquiet.running k) h.fires hloop
  have hleft := h.left
  cases r with
  | false =>
    have htwo : 2 ≤ (inputs k).batch.length := by
      rw [hquiet.limit k]
      decide
    have hall := heffect.idle_twice rfl htwo
    rw [h.tree] at hall
    rw [Finset.sdiff_eq_empty_iff_subset.2 hall, Finset.card_empty] at hleft
    omega
  | true =>
    have hnext : (afterPolls hashing inputs s.worker s.db (k + 1)).1.haveNext = true := by
      rw [afterPolls, hpoll]
    refine ⟨congrArg Prod.fst hpoll, t', ⟨heffect.tree.trans h.tree, ?_, heffect.inv, ?_, ?_⟩, hnext⟩
    · rw [afterPolls, hpoll]
    · have hsynced := heffect.synced rfl
      rw [h.tree] at hsynced
      omega
    · exact .inr (.inr hnext)

/-- A poll with nothing left to do finds that out. -/
theorem CaughtUp.last {s : NodeState Hash} {inputs : ℕ → PollInput Hash} {t : SyncState Hash} {k : ℕ}
    (hquiet : QuietPolls chain s inputs) (h : CaughtUp hashing chain s inputs k t)
    (hk : k = (unsyncedIn s.tree s.db).card) :
    pollAnswer hashing inputs s.worker s.db k = .ready (some ()) ∧
      (afterPolls hashing inputs s.worker s.db (k + 1)).1.haveNext = false ∧
      ∀ b ∈ s.tree, Synced (afterPolls hashing inputs s.worker s.db (k + 1)).2 b := by
  have hits : ∀ it ∈ (inputs k).batch, it.client.Serves chain t.tree ∧ it.commits = .succeed := by
    rw [h.tree]
    exact hquiet.served k
  obtain ⟨r, t', hloop, heffect⟩ := syncBlocksLoop_effect h.inv hits
  rw [h.db] at hloop
  have hpoll := pollNext_fires (inputs k) (hquiet.running k) h.fires hloop
  have hleft := h.left
  have hnone : (s.tree \ t.walker.visited).card = 0 := by omega
  cases r with
  | true =>
    have hsynced := heffect.synced rfl
    rw [h.tree, hnone] at hsynced
    cases hsynced
  | false =>
    refine ⟨congrArg Prod.fst hpoll, by rw [afterPolls, hpoll], fun b hb => ?_⟩
    rw [afterPolls, hpoll]
    show Synced t'.db b
    rw [heffect.inv.synced_iff, ← List.mem_toFinset]
    show b ∈ t'.walker.visited
    rw [heffect.idle rfl]
    exact Finset.sdiff_eq_empty_iff_subset.1 (Finset.card_eq_zero.1 hnone) hb

/-- **Catching up.** Once something wakes the worker and nothing is imported any more, every poll syncs one
block until all are synced, whichever imports have been notified; one more poll finds that out, and the
next one goes to sleep. -/
theorem worker_catches_up {s : NodeState Hash} (hs : NodeReachable hashing chain notifies s)
    {inputs : ℕ → PollInput Hash} (hquiet : QuietPolls chain s inputs)
    (hfires : Fires s (inputs 0)) :
    (∀ k < (unsyncedIn s.tree s.db).card,
      pollAnswer hashing inputs s.worker s.db k = .ready (some ()) ∧
        (unsyncedIn s.tree (afterPolls hashing inputs s.worker s.db (k + 1)).2).card + (k + 1) =
          (unsyncedIn s.tree s.db).card) ∧
    pollAnswer hashing inputs s.worker s.db (unsyncedIn s.tree s.db).card = .ready (some ()) ∧
    (∀ b ∈ s.tree,
      Synced (afterPolls hashing inputs s.worker s.db ((unsyncedIn s.tree s.db).card + 1)).2 b) ∧
    ((inputs ((unsyncedIn s.tree s.db).card + 1)).elapsed = false →
      pollAnswer hashing inputs s.worker s.db ((unsyncedIn s.tree s.db).card + 1) = .pending) := by
  obtain ⟨written, hinv⟩ := hs.inv
  have hunsynced : ∀ {t : SyncState Hash}, t.tree = s.tree → Inv hashing chain t →
      unsyncedIn s.tree t.db = s.tree \ t.walker.visited := by
    intro t htree h
    rw [← htree]
    exact h.unsynced_eq
  have hstart : CaughtUp hashing chain s inputs 0 ⟨s.tree, s.db, written⟩ := by
    refine ⟨rfl, rfl, hinv, ?_, ?_⟩
    · exact (congrArg Finset.card (hunsynced rfl hinv)).symm
    · rw [hquiet.notifications, if_pos rfl]
      exact hfires
  have hreach : ∀ k ≤ (unsyncedIn s.tree s.db).card, ∃ t, CaughtUp hashing chain s inputs k t := by
    intro k
    induction k with
    | zero => exact fun _ => ⟨_, hstart⟩
    | succ k ih =>
      intro hk
      obtain ⟨t, ht⟩ := ih (Nat.le_of_succ_le hk)
      obtain ⟨-, t', ht', -⟩ := ht.succ hquiet hk
      exact ⟨t', ht'⟩
  obtain ⟨t, ht⟩ := hreach _ le_rfl
  obtain ⟨hanswer, hidle, hall⟩ := ht.last hquiet rfl
  refine ⟨fun k hk => ?_, hanswer, hall, fun hdelay => ?_⟩
  · obtain ⟨t, ht⟩ := hreach k hk.le
    obtain ⟨hready, t', ht', -⟩ := ht.succ hquiet hk
    refine ⟨hready, ?_⟩
    rw [← ht'.db, hunsynced ht'.tree ht'.inv]
    exact ht'.left
  · refine congrArg Prod.fst (pollNext_sleeps (inputs _) (hquiet.running _) ?_)
    rw [hquiet.notifications, if_neg (Nat.succ_ne_zero _), hdelay, hidle]
    decide

theorem lineInputs_quiet : QuietPolls lineChain (lineNode 0) lineInputs where
  notifications := fun _ => (ite_self 0).symm
  running := fun _ => rfl
  limit := fun _ => List.length_replicate
  served := by
    intro k it hit
    obtain rfl := List.eq_of_mem_replicate hit
    exact ⟨lineClient_serves, rfl⟩

/-- Three blocks are synced by four polls, and the fifth goes to sleep. Their imports have been silent. -/
theorem worker_catches_up_line :
    pollAnswer numberHashing lineInputs (lineNode 0).worker (lineNode 0).db 3 = .ready (some ()) ∧
    (∀ b ∈ (lineNode 0).tree,
      Synced (afterPolls numberHashing lineInputs (lineNode 0).worker (lineNode 0).db 4).2 b) ∧
    pollAnswer numberHashing lineInputs (lineNode 0).worker (lineNode 0).db 4 = .pending := by
  have hcard : (unsyncedIn (lineNode 0).tree (lineNode 0).db).card = 3 := by decide
  have hsilent : NodeReachable numberHashing lineChain (fun _ => false) (lineNode 0) :=
    lineNode_reachable fun _ => false
  have h := worker_catches_up hsilent lineInputs_quiet (.inr (.inr rfl))
  rw [hcard] at h
  exact ⟨h.2.1, h.2.2.1, h.2.2.2 rfl⟩

end Shadows.MappingSync

import Shadows.Evm.Frames

/-!
# Proofs: which exits close their transaction

A call keeps the number of open transactions in step with the depth of the frames exactly if its
accounting succeeds. An exit that fails leaves one transaction too many, and no later call makes up
for it.
-/

namespace Shadows.Evm

open Foundations

variable {S AccountId M : Type} {cfg : Config S AccountId} {ops : MetadataOps M}

/-- An exit that changes the frame of the parent alone if its accounting fails, and otherwise operates
on the transactions as well. -/
theorem ExitEffect.of_accounting {x : Exit} {exited : Frame M} {parent : Substate M}
    {storage : Overlays (World S)} {r : Except ExitError Unit} {st' : StackState S M}
    {failed closed : M → Frame M} {operated : Option (Overlays (World S))}
    (hoperated : ∀ storage', operated = some storage' →
      ∃ w worlds, storage.saved = w :: worlds ∧ storage' = closeTransaction x storage.current w worlds)
    (h : (match ops.swallow x parent.frame.metadata exited.metadata with
      | (.error e, metadata) => some (.error e, ⟨storage, parent.setFrame (failed metadata)⟩)
      | (.ok (), metadata) =>
        operated.map fun storage => (.ok (), ⟨storage, parent.setFrame (closed metadata)⟩)) =
      some (r, st')) :
    ExitEffect ops x exited parent storage st' := by
  split at h
  · rename_i e metadata hswallow
    simp only [Option.some.injEq, Prod.mk.injEq] at h
    obtain ⟨-, rfl⟩ := h
    refine ⟨Substate.depth_setFrame _ _, fun _ _ => rfl, fun hok => ?_⟩
    simp only [hswallow, reduceCtorEq] at hok
  · rename_i metadata hswallow
    obtain ⟨storage', hstorage, hout⟩ := Option.map_eq_some_iff.1 h
    simp only [Prod.mk.injEq] at hout
    obtain ⟨-, rfl⟩ := hout
    refine ⟨Substate.depth_setFrame _ _, fun e herror => ?_, fun _ => hoperated storage' hstorage⟩
    simp only [hswallow, reduceCtorEq] at herror

theorem exitCommit_effect {storage : Overlays (World S)} {exited : Frame M} {parent : Substate M}
    {r : Except ExitError Unit} {st' : StackState S M}
    (h : exitCommit ops ⟨storage, .child exited parent⟩ = some (r, st')) :
    ExitEffect ops .commit exited parent storage st' := by
  refine ExitEffect.of_accounting (fun storage' hcommit => ?_) h
  obtain ⟨current, worlds⟩ := storage
  cases worlds with
  | nil => cases hcommit
  | cons w worlds => exact ⟨w, worlds, rfl, (Option.some.inj hcommit).symm⟩

theorem exitRollback_effect (x : Exit) (hx : x ≠ .commit) {storage : Overlays (World S)}
    {exited : Frame M} {parent : Substate M} {r : Except ExitError Unit} {st' : StackState S M}
    (h : exitRollback (ops.swallow x) ⟨storage, .child exited parent⟩ = some (r, st')) :
    ExitEffect ops x exited parent storage st' := by
  refine ExitEffect.of_accounting (fun storage' hrollback => ?_) h
  obtain ⟨current, worlds⟩ := storage
  cases worlds with
  | nil => cases hrollback
  | cons w worlds =>
    refine ⟨w, worlds, rfl, (Option.some.inj hrollback).symm.trans ?_⟩
    cases x with
    | commit => exact absurd rfl hx
    | revert => rfl
    | discard => rfl

theorem stackCall_exit_cases {x : Exit} {st st' : StackState S M} {r : Except ExitError Unit}
    (h : stackCall cfg ops (.exit x) st = some (r, st')) :
    ∃ exited parent, st.substate = .child exited parent ∧
      ExitEffect ops x exited parent st.storage st' := by
  obtain ⟨storage, substate⟩ := st
  cases substate with
  | root f => cases x <;> cases h
  | child exited parent =>
    refine ⟨exited, parent, rfl, ?_⟩
    cases x with
    | commit => exact exitCommit_effect h
    | revert => exact exitRollback_effect .revert nofun h
    | discard => exact exitRollback_effect .discard nofun h

/-- An exit closes the transaction of its frame exactly if its accounting succeeds. -/
theorem balanced_exit {x : Exit} {exited : Frame M} {parent : Substate M}
    {storage : Overlays (World S)} {st' : StackState S M}
    (hbalanced : storage.saved.length = parent.depth + 1)
    (h : ExitEffect ops x exited parent storage st') :
    Balanced st' ↔ (ops.swallow x parent.frame.metadata exited.metadata).1 = .ok () := by
  unfold Balanced
  rw [h.depth]
  cases hswallow : (ops.swallow x parent.frame.metadata exited.metadata).1 with
  | error e =>
    rw [h.failed e hswallow]
    exact iff_of_false (by omega) nofun
  | ok _ =>
    obtain ⟨w, worlds, hsaved, hstorage⟩ := h.closed hswallow
    rw [hsaved] at hbalanced
    rw [hstorage]
    refine iff_of_true ?_ rfl
    cases x with
    | commit => exact Nat.succ.inj hbalanced
    | revert => exact Nat.succ.inj hbalanced
    | discard => exact Nat.succ.inj hbalanced

/-- One call keeps the balance exactly if its accounting succeeds. -/
theorem balanced_step {st st' : StackState S M} {c : StackCall} (hbalanced : Balanced st)
    (h : CallStep cfg ops st c st') : Balanced st' ↔ Accounts ops st c st' := by
  obtain ⟨r, hcall⟩ := h
  cases c with
  | enter args =>
    simp only [stackCall, Option.some.injEq, Prod.mk.injEq] at hcall
    obtain ⟨-, rfl⟩ := hcall
    exact iff_of_true (congrArg Nat.succ hbalanced) trivial
  | op o =>
    simp only [stackCall, Option.some.injEq, Prod.mk.injEq] at hcall
    obtain ⟨-, rfl⟩ := hcall
    refine iff_of_true ?_ trivial
    show st.storage.saved.length = Substate.depth _
    rw [depth_applySubstate, hbalanced]
  | exit x =>
    obtain ⟨exited, parent, hsubstate, heffect⟩ := stackCall_exit_cases hcall
    obtain ⟨storage, substate⟩ := st
    subst hsubstate
    exact balanced_exit hbalanced heffect

/-- **Open transactions.** In a sequence of calls, operations among them, as many transactions are
open after every call as there are parents exactly if the accounting of every exit succeeds. -/
theorem frames_balanced_iff {st : StackState S M} {run : List (StackCall × StackState S M)}
    (hbalanced : Balanced st) (hrun : IsRun (CallStep cfg ops) st run) :
    Always Balanced st run ↔ Each (Accounts ops) st run := by
  have hexact : ∀ (s : StackState S M) (c : StackCall) (s' : StackState S M),
      Balanced s → CallStep cfg ops s c s' → (Balanced s' ↔ Accounts ops s c s') :=
    fun _ _ _ => balanced_step
  exact always_iff_each hexact hbalanced hrun

theorem failingCommit_isRun : IsRun (CallStep ledgerConfig failingOps) rootState failingCommit :=
  ⟨⟨_, rfl⟩, ⟨_, rfl⟩, trivial⟩

theorem frames_balanced_iff_failingCommit :
    Always Balanced rootState failingCommit ↔ Each (Accounts failingOps) rootState failingCommit :=
  frames_balanced_iff rfl failingCommit_isRun

/-- A commit that fails leaves the transaction of its frame open. -/
theorem failingCommit_unbalanced :
    Balanced rootState ∧ IsRun (CallStep ledgerConfig failingOps) rootState failingCommit ∧
      ¬ Always Balanced rootState failingCommit := by
  refine ⟨rfl, failingCommit_isRun, ?_⟩
  rintro ⟨-, -, hleft⟩
  have hlen : (1 : ℕ) = 0 := hleft
  exact absurd hlen Nat.one_ne_zero

end Shadows.Evm

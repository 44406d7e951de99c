import Shadows.Evm.StackState

/-!
# Proofs: the substate is a journal

The stack state keeps what each frame has done in three places: the logs and deletes of the frame,
those of its parents, and the overlays of the host. Taken together along the chain of parents they
are a `Journal` of effects (`Simulates`), so that a well-nested sequence of calls leaves exactly the
effects of its surviving operations.
-/

namespace Shadows.Evm

open Foundations

variable {S AccountId M : Type}

/-! ## The chain of frames -/

namespace Substate

/-- The logs of a frame behind those of its ancestors. -/
def allLogs : Substate M → List Shadows.Log
  | root f => f.logs
  | child f parent => parent.allLogs ++ f.logs

/-- The accounts that a frame or one of its ancestors has deleted. -/
def allDeletes : Substate M → Finset H160
  | root f => f.deletes
  | child f parent => parent.allDeletes ∪ f.deletes

def depth : Substate M → ℕ
  | root _ => 0
  | child _ parent => parent.depth + 1

theorem deleted_iff (a : H160) (s : Substate M) : s.deleted a = true ↔ a ∈ s.allDeletes := by
  induction s with
  | root f => simp [deleted, allDeletes]
  | child f parent ih =>
    rw [deleted, allDeletes, Finset.mem_union]
    by_cases h : a ∈ f.deletes
    · simp [h]
    · rw [if_neg h, ih]
      simp [h]

@[simp] theorem depth_setFrame (f : Frame M) (s : Substate M) : (s.setFrame f).depth = s.depth := by
  cases s with
  | root _ => rfl
  | child _ _ => rfl

theorem allLogs_setFrame (s : Substate M) (m : M) (d : Finset H160) (l : List Shadows.Log) :
    (s.setFrame ⟨m, d, s.frame.logs ++ l⟩).allLogs = s.allLogs ++ l := by
  cases s with
  | root _ => rfl
  | child f parent => exact (List.append_assoc _ _ _).symm

theorem allDeletes_setFrame (s : Substate M) (m : M) (d : Finset H160) (l : List Shadows.Log) :
    (s.setFrame ⟨m, s.frame.deletes ∪ d, l⟩).allDeletes = s.allDeletes ∪ d := by
  cases s with
  | root _ => rfl
  | child f parent => exact (Finset.union_assoc _ _ _).symm

end Substate

/-- The saved effects of a journal are those of the ancestors, with the storage to roll back to;
below the root lie the overlays `outer` that were open before. -/
def SavedFrames (outer : List (World S)) : Substate M → List (World S) → List (Effects S) → Prop
  | .root _, worlds, [] => worlds = outer
  | .child _ parent, world :: worlds, e :: es =>
    e.world = world ∧ e.logs = parent.allLogs ∧ e.deletes = parent.allDeletes ∧
      SavedFrames outer parent worlds es
  | _, _, _ => False

/-- The stack state and a journal of effects say the same. -/
structure Simulates (outer : List (World S)) (st : StackState S M) (j : Journal (Effects S)) :
    Prop where
  world : st.storage.current = j.current.world
  logs : st.substate.allLogs = j.current.logs
  deletes : st.substate.allDeletes = j.current.deletes
  saved : SavedFrames outer st.substate st.storage.saved j.saved

theorem SavedFrames.setFrame {outer worlds : List (World S)} {s : Substate M}
    {es : List (Effects S)} (f : Frame M) (h : SavedFrames outer s worlds es) :
    SavedFrames outer (s.setFrame f) worlds es := by
  cases s with
  | root _ =>
    cases es with
    | nil => exact h
    | cons _ _ => exact h.elim
  | child _ parent =>
    cases worlds with
    | nil => exact h.elim
    | cons world worlds =>
      cases es with
      | nil => exact h.elim
      | cons e es => exact h

/-! ## One call -/

variable {cfg : Config S AccountId} {ops : MetadataOps M}

theorem simulates_new (metadata : M) (storage : Overlays (World S)) :
    Simulates storage.saved (StackState.new metadata storage : StackState S M)
      ⟨⟨storage.current, [], ∅⟩, []⟩ where
  world := rfl
  logs := rfl
  deletes := rfl
  saved := rfl

theorem Simulates.enter {outer : List (World S)} {st : StackState S M} {j : Journal (Effects S)}
    (h : Simulates outer st j) (args : EnterArgs) :
    Simulates outer (Evm.enter ops args st) ⟨j.current, j.current :: j.saved⟩ where
  world := h.world
  logs := by
    rw [← h.logs]
    exact List.append_nil _
  deletes := by
    rw [← h.deletes]
    exact Finset.union_empty _
  saved := ⟨h.world.symm, h.logs.symm, h.deletes.symm, h.saved⟩

theorem Simulates.op {outer : List (World S)} {st : StackState S M} {j : Journal (Effects S)}
    (h : Simulates outer st j) (o : StackOp) :
    Simulates outer ⟨⟨o.applyWorld cfg st.storage.current, st.storage.saved⟩,
      o.applySubstate st.substate⟩ ⟨o.apply cfg j.current, j.saved⟩ where
  world := by
    show o.applyWorld cfg st.storage.current = o.applyWorld cfg j.current.world
    rw [h.world]
  logs := by
    cases o with
    | log address topics data =>
      show (st.substate.log address topics data).allLogs =
        j.current.logs ++ [⟨address, topics, data⟩]
      rw [← h.logs]
      exact st.substate.allLogs_setFrame _ _ _
    | setDeleted address =>
      show (st.substate.setDeleted address).allLogs = j.current.logs
      rw [← h.logs]
      have := st.substate.allLogs_setFrame st.substate.frame.metadata
        (insert address st.substate.frame.deletes) []
      rw [List.append_nil, List.append_nil] at this
      exact this
    | incNonce address => exact h.logs
    | setStorage address index value => exact h.logs
    | resetStorage address => exact h.logs
    | setCode address code => exact h.logs
    | transfer source target value => exact h.logs
  deletes := by
    cases o with
    | log address topics data =>
      show (st.substate.log address topics data).allDeletes = j.current.deletes
      rw [← h.deletes]
      have := st.substate.allDeletes_setFrame st.substate.frame.metadata ∅
        (st.substate.frame.logs ++ [⟨address, topics, data⟩])
      rw [Finset.union_empty, Finset.union_empty] at this
      exact this
    | setDeleted address =>
      show (st.substate.setDeleted address).allDeletes = insert address j.current.deletes
      rw [← h.deletes]
      have := st.substate.allDeletes_setFrame st.substate.frame.metadata {address}
        st.substate.frame.logs
      rw [Finset.union_comm _ {address}, Finset.union_comm _ {address}] at this
      exact this
    | incNonce address => exact h.deletes
    | setStorage address index value => exact h.deletes
    | resetStorage address => exact h.deletes
    | setCode address code => exact h.deletes
    | transfer source target value => exact h.deletes
  saved := by
    cases o with
    | log address topics data => exact h.saved.setFrame _
    | setDeleted address => exact h.saved.setFrame _
    | incNonce address => exact h.saved
    | setStorage address index value => exact h.saved
    | resetStorage address => exact h.saved
    | setCode address code => exact h.saved
    | transfer source target value => exact h.saved

theorem Simulates.exitCommit {outer : List (World S)} {st st' : StackState S M}
    {j : Journal (Effects S)} {e : Effects S} {saved : List (Effects S)} (h : Simulates outer st j)
    (hj : j.saved = e :: saved) (hcall : Evm.exitCommit ops st = some (.ok (), st')) :
    Simulates outer st' ⟨j.current, saved⟩ := by
  obtain ⟨⟨world, worlds⟩, substate⟩ := st
  cases substate with
  | root f => cases hcall
  | child exited parent =>
    have hs := h.saved
    rw [hj] at hs
    cases worlds with
    | nil => exact hs.elim
    | cons w worlds =>
      obtain ⟨-, hlogs, hdeletes, hsaved⟩ := hs
      unfold Evm.exitCommit at hcall
      dsimp only at hcall
      split at hcall
      · cases hcall
      · rename_i metadata hswallow
        simp only [Overlays.commitTransaction, Option.map_some, Option.some.injEq, Prod.mk.injEq,
          true_and] at hcall
        subst hcall
        refine ⟨h.world, ?_, ?_, hsaved.setFrame _⟩
        · rw [← h.logs]
          exact parent.allLogs_setFrame _ _ _
        · rw [← h.deletes]
          exact parent.allDeletes_setFrame _ _ _

theorem Simulates.exitRollback {outer : List (World S)} {st st' : StackState S M}
    {j : Journal (Effects S)} {e : Effects S} {saved : List (Effects S)} (h : Simulates outer st j)
    (hj : j.saved = e :: saved) {swallow : M → M → Except ExitError Unit × M}
    (hcall : Evm.exitRollback swallow st = some (.ok (), st')) :
    Simulates outer st' ⟨e, saved⟩ := by
  obtain ⟨⟨world, worlds⟩, substate⟩ := st
  cases substate with
  | root f => cases hcall
  | child exited parent =>
    have hs := h.saved
    rw [hj] at hs
    cases worlds with
    | nil => exact hs.elim
    | cons w worlds =>
      obtain ⟨hworld, hlogs, hdeletes, hsaved⟩ := hs
      unfold Evm.exitRollback at hcall
      dsimp only at hcall
      split at hcall
      · cases hcall
      · rename_i metadata hswallow
        simp only [Overlays.rollbackTransaction, Option.map_some, Option.some.injEq,
          Prod.mk.injEq, true_and] at hcall
        subst hcall
        refine ⟨hworld.symm, ?_, ?_, hsaved.setFrame _⟩
        · rw [hlogs]
          have := parent.allLogs_setFrame metadata parent.frame.deletes []
          rw [List.append_nil, List.append_nil] at this
          exact this
        · rw [hdeletes]
          have := parent.allDeletes_setFrame metadata ∅ parent.frame.logs
          rw [Finset.union_empty, Finset.union_empty] at this
          exact this

/-- A call that succeeds does to the stack state what it does to the journal. -/
theorem Simulates.step {outer : List (World S)} {st st' : StackState S M}
    {j j' : Journal (Effects S)} {c : StackCall} (h : Simulates outer st j)
    (hj : Journal.step (StackOp.apply cfg) c j = some j')
    (hcall : stackCall cfg ops c st = some (.ok (), st')) : Simulates outer st' j' := by
  cases c with
  | enter args =>
    simp only [Journal.step, Option.some.injEq] at hj
    simp only [stackCall, Option.some.injEq, Prod.mk.injEq, true_and] at hcall
    subst hj hcall
    exact h.enter args
  | op o =>
    simp only [Journal.step, Option.some.injEq] at hj
    simp only [stackCall, Option.some.injEq, Prod.mk.injEq, true_and] at hcall
    subst hj hcall
    exact h.op o
  | exit x =>
    unfold Journal.step at hj
    cases hsaved : j.saved with
    | nil => simp [hsaved] at hj
    | cons e saved =>
      simp only [hsaved, Option.some.injEq] at hj
      subst hj
      cases x with
      | commit => exact h.exitCommit hsaved hcall
      | revert => exact h.exitRollback hsaved hcall
      | discard => exact h.exitRollback hsaved hcall

/-! ## Sequences of calls -/

theorem stackCalls_cons {c : StackCall} {cs : List StackCall} {st st' : StackState S M}
    {rs : List (Except ExitError Unit)} (h : stackCalls cfg ops (c :: cs) st = some (rs, st')) :
    ∃ r mid rs', stackCall cfg ops c st = some (r, mid) ∧
      stackCalls cfg ops cs mid = some (rs', st') ∧ rs = r :: rs' := by
  rw [stackCalls] at h
  cases hcall : stackCall cfg ops c st with
  | none => simp only [hcall, reduceCtorEq] at h
  | some out =>
    obtain ⟨r, mid⟩ := out
    simp only [hcall, Option.map_eq_some_iff, Prod.mk.injEq, Prod.exists] at h
    obtain ⟨rs', st'', hrest, rfl, rfl⟩ := h
    exact ⟨r, mid, rs', rfl, hrest, rfl⟩

theorem stackCalls_append {cs cs' : List StackCall} : ∀ {st mid st' : StackState S M}
    {rs rs' : List (Except ExitError Unit)}, stackCalls cfg ops cs st = some (rs, mid) →
      stackCalls cfg ops cs' mid = some (rs', st') →
        stackCalls cfg ops (cs ++ cs') st = some (rs ++ rs', st') := by
  induction cs with
  | nil =>
    intro st mid st' rs rs' h h'
    simp only [stackCalls, Option.some.injEq, Prod.mk.injEq] at h
    obtain ⟨rfl, rfl⟩ := h
    exact h'
  | cons c cs ih =>
    intro st mid st' rs rs' h h'
    obtain ⟨r, next, rs₁, hcall, hrest, rfl⟩ := stackCalls_cons h
    rw [List.cons_append, stackCalls, hcall]
    simp only [ih hrest h', Option.map_some, List.cons_append]

theorem stackCalls_prefix {cs cs' : List StackCall} : ∀ {st st' : StackState S M}
    {rs : List (Except ExitError Unit)}, stackCalls cfg ops (cs ++ cs') st = some (rs, st') →
      ∃ rs₁ mid rs₂, stackCalls cfg ops cs st = some (rs₁, mid) ∧ rs = rs₁ ++ rs₂ := by
  induction cs with
  | nil =>
    intro st st' rs _
    exact ⟨[], st, rs, rfl, rfl⟩
  | cons c cs ih =>
    intro st st' rs h
    rw [List.cons_append] at h
    obtain ⟨r, next, rs', hcall, hrest, rfl⟩ := stackCalls_cons h
    obtain ⟨rs₁, mid, rs₂, hpre, rfl⟩ := ih hrest
    refine ⟨r :: rs₁, mid, rs₂, ?_, rfl⟩
    rw [stackCalls, hcall]
    simp only [hpre, Option.map_some]

/-- A sequence of calls that all succeed does to the stack state what it does to the journal. -/
theorem Simulates.run {outer : List (World S)} {cs : List StackCall} :
    ∀ {st st' : StackState S M} {j j' : Journal (Effects S)} {rs : List (Except ExitError Unit)},
      Simulates outer st j → Journal.run (StackOp.apply cfg) cs j = some j' →
        stackCalls cfg ops cs st = some (rs, st') → (∀ r ∈ rs, r = .ok ()) →
          Simulates outer st' j' := by
  induction cs with
  | nil =>
    intro st st' j j' rs h hj hcalls _
    simp only [stackCalls, Option.some.injEq, Prod.mk.injEq] at hcalls
    simp only [Journal.run, Option.some.injEq] at hj
    obtain ⟨-, rfl⟩ := hcalls
    subst hj
    exact h
  | cons c cs ih =>
    intro st st' j j' rs h hj hcalls hok
    obtain ⟨r, mid, rs', hcall, hrest, rfl⟩ := stackCalls_cons hcalls
    rw [Journal.run, Option.bind_eq_some_iff] at hj
    obtain ⟨jmid, hstep, hrun⟩ := hj
    have hr : r = .ok () := hok r List.mem_cons_self
    subst hr
    exact ih (h.step hstep hcall) hrun hrest fun r hr => hok r (List.mem_cons_of_mem _ hr)

/-! ## No panic -/

theorem exitCommit_depth (ops : MetadataOps M) (world w : World S) {worlds : List (World S)}
    (exited : Frame M) {parent : Substate M} (hsaved : parent.depth ≤ worlds.length) :
    ∃ r st', exitCommit ops ⟨⟨world, w :: worlds⟩, .child exited parent⟩ = some (r, st') ∧
      st'.substate.depth = parent.depth ∧ parent.depth ≤ st'.storage.saved.length := by
  unfold exitCommit
  dsimp only
  split
  · exact ⟨_, _, rfl, Substate.depth_setFrame _ _, Nat.le_succ_of_le hsaved⟩
  · exact ⟨_, _, rfl, Substate.depth_setFrame _ _, hsaved⟩

theorem exitRollback_depth (swallow : M → M → Except ExitError Unit × M) (world w : World S)
    {worlds : List (World S)} (exited : Frame M) {parent : Substate M}
    (hsaved : parent.depth ≤ worlds.length) :
    ∃ r st', exitRollback swallow ⟨⟨world, w :: worlds⟩, .child exited parent⟩ = some (r, st') ∧
      st'.substate.depth = parent.depth ∧ parent.depth ≤ st'.storage.saved.length := by
  unfold exitRollback
  dsimp only
  split
  · exact ⟨_, _, rfl, Substate.depth_setFrame _ _, Nat.le_succ_of_le hsaved⟩
  · exact ⟨_, _, rfl, Substate.depth_setFrame _ _, hsaved⟩

/-- Leaving a frame does not panic while there are as many overlays as parents. An exit that fails
leaves its overlay open. -/
theorem stackCall_exit (cfg : Config S AccountId) (ops : MetadataOps M) {st : StackState S M}
    (x : Exit) (hdepth : 0 < st.substate.depth)
    (hsaved : st.substate.depth ≤ st.storage.saved.length) :
    ∃ r st', stackCall cfg ops (.exit x) st = some (r, st') ∧
      st'.substate.depth + 1 = st.substate.depth ∧
      st'.substate.depth ≤ st'.storage.saved.length := by
  obtain ⟨⟨world, worlds⟩, substate⟩ := st
  cases substate with
  | root f => exact absurd hdepth (Nat.lt_irrefl 0)
  | child exited parent =>
    have hlen : parent.depth + 1 ≤ worlds.length := hsaved
    cases worlds with
    | nil => exact absurd hlen (Nat.not_succ_le_zero _)
    | cons w worlds =>
      have hlen' : parent.depth ≤ worlds.length := by
        rw [List.length_cons] at hlen
        omega
      have hexit : ∃ r st', stackCall cfg ops (.exit x) ⟨⟨world, w :: worlds⟩,
          .child exited parent⟩ = some (r, st') ∧ st'.substate.depth = parent.depth ∧
            parent.depth ≤ st'.storage.saved.length := by
        cases x with
        | commit => exact exitCommit_depth ops world w exited hlen'
        | revert => exact exitRollback_depth ops.swallowRevert world w exited hlen'
        | discard => exact exitRollback_depth ops.swallowDiscard world w exited hlen'
      obtain ⟨r, st', hcall, hd, hs⟩ := hexit
      refine ⟨r, st', hcall, ?_, ?_⟩
      · rw [hd]
        rfl
      · rw [hd]
        exact hs

theorem depth_applySubstate (o : StackOp) (s : Substate M) : (o.applySubstate s).depth = s.depth := by
  cases o with
  | log address topics data => exact Substate.depth_setFrame _ s
  | setDeleted address => exact Substate.depth_setFrame _ s
  | incNonce _ => rfl
  | setStorage _ _ _ => rfl
  | resetStorage _ => rfl
  | setCode _ _ => rfl
  | transfer _ _ _ => rfl

/-- A well-nested sequence of calls does not panic, whether its exits succeed or not, and it ends in
the frame it started in. -/
theorem stackCalls_trace (cfg : Config S AccountId) (ops : MetadataOps M)
    (t : Trace EnterArgs StackOp) : ∀ st : StackState S M,
    st.substate.depth ≤ st.storage.saved.length →
      ∃ rs st', stackCalls cfg ops t.calls st = some (rs, st') ∧
        st'.substate.depth = st.substate.depth ∧
        st'.substate.depth ≤ st'.storage.saved.length := by
  induction t with
  | nil =>
    intro st hsaved
    exact ⟨[], st, rfl, rfl, hsaved⟩
  | op o rest ih =>
    intro st hsaved
    have hdepth := depth_applySubstate o st.substate
    obtain ⟨rs, st', hrest, hd, hs⟩ := ih ⟨⟨o.applyWorld cfg st.storage.current, st.storage.saved⟩,
      o.applySubstate st.substate⟩ (by rw [hdepth]; exact hsaved)
    refine ⟨.ok () :: rs, st', ?_, hd.trans hdepth, hs⟩
    rw [Trace.calls, stackCalls]
    simp only [stackCall, hrest, Option.map_some]
  | frame args inner x rest ihInner ihRest =>
    intro st hsaved
    obtain ⟨rs₁, st₁, hinner, hd₁, hs₁⟩ := ihInner (enter ops args st) (Nat.succ_le_succ hsaved)
    have hpos : st₁.substate.depth = st.substate.depth + 1 := hd₁
    obtain ⟨r, st₂, hexit, hd₂, hs₂⟩ := stackCall_exit cfg ops x (by omega) hs₁
    obtain ⟨rs₃, st₃, hrest, hd₃, hs₃⟩ := ihRest st₂ hs₂
    have htail : stackCalls cfg ops (.exit x :: rest.calls) st₁ = some (r :: rs₃, st₃) := by
      rw [stackCalls, hexit]
      simp only [hrest, Option.map_some]
    refine ⟨.ok () :: (rs₁ ++ r :: rs₃), st₃, ?_, by omega, hs₃⟩
    rw [Trace.calls, stackCalls]
    simp only [stackCall, stackCalls_append hinner htail, Option.map_some]

/-! ## The effects of a trace -/

theorem mem_deletes_replay (a : H160) (os : List StackOp) : ∀ e : Effects S,
    a ∈ (Journal.replay (StackOp.apply cfg) os e).deletes ↔
      a ∈ e.deletes ∨ .setDeleted a ∈ os := by
  induction os with
  | nil => intro e; simp [Journal.replay]
  | cons o os ih =>
    intro e
    have hreplay : Journal.replay (StackOp.apply cfg) (o :: os) e =
        Journal.replay (StackOp.apply cfg) os (o.apply cfg e) := rfl
    rw [hreplay, ih, List.mem_cons]
    cases o with
    | setDeleted address =>
      have happly : ((StackOp.setDeleted address).apply cfg e).deletes = insert address e.deletes :=
        rfl
      rw [happly, Finset.mem_insert, StackOp.setDeleted.injEq]
      tauto
    | incNonce _ => simp [StackOp.apply]
    | setStorage _ _ _ => simp [StackOp.apply]
    | resetStorage _ => simp [StackOp.apply]
    | log _ _ _ => simp [StackOp.apply]
    | setCode _ _ => simp [StackOp.apply]
    | transfer _ _ _ => simp [StackOp.apply]

/-- A well-nested sequence of calls whose exits have all succeeded has the effects of its
survivors. -/
theorem stackCalls_replay {t : Trace EnterArgs StackOp} {metadata : M}
    {storage : Overlays (World S)} {st : StackState S M} {rs : List (Except ExitError Unit)}
    (h : stackCalls cfg ops t.calls (.new metadata storage) = some (rs, st))
    (hok : ∀ r ∈ rs, r = .ok ()) :
    Simulates storage.saved st
      ⟨Journal.replay (StackOp.apply cfg) t.survivors ⟨storage.current, [], ∅⟩, []⟩ := by
  have hrun := Journal.run_calls (StackOp.apply cfg) t ⟨storage.current, [], ∅⟩ []
  exact (simulates_new metadata storage).run hrun h hok

/-- After a sequence of calls that stops inside some frames and whose exits have all succeeded, the
deleted accounts are those of the `set_deleted` that have survived so far. -/
theorem deleted_open {o : OpenTrace EnterArgs StackOp} {metadata : M} {storage : Overlays (World S)}
    {st : StackState S M} {rs : List (Except ExitError Unit)}
    (h : stackCalls cfg ops o.calls (.new metadata storage) = some (rs, st))
    (hok : ∀ r ∈ rs, r = .ok ()) (a : H160) :
    st.substate.deleted a = true ↔ .setDeleted a ∈ o.survivors := by
  obtain ⟨saved, hrun⟩ := Journal.run_open (StackOp.apply cfg) o ⟨storage.current, [], ∅⟩ []
  have hsim := (simulates_new metadata storage).run hrun h hok
  rw [Substate.deleted_iff, hsim.deletes, mem_deletes_replay]
  simp

/-- **Journal semantics.** A well-nested sequence of calls on a fresh stack state does not panic. If
its exits succeed, it leaves the storage, the logs and the deletes of the operations that no reverted
or discarded frame encloses, replayed in order; and at every point on the way the deleted accounts
are those of the `set_deleted` that have survived so far. -/
theorem stackCalls_journal (cfg : Config S AccountId) (ops : MetadataOps M)
    (t : Trace EnterArgs StackOp) (metadata : M) (storage : Overlays (World S)) :
    ∃ rs st, stackCalls cfg ops t.calls (.new metadata storage) = some (rs, st) ∧
      ((∀ r ∈ rs, r = .ok ()) →
        (∃ metadata', st =
          ⟨⟨(Journal.replay (StackOp.apply cfg) t.survivors ⟨storage.current, [], ∅⟩).world,
              storage.saved⟩,
            .root ⟨metadata',
              (Journal.replay (StackOp.apply cfg) t.survivors ⟨storage.current, [], ∅⟩).deletes,
              (Journal.replay (StackOp.apply cfg) t.survivors ⟨storage.current, [], ∅⟩).logs⟩⟩) ∧
        (∀ p, p <+: t.calls → ∃ o : OpenTrace EnterArgs StackOp, o.calls = p) ∧
        ∀ o : OpenTrace EnterArgs StackOp, o.calls <+: t.calls →
          ∃ rs' st', stackCalls cfg ops o.calls (.new metadata storage) = some (rs', st') ∧
            ∀ a, st'.substate.deleted a = true ↔ .setDeleted a ∈ o.survivors) := by
  obtain ⟨rs, st, hcalls, hdepth, -⟩ := stackCalls_trace cfg ops t
    (.new metadata storage) (Nat.zero_le _)
  refine ⟨rs, st, hcalls, fun hok => ⟨?_, t.prefix_open, fun o ho => ?_⟩⟩
  · have hsim := stackCalls_replay hcalls hok
    obtain ⟨⟨world, worlds⟩, substate⟩ := st
    cases substate with
    | child f parent => cases hdepth
    | root f =>
      obtain ⟨hworld, hlogs, hdeletes, hsaved⟩ := hsim
      obtain ⟨metadata', deletes, logs⟩ := f
      simp only [Substate.allLogs, Substate.allDeletes] at hworld hlogs hdeletes
      have hworlds : worlds = storage.saved := hsaved
      exact ⟨metadata', by rw [hworld, hworlds, hlogs, hdeletes]⟩
  · obtain ⟨cs', hcs⟩ := ho
    rw [← hcs] at hcalls
    obtain ⟨rs₁, mid, rs₂, hpre, rfl⟩ := stackCalls_prefix hcalls
    refine ⟨rs₁, mid, hpre, fun a => ?_⟩
    exact deleted_open hpre (fun r hr => hok r (List.mem_append_left _ hr)) a

end Shadows.Evm

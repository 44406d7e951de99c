import Shadows.Rpc.PendingTransactions

/-!
# Proofs: what is pending

Each step of a node is at most one operation on the table of the pending transactions: a transaction that
the pool takes is put into it, a notification sweeps it. Its entries are then those that live.
-/

namespace Shadows.Rpc

open Consensus Foundations

variable {codec : BlockCodec} {retainThreshold : UInt64}

/-! ## The operation of a step -/

/-- What a notification keeps. -/
def keepsPending (codec : BlockCodec) (retainThreshold : UInt64) (digest : Digest) (number : UInt32)
    (hash : H256) (entry : PendingTransaction) : Bool :=
  ((postHashes codec digest).all fun hashes => !hashes.transactionHashes.contains hash) &&
    decide (entry.atBlock + retainThreshold > number.toUInt64)

/-- The operation of an event on the table. -/
def PendingEvent.op (codec : BlockCodec) (retainThreshold : UInt64) :
    PendingEvent → Option (TableOp H256 PendingTransaction)
  | .answered transaction number (.ok ()) _ =>
    some (.put (codec.hashing.transactionHash transaction) (.new codec transaction number))
  | .notified digest number => some (.sweep (keepsPending codec retainThreshold digest number))
  | _ => none

theorem getElem?_retainPending (digest : Digest) (number : UInt32) (pending : PendingTransactions)
    (hash : H256) :
    (retainPending codec retainThreshold digest number pending)[hash]? =
      pending[hash]?.filter (keepsPending codec retainThreshold digest number hash) := by
  unfold retainPending keepsPending
  cases postHashes codec digest with
  | none => simp
  | some hashes => simp only [Std.HashMap.getElem?_filter', Option.filter_filter, Option.all_some]

/-- A step changes the table by its operation, if it has one. -/
theorem PendingStep.getElem? {s s' : PendingState} {event : PendingEvent}
    (h : PendingStep codec retainThreshold s event s') (hash : H256) :
    s'.pending[hash]? = match event.op codec retainThreshold with
      | some op => op.entry hash s.pending[hash]?
      | none => s.pending[hash]? := by
  cases h with
  | best => rfl
  | submit => rfl
  | notified digest number => exact getElem?_retainPending digest number s.pending hash
  | answered transaction number answer hflight =>
    cases answer with
    | error err => rfl
    | ok answer =>
      simp only [submitted, PendingEvent.op, TableOp.entry, Std.HashMap.getElem?_insert, beq_iff_eq]

/-- A run changes the table by the operations of its steps. -/
theorem getElem?_endState {s : PendingState} {run : List (PendingEvent × PendingState)}
    (hrun : IsRun (PendingStep codec retainThreshold) s run) (hash : H256) :
    (endState s run).pending[hash]? =
      (run.filterMap fun step => step.1.op codec retainThreshold).foldl
        (fun old op => op.entry hash old) s.pending[hash]? := by
  induction run generalizing s with
  | nil => rfl
  | cons step run ih =>
    obtain ⟨event, s'⟩ := step
    rw [endState, ih hrun.2, hrun.1.getElem? hash]
    cases hop : event.op codec retainThreshold with
    | none => simp only [List.filterMap_cons, hop]
    | some op => simp only [List.filterMap_cons, hop, List.foldl_cons]

/-! ## Sparing -/

/-- The sum in 64 bits, if the lifespans do not come near the end of the range. -/
theorem lifespan_lt_iff (hthreshold : retainThreshold.toNat + 2 ^ 32 ≤ 2 ^ 64)
    (atBlock number : UInt32) :
    atBlock.toUInt64 + retainThreshold > number.toUInt64 ↔
      number.toNat < atBlock.toNat + retainThreshold.toNat := by
  have hsum : (atBlock.toUInt64 + retainThreshold).toNat = atBlock.toNat + retainThreshold.toNat := by
    rw [UInt64.toNat_add, UInt32.toNat_toUInt64]
    have := atBlock.toNat_lt
    exact Nat.mod_eq_of_lt (by omega)
  rw [gt_iff_lt, UInt64.lt_iff_toNat_lt, hsum, UInt32.toNat_toUInt64]

/-- An operation spares the entry of a transaction exactly if the event neither takes one with its hash nor
ends its stay. -/
theorem spares_iff (hthreshold : retainThreshold.toNat + 2 ^ 32 ≤ 2 ^ 64) {event : PendingEvent}
    {transaction : Transaction} {number : UInt32} {hash : H256} :
    (∀ op ∈ event.op codec retainThreshold, op.Spares hash (.new codec transaction number)) ↔
      ¬ event.Takes codec hash ∧ ¬ event.Ends codec retainThreshold hash number := by
  cases event with
  | best | submit => simp [PendingEvent.op, PendingEvent.Takes, PendingEvent.Ends]
  | answered transaction' number' answer response =>
    cases answer <;> simp [PendingEvent.op, PendingEvent.Takes, PendingEvent.Ends, TableOp.Spares]
  | notified digest imported =>
    have hlimit := lifespan_lt_iff hthreshold number imported
    simp only [PendingEvent.op, Option.mem_some_iff, forall_eq', TableOp.Spares, keepsPending,
      Bool.and_eq_true, decide_eq_true_eq, PendingTransaction.new, hlimit, PendingEvent.Takes,
      not_false_eq_true, true_and, PendingEvent.Ends, not_or, not_le]
    refine and_congr_left fun _ => ?_
    cases postHashes codec digest with
    | none => simp
    | some hashes => simp

/-- The entries that live are those of the transactions that stay pending. -/
theorem lives_iff (hthreshold : retainThreshold.toNat + 2 ^ 32 ≤ 2 ^ 64) {hash : H256}
    {entry : PendingTransaction} {run : List (PendingEvent × PendingState)} :
    TableOp.Lives hash entry (run.filterMap fun step => step.1.op codec retainThreshold) ↔
      StaysPending codec retainThreshold hash entry run := by
  constructor
  · rintro ⟨opsBefore, opsAfter, hops, hspared⟩
    obtain ⟨before, rest, rfl, -, hrest⟩ := List.filterMap_eq_append_iff.1 hops
    obtain ⟨skipped, ⟨event, s⟩, after, rfl, hskipped, hevent, hafter⟩ :=
      List.filterMap_eq_cons_iff.1 hrest
    cases event with
    | best | submit | notified => simp [PendingEvent.op] at hevent
    | answered transaction number answer response =>
      cases answer with
      | error err => simp [PendingEvent.op] at hevent
      | ok answer =>
        simp only [PendingEvent.op, Option.some.injEq, TableOp.put.injEq] at hevent
        obtain ⟨hhash, rfl⟩ := hevent
        refine ⟨before ++ skipped, transaction, number, response, s, after, ?_, hhash, rfl, ?_⟩
        · rw [List.append_assoc]
        · intro step hstep
          refine (spares_iff hthreshold).1 fun op hop => hspared op ?_
          rw [← hafter]
          exact List.mem_filterMap.2 ⟨step, hstep, hop⟩
  · rintro ⟨before, transaction, number, response, s, after, rfl, hhash, rfl, hafter⟩
    refine ⟨before.filterMap fun step => step.1.op codec retainThreshold,
      after.filterMap fun step => step.1.op codec retainThreshold, ?_, ?_⟩
    · rw [List.filterMap_append, List.filterMap_cons]
      simp only [PendingEvent.op, hhash]
    · intro op hop
      obtain ⟨step, hstep, hop⟩ := List.mem_filterMap.1 hop
      exact (spares_iff hthreshold).2 (hafter step hstep) op hop

/-- **Pending transactions.** In every run, the entries of the table are those of the transactions that the
pool has taken and that no notification has removed since. -/
theorem pending_iff (hthreshold : retainThreshold.toNat + 2 ^ 32 ≤ 2 ^ 64) {bestNumber : UInt32}
    {run : List (PendingEvent × PendingState)}
    (hrun : IsRun (PendingStep codec retainThreshold) (.init bestNumber) run) (hash : H256)
    (entry : PendingTransaction) :
    (endState (.init bestNumber) run).pending[hash]? = some entry ↔
      StaysPending codec retainThreshold hash entry run := by
  rw [getElem?_endState hrun, ← lives_iff hthreshold]
  have hempty : (PendingState.init bestNumber).pending[hash]? = none := Std.HashMap.getElem?_empty
  rw [hempty]
  exact TableOp.foldl_entry_eq_some_iff

end Shadows.Rpc

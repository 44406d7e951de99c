import Shadows.Ethereum.Proofs.DigestAgreementProofs

/-!
# Proofs: the transactions of a pre-log

`on_initialize` executes the transactions of the pre-log by `do_transact`, and `do_transact` refuses
every transaction as long as there is a pre-log. So a pre-log block is imported only if it is empty.
-/

namespace Shadows.Ethereum

open Consensus

variable {W : Type} {cfg : Config W}

theorem doTransact_after_preLog {log : PreLog} {extrinsics : List (Extrinsic W)} {st st' : State W}
    {accepted : List Transaction} (hpre : findPreLog st.digest = .ok log)
    (h : runExtrinsics cfg extrinsics st = some (accepted, st')) (transaction : Transaction) :
    doTransact cfg transaction st' = some (.error .preLogExists, st') := by
  obtain ⟨-, hdigest⟩ := runExtrinsics_preLog extrinsics hpre h
  rw [← hdigest] at hpre
  exact doTransact_preLog hpre

/-- **Pre-log blocks.** If the transactions of the pre-log can be executed one after the other, then
`on_initialize` imports them exactly if there are none. -/
theorem preLogImported_iff {st free : State W} {block : Block}
    (hpre : findPreLog st.digest = .ok (.block block))
    (hfree : executePreLog cfg block.transactions (withoutPreLog st) = some free) :
    PreLogImported cfg st block.transactions free.pending ↔ block.transactions = [] := by
  have hpre' : findPreLog ({ st with pending := [] } : State W).digest = .ok (.block block) := hpre
  have hinit : onInitialize cfg st =
      executePreLog cfg block.transactions { st with pending := [] } := by
    unfold onInitialize
    simp only [hpre]
  constructor
  · rintro ⟨st', hst', -⟩
    rw [hinit] at hst'
    exact (executePreLog_eq_some hpre' hst').1
  · intro hnil
    rw [hnil, executePreLog, Option.some.injEq] at hfree
    subst hfree
    refine ⟨{ st with pending := [] }, ?_, rfl, ?_, fun extrinsics accepted st'' hrun transaction => ?_⟩
    · rw [hinit, hnil]
      rfl
    · rw [hnil]
      rfl
    · exact doTransact_after_preLog hpre' hrun transaction

theorem preLogImported_iff_empty :
    PreLogImported countingConfig (importedBlock []) [] [] := by
  have hpre : findPreLog (importedBlock []).digest = .ok (.block ⟨emptyHeader 1, [], []⟩) := rfl
  have hfree : executePreLog countingConfig [] (withoutPreLog (importedBlock [])) =
      some (withoutPreLog (importedBlock [])) := rfl
  exact (preLogImported_iff hpre hfree).2 rfl

/-- A pre-log with one transaction, which the runner accepts: `on_initialize` panics. -/
theorem preLog_not_imported :
    ∃ free, findPreLog (importedBlock [callWithNonce 0]).digest =
        .ok (.block ⟨emptyHeader 1, [callWithNonce 0], []⟩) ∧
      executePreLog countingConfig [callWithNonce 0]
        (withoutPreLog (importedBlock [callWithNonce 0])) = some free ∧
      onInitialize countingConfig (importedBlock [callWithNonce 0]) = none ∧
      ¬ PreLogImported countingConfig (importedBlock [callWithNonce 0]) [callWithNonce 0]
        free.pending := by
  have hpanic : onInitialize countingConfig (importedBlock [callWithNonce 0]) = none := rfl
  refine ⟨_, rfl, rfl, hpanic, ?_⟩
  rintro ⟨st', hst', -⟩
  rw [hpanic] at hst'
  cases hst'

end Shadows.Ethereum

import Shadows.Ethereum.Chains
import Shadows.Ethereum.Proofs.DigestAgreementProofs
import Shadows.Ethereum.Proofs.ReplayProofs
import Shadows.Evm.Proofs.RunnerProofs

/-!
# Proofs: chains of blocks

What the transactions of a chain do to the other pallets follows from what one of them does: a relation
between the state before and after, and the entries in between, that holds of one transaction and of the
other extrinsics holds of the chain.
-/

namespace Shadows.Ethereum

open Consensus

/-! ## The chain rule -/

section Rule

variable {W : Type} {cfg : Config W}

/-- A relation that composes, and holds of every transaction. -/
structure ChainRule (cfg : Config W) (Acc : W → Entries → W → Prop) : Prop where
  refl : ∀ w, Acc w [] w
  trans : ∀ {w w' w'' entries entries'}, Acc w entries w' → Acc w' entries' w'' →
    Acc w (entries ++ entries') w''
  failed : ∀ {transaction st st' e}, doTransact cfg transaction st = some (.error e, st') →
    Acc st.world [] st'.world
  executed : ∀ {transaction st st' weight entry},
    doTransact cfg transaction st = some (.ok weight, st') → st'.pending = st.pending ++ [entry] →
      Acc st.world [entry] st'.world

variable {Acc : W → Entries → W → Prop} (hrule : ChainRule cfg Acc)
include hrule

theorem ChainRule.runExtrinsics (extrinsics : List (Extrinsic W))
    (hother : ∀ effect, .other effect ∈ extrinsics → ∀ w, Acc w [] (effect w)) :
    ∀ {st st' : State W} {accepted : List Transaction},
      runExtrinsics cfg extrinsics st = some (accepted, st') →
        ∃ entries, st'.pending = st.pending ++ entries ∧ Acc st.world entries st'.world := by
  induction extrinsics with
  | nil =>
    intro st st' accepted h
    simp only [Ethereum.runExtrinsics, Option.some.injEq, Prod.mk.injEq] at h
    obtain ⟨-, rfl⟩ := h
    exact ⟨[], (List.append_nil _).symm, hrule.refl _⟩
  | cons extrinsic rest ih =>
    intro st st' accepted h
    have hrest := fun effect heffect => hother effect (List.mem_cons_of_mem _ heffect)
    cases extrinsic with
    | other effect =>
      obtain ⟨entries, hpending, hacc⟩ := ih hrest h
      refine ⟨entries, hpending, ?_⟩
      exact hrule.trans (hother effect List.mem_cons_self st.world) hacc
    | transact transaction =>
      obtain ⟨r, mid, hcall, hrun⟩ := runExtrinsics_transact h
      obtain ⟨-, ⟨e, rfl, hpending⟩ | ⟨-, weight, entry, rfl, -, -, hpending⟩⟩ := doTransact_cases hcall
      · obtain ⟨_, -, hrest'⟩ | ⟨_, _, hok, -⟩ := hrun
        · obtain ⟨entries, happend, hacc⟩ := ih hrest hrest'
          rw [hpending] at happend
          exact ⟨entries, happend, hrule.trans (hrule.failed hcall) hacc⟩
        · cases hok
      · obtain ⟨_, herror, -⟩ | ⟨_, _, -, -, hrest'⟩ := hrun
        · cases herror
        · obtain ⟨entries, happend, hacc⟩ := ih hrest hrest'
          refine ⟨entry :: entries, ?_, hrule.trans (hrule.executed hcall hpending) hacc⟩
          rw [happend, hpending, List.append_assoc]
          rfl

theorem ChainRule.runBlock {input : BlockInput W} {st st' : State W} {accepted : List Transaction}
    (hother : ∀ effect, .other effect ∈ input.extrinsics → ∀ w, Acc w [] (effect w))
    (h : runBlock cfg input st = some (accepted, st')) :
    Acc st.world st'.pending st'.world := by
  obtain ⟨mid, hbody, hfin⟩ := runBlock_cases h
  obtain ⟨gasUsed, -, rfl⟩ := storeBlock_eq_some hfin
  unfold runBody at hbody
  rw [Option.bind_eq_some_iff] at hbody
  obtain ⟨start, hinit, hrun⟩ := hbody
  obtain ⟨entries, hpending, hacc⟩ := hrule.runExtrinsics input.extrinsics hother hrun
  have hstart : start.pending = [] ∧ start.world = st.world := by
    unfold onInitialize at hinit
    dsimp only at hinit
    split at hinit
    · rename_i block hpre
      -- with a pre-log, the block has no transactions
      have hpre' : findPreLog ({ initializeBlock input st with pending := [] } : State W).digest =
          .ok (.block block) := hpre
      obtain ⟨-, rfl⟩ := executePreLog_eq_some hpre' hinit
      exact ⟨rfl, rfl⟩
    · rw [Option.some.injEq] at hinit
      rw [← hinit]
      exact ⟨rfl, rfl⟩
  rw [hstart.1, List.nil_append] at hpending
  rw [hstart.2, ← hpending] at hacc
  exact hacc

theorem ChainRule.runBlocks (inputs : List (BlockInput W))
    (hother : OthersSatisfy (fun effect => ∀ w, Acc w [] (effect w)) inputs) :
    ∀ {st st' : State W} {blocks : List Entries}, runBlocks cfg inputs st = some (blocks, st') →
      Acc st.world blocks.flatten st'.world := by
  induction inputs with
  | nil =>
    intro st st' blocks h
    simp only [Ethereum.runBlocks, Option.some.injEq, Prod.mk.injEq] at h
    obtain ⟨rfl, rfl⟩ := h
    exact hrule.refl _
  | cons input rest ih =>
    intro st st' blocks h
    simp only [Ethereum.runBlocks, Option.bind_eq_some_iff, Option.map_eq_some_iff, Prod.mk.injEq,
      Prod.exists] at h
    obtain ⟨accepted, mid, hblock, blocks', st'', hrest, rfl, rfl⟩ := h
    have hfirst := hrule.runBlock (hother input List.mem_cons_self) hblock
    have hothers : OthersSatisfy (fun effect => ∀ w, Acc w [] (effect w)) rest :=
      fun input' hinput' => hother input' (List.mem_cons_of_mem _ hinput')
    rw [List.flatten_cons]
    exact hrule.trans hfirst (ih hothers hrest)

end Rule

end Shadows.Ethereum

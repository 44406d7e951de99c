import Shadows.Evm.Proofs.FlatProofs

/-!
# Proofs: addresses without code

An execution that creates no contract at an address gives it no code, whatever it reverts.
-/

namespace Shadows.Evm

variable {S AccountId M R : Type} {cfg : Config S AccountId} {address : H160}

theorem Codeless.applyWorld {o : StackOp} {world : World S} (h : Codeless address world)
    (hnone : ¬ o.CreatesAt address) : Codeless address (o.applyWorld cfg world) := by
  cases o with
  | setCode created code =>
    have hne : address ≠ created := fun heq => hnone heq.symm
    show Codeless address (createAccount cfg created code world)
    unfold createAccount
    split_ifs
    · exact h
    · exact (congrArg (Option.getD · []) (Function.update_of_ne hne _ _)).trans h
    · exact (congrArg (Option.getD · []) (Function.update_of_ne hne _ _)).trans h
  | transfer source target value =>
    show Codeless address (Evm.transfer cfg source target value world).2
    unfold Evm.transfer
    split
    · exact h
    · exact h
  | incNonce other => exact h
  | setStorage other index value => exact h
  | resetStorage other => exact h
  | log other topics data => exact h
  | setDeleted other => exact h

theorem Codeless.removeAccount {world : World S} (h : Codeless address world) (other : H160) :
    Codeless address (removeAccount cfg other world) := by
  by_cases hother : address = other
  · subst hother
    exact congrArg (Option.getD · []) (Function.update_self address none world.accountCodes)
  · exact (congrArg (Option.getD · []) (Function.update_of_ne hother none world.accountCodes)).trans h

theorem Codeless.removeDeleted {world : World S} (h : Codeless address world) (deletes : Finset H160) :
    Codeless address (removeDeleted cfg deletes world) :=
  List.foldlRecOn (motive := fun w : World S => Codeless address w) _ _ h
    fun _ hw other _ => hw.removeAccount other

/-- The fee is paid without a change of the code. -/
theorem Codeless.prepare {source : H160} {value price : U256} {gasLimit : UInt64}
    {gasPrice nonce : Option U256} {fee : Option ℕ} {world paid : World S} (h : Codeless address world)
    (hprep : prepare cfg source value gasLimit gasPrice nonce world = .ok (price, fee, paid)) :
    Codeless address paid := by
  obtain ⟨-, imbalance, s, -, -, rfl⟩ := prepare_ok hprep
  exact h

/-- **Code.** An address without code has none after an execution that creates no contract there. -/
theorem Codeless.execute {exec : Executor S M} {source : H160} {value : U256} {gasLimit : UInt64}
    {gasPrice nonce : Option U256} {f : Vicinity → World S → ExecutorRun R} {world world' : World S}
    {r : Except EvmError (ExecutionInfo R)} (h : Codeless address world)
    (hnone : ¬ ExecuteCreates cfg address source value gasLimit gasPrice nonce f world)
    (hexecute : execute cfg exec source value gasLimit gasPrice nonce f world = some (r, world')) :
    Codeless address world' := by
  obtain ⟨e, -, -, rfl⟩ |
    ⟨price, fee, paid, rs, st, result, after, hprep, hcalls, hfee, hend⟩ := execute_cases hexecute
  · exact h
  have hop : ∀ (o : StackOp) (w : World S), .op o ∈ (f ⟨price, source⟩ paid).trace.calls →
      Codeless address w → Codeless address (o.applyWorld cfg w) :=
    fun o w ho hw => hw.applyWorld fun hcreates => hnone ⟨price, fee, paid, hprep, o, ho, hcreates⟩
  have hstart : ∀ w ∈ [paid], Codeless address w := List.forall_mem_singleton.2 (h.prepare hprep)
  have hbody : Codeless address st.storage.current :=
    stackCalls_keeps hop hstart hcalls _ List.mem_cons_self
  obtain ⟨s, rfl⟩ := correctAndDepositFee_system hfee
  have hafter : Codeless address { st.storage.current with system := s } := hbody
  obtain ⟨-, -, -, rfl⟩ | ⟨-, -, -, rfl⟩ := hend
  · exact hafter
  · exact hafter.removeDeleted st.substate.frame.deletes

/-- An address without code at which a run creates no contract acts in it only as its caller. -/
theorem not_acts {source : H160} {world : World S} {run : ExecutorRun R} (hsource : source ≠ address)
    (hcodeless : Codeless address world) (hnone : ¬ Creates address run) :
    ¬ Acts source world run address := by
  rintro (rfl | hcode | hcreates)
  · exact hsource rfl
  · exact hcode hcodeless
  · exact hnone hcreates

end Shadows.Evm

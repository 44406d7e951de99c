import Shadows.Ethereum.Proofs.CodelessProofs
import Shadows.Evm.Proofs.NonceProofs
import Shadows.Foundations.Tickets

/-!
# Proofs: the order of nonces

The nonce of an account is a counter from which the accepted transactions of its address take their
nonces: over a history that keeps the account and creates no contract at the address they are consecutive.
-/

namespace Shadows.Ethereum

open Consensus Foundations

variable {S AccountId M : Type} {rt : Runtime S AccountId M} {hold : Evm.Holdings S AccountId}
  {callCost createCost : Bytes → ℕ} {address : H160}

/-! ## One step -/

theorem runNonces_call (hexec : Evm.NonceLaws rt.evm rt.executor callCost createCost)
    {transaction : Transaction} {source target : H160} (haction : transaction.action = .call target)
    (vicinity : Evm.Vicinity) (world : Evm.World S) :
    Evm.RunNonces rt.evm rt.executor source (Starts rt callCost createCost transaction source world)
      transaction.gasLimit.lowU64 world
      (rt.executor.transactCall source target transaction.value transaction.input
        transaction.gasLimit.lowU64 vicinity world) := by
  have hstarts : Starts rt callCost createCost transaction source world ↔
      callCost transaction.input ≤ transaction.gasLimit.lowU64.toNat := by
    unfold Starts intrinsicCost
    simp [haction]
  rw [hstarts]
  exact hexec.call source target transaction.value transaction.input transaction.gasLimit.lowU64
    vicinity world

theorem runNonces_create (hexec : Evm.NonceLaws rt.evm rt.executor callCost createCost)
    {transaction : Transaction} {source : H160} (haction : transaction.action = .create)
    (vicinity : Evm.Vicinity) (world : Evm.World S) :
    Evm.RunNonces rt.evm rt.executor source (Starts rt callCost createCost transaction source world)
      transaction.gasLimit.lowU64 world
      (Evm.createOperation rt.executor source transaction.input transaction.value
        transaction.gasLimit.lowU64 vicinity world) := by
  have hstarts : Starts rt callCost createCost transaction source world ↔
      createCost transaction.input ≤ transaction.gasLimit.lowU64.toNat ∧
        transaction.value ≤ (Evm.accountBasic rt.evm world source).balance := by
    unfold Starts intrinsicCost
    simp [haction]
  rw [hstarts]
  have hrun := hexec.create source transaction.value transaction.input transaction.gasLimit.lowU64
    vicinity world
  exact ⟨hrun.exits, hrun.own, hrun.increments, hrun.stops⟩

section Step

variable (hsys : Evm.SystemLaws rt.evm.system hold)
  (hdeposit : ∀ who amount s imbalance s', rt.evm.system.depositIntoExisting who amount s =
    some (imbalance, s') → imbalance = amount)
  (hexec : Evm.NonceLaws rt.evm rt.executor callCost createCost)
  (hsole : ∀ other, rt.evm.intoAccountId other = rt.evm.intoAccountId address → other = address)
include hsys hdeposit hexec hsole

/-- A transaction takes the nonce of the address and raises it, or leaves it alone. -/
theorem transact_counts {transaction : Transaction} {st st' : State (Evm.World S)}
    {r : Except DispatchError UInt64} (hcodeless : Evm.Codeless address st.world)
    (hkeeps : TransactKeeps rt hold (rt.evm.intoAccountId address) transaction st)
    (hnone : ¬ TransactCreates rt address transaction st)
    (h : doTransact rt.ethereum transaction st = some (r, st')) :
    Counts (fun st => Evm.nonceOf rt.evm (rt.evm.intoAccountId address) st.world)
      (usedNonce rt callCost createCost address) st (.transact transaction) st' := by
  cases r with
  | error e =>
    have hworld : st'.world = st.world := failed_world hdeposit h
    have hticket : usedNonce rt callCost createCost address st (.transact transaction) = none := by
      simp only [usedNonce, h, ite_self]
    exact .of_none hticket (congrArg (Evm.nonceOf rt.evm _) hworld)
  | ok weight =>
    have hticket : usedNonce rt callCost createCost address st (.transact transaction) =
        if UsesNonce rt callCost createCost address transaction st then some transaction.nonce.val
        else none := by
      simp only [usedNonce, h]
    obtain ⟨_, herror, -⟩ | ⟨source, R, f, r, hsigner, ⟨hlaws, hkept, hcreates⟩, hrun, hend⟩ :=
      doTransact_ran (fun source _ f => (∀ vicinity world, Evm.RunNonces rt.evm rt.executor source
          (Starts rt callCost createCost transaction source world) transaction.gasLimit.lowU64 world
            (f vicinity world)) ∧
          (recoverSigner rt.ethereum transaction = some source → Evm.ExecuteKeeps rt.evm hold
            (rt.evm.intoAccountId address) source transaction.value transaction.gasLimit.lowU64
              (some transaction.gasPrice) (some transaction.nonce) f st.world) ∧
          (recoverSigner rt.ethereum transaction = some source → Evm.ExecuteCreates rt.evm address source
            transaction.value transaction.gasLimit.lowU64 (some transaction.gasPrice)
              (some transaction.nonce) f st.world → TransactCreates rt address transaction st))
        (fun _ _ haction => ⟨runNonces_call hexec haction, hkeeps.call haction,
          transactCreates_call haction⟩)
        (fun _ haction => ⟨runNonces_create hexec haction, hkeeps.create haction,
          transactCreates_create haction⟩) h
    · cases herror
    obtain ⟨_, _, herror, -⟩ | ⟨_, info, _, -, rfl, -⟩ := hend
    · cases herror
    obtain ⟨price, fee, paid, hprep, hraised⟩ := Evm.execute_nonce_eq hsys hsole hlaws hcodeless
      (fun hcreated => hnone (hcreates hsigner hcreated)) (hkept hsigner) hrun
    have huses : UsesNonce rt callCost createCost address transaction st ↔
        source = address ∧ Starts rt callCost createCost transaction source paid := by
      unfold UsesNonce
      rw [hsigner, Option.some.injEq]
      refine and_congr_right ?_
      rintro rfl
      rw [hprep]
    by_cases hmine : UsesNonce rt callCost createCost address transaction st
    · rw [if_pos hmine] at hticket
      rw [if_pos (huses.1 hmine)] at hraised
      rw [accepted_nonce hmine.1 h] at hticket
      exact .of_some hticket hraised
    · rw [if_neg hmine] at hticket
      rw [if_neg (fun hsource => hmine (huses.2 hsource))] at hraised
      exact .of_none hticket hraised

/-- A step that keeps the account keeps the address without code, and takes the nonce or leaves it. -/
theorem KeptStep.counts {st st' : State (Evm.World S)} {a : Action AccountId}
    (hcodeless : Evm.Codeless address st.world) (h : KeptStep rt hold address st a st') :
    Evm.Codeless address st'.world ∧
      Counts (fun st => Evm.nonceOf rt.evm (rt.evm.intoAccountId address) st.world)
        (usedNonce rt callCost createCost address) st a st' := by
  obtain ⟨hkeeps, hnone, hact⟩ := h
  cases a with
  | transact transaction =>
    rw [act, Option.map_eq_some_iff] at hact
    obtain ⟨⟨r, after⟩, hcall, rfl⟩ := hact
    exact ⟨doTransact_codeless hcodeless hnone hcall,
      transact_counts hsys hdeposit hexec hsole hcodeless hkeeps hnone hcall⟩
  | transfer source target amount =>
    rw [act] at hact
    cases hcall : rt.evm.system.transfer source target amount st.world.system with
    | none =>
      simp only [hcall, Option.some.injEq] at hact
      obtain rfl := hact
      exact ⟨hcodeless, .of_none rfl rfl⟩
    | some s =>
      simp only [hcall, Option.some.injEq] at hact
      obtain rfl := hact
      exact ⟨hcodeless, .of_none rfl
        (congrArg UInt32.toNat (Evm.TransferKeeps.nonce_eq hsys hkeeps hcall))⟩
  | withdraw source amount =>
    rw [act] at hact
    cases hcall : rt.evm.system.withdraw source amount st.world.system with
    | none =>
      simp only [hcall, Option.some.injEq] at hact
      obtain rfl := hact
      exact ⟨hcodeless, .of_none rfl rfl⟩
    | some out =>
      simp only [hcall, Option.some.injEq] at hact
      obtain rfl := hact
      exact ⟨hcodeless, .of_none rfl
        (congrArg UInt32.toNat (Evm.WithdrawKeeps.nonce_eq hsys hkeeps hcall))⟩
  | deposit target amount =>
    rw [act, Option.some.injEq] at hact
    obtain rfl := hact
    exact ⟨hcodeless, .of_none rfl
      (congrArg UInt32.toNat (hsys.depositCreating target amount st.world.system _))⟩
  | nextBlock digest timestamp =>
    have hworld := nextBlock_world hact
    exact ⟨hworld ▸ hcodeless, .of_none rfl (congrArg (Evm.nonceOf rt.evm _) hworld)⟩

/-! ## Histories -/

/-- **The order of nonces.** Over every history that keeps the account of an address without code and
creates no contract there, whatever others do in between, the transactions of the address that are accepted
carry the nonces from that of the account on, without gaps and without repetition; and the one to be
accepted next carries the nonce behind them. -/
theorem nonces_in_order {st : State (Evm.World S)} {run : List (Action AccountId × State (Evm.World S))}
    (hcodeless : Evm.Codeless address st.world) (hrun : IsRun (KeptStep rt hold address) st run) :
    tickets (usedNonce rt callCost createCost address) st run =
        List.range' (Evm.nonceOf rt.evm (rt.evm.intoAccountId address) st.world)
          (tickets (usedNonce rt callCost createCost address) st run).length ∧
      ∀ transaction weight st', recoverSigner rt.ethereum transaction = some address →
        doTransact rt.ethereum transaction (endState st run) = some (.ok weight, st') →
          transaction.nonce.val = Evm.nonceOf rt.evm (rt.evm.intoAccountId address) st.world +
            (tickets (usedNonce rt callCost createCost address) st run).length := by
  obtain ⟨-, hcounts⟩ := Each.of_invariant (P := fun st => Evm.Codeless address st.world)
    (fun _ _ _ hst hstep => KeptStep.counts hsys hdeposit hexec hsole hst hstep) hcodeless hrun
  obtain ⟨hrange, hend⟩ := tickets_eq_range' hcounts
  refine ⟨hrange, fun transaction weight st' hsigner haccepted => ?_⟩
  rw [accepted_nonce hsigner haccepted]
  exact hend

end Step

/-! ## Calls of a contract -/

/-- Operations that keep an account in every state keep it one after the other. -/
theorem opsKeep_of_forall {cfg : Evm.Config S AccountId} {who : AccountId} {os : List Evm.StackOp}
    (h : ∀ o ∈ os, ∀ world, o.Keeps cfg hold who world) :
    ∀ world, Evm.OpsKeep cfg hold who os world := by
  induction os with
  | nil => exact fun _ => trivial
  | cons o os ih =>
    intro world
    obtain ⟨ho, hos⟩ := List.forall_mem_cons.1 h
    exact ⟨ho world, ih hos _⟩

/-- What the code of another contract does keeps the account that signs. -/
theorem codeOps_keep {contract : H160} (hcontract : contract ≠ caller) {code : Bytes} {o : Evm.StackOp}
    (hmem : o ∈ Evm.codeOps contract code) (world : Evm.World Evm.Ledger) :
    o.Keeps Evm.ledgerConfig Evm.ledgerHoldings caller world := by
  obtain ⟨-, hinc, htransfer, -⟩ := Evm.mem_codeOps hmem
  cases o with
  | incNonce address =>
    obtain rfl := hinc address rfl
    exact fun heq => absurd heq hcontract
  | transfer sender receiver value =>
    obtain rfl := htransfer sender receiver value rfl
    exact fun heq => absurd heq hcontract
  | setStorage address index value => exact trivial
  | resetStorage address => exact trivial
  | log address topics data => exact trivial
  | setDeleted address => exact trivial
  | setCode address code => exact trivial

/-- A call of the contract at the address `7` keeps the account that signs, if this has enough. -/
theorem codeRuntime_keeps {n : U256} {st : State (Evm.World Evm.Ledger)}
    (hfree : 21500 ≤ (st.world.system caller).free)
    (hnonce : (st.world.system caller).nonce.toNat + 1 < 2 ^ 32) :
    TransactKeeps codeRuntime Evm.ledgerHoldings caller (callWithNonce n) st := by
  intro source hsigner
  obtain rfl : caller = source := Option.some.inj hsigner
  intro price fee paid hprep
  obtain ⟨rfl, -⟩ := Evm.prepare_checks hprep
  obtain ⟨-, imbalance, s, hwithdraw, -, rfl⟩ := Evm.prepare_ok hprep
  have hkeeps : ¬ Evm.ledgerHoldings.Reaps caller 21000 st.world.system := by
    rintro ⟨-, -, hlow⟩
    exact absurd hfree (not_le.2 hlow)
  have hsame : (s caller).nonce = (st.world.system caller).nonce :=
    Evm.ledgerSystem_laws.withdraw caller 21000 _ _ _ hwithdraw caller fun _ => hkeeps
  refine ⟨fun _ _ _ => hkeeps, ?_⟩
  have hinc : ∀ world : Evm.World Evm.Ledger, world.system = s →
      (Evm.StackOp.incNonce caller).Keeps Evm.ledgerConfig Evm.ledgerHoldings caller world := by
    rintro world rfl _
    show (world.system caller).nonce.toNat + 1 < 2 ^ 32
    rw [hsame]
    exact hnonce
  have hrest : ∀ code, ∀ o ∈ Evm.StackOp.transfer caller 7 0 :: Evm.codeOps 7 code,
      ∀ world, o.Keeps Evm.ledgerConfig Evm.ledgerHoldings caller world := by
    intro code o hmem world
    obtain rfl | hmem := List.mem_cons.1 hmem
    · exact fun _ _ _ _ hreaps => absurd hreaps.1 (Nat.lt_irrefl 0)
    · exact codeOps_keep (by decide) hmem world
  show Evm.OpsKeep _ _ _ (Evm.codeRun Evm.ledgerConfig caller 7 0 (.transfer caller 7 0 ::
    Evm.codeOps 7 ((st.world.accountCodes 7).getD [])) [] 21000 21000
      { st.world with system := s }).trace.survivors _
  obtain hrun | hrun := Evm.survivors_codeRun Evm.ledgerConfig caller 7 0 (.transfer caller 7 0 ::
    Evm.codeOps 7 ((st.world.accountCodes 7).getD [])) ([] : Bytes) 21000 21000
      { st.world with system := s }
  · rw [hrun]
    exact ⟨hinc _ rfl, opsKeep_of_forall (hrest _) _⟩
  · rw [hrun]
    exact ⟨hinc _ rfl, trivial⟩

/-- The executor creates no contract at the address of the account that signs. -/
theorem codeRuntime_creates_none {n : U256} {st : State (Evm.World Evm.Ledger)} :
    ¬ TransactCreates codeRuntime caller (callWithNonce n) st := by
  rintro ⟨source, -, price, fee, paid, -, hcreates⟩
  have hsmall := Evm.codeExecutor_call_creates hcreates
  exact absurd hsmall (by decide)

/-- Two calls of a contract that creates another one take the nonces `0` and `1`, so that the next
transaction has to take `2`. -/
theorem nonces_in_order_caller :
    ∃ run, IsRun (KeptStep codeRuntime Evm.ledgerHoldings caller) (creating 100000) run ∧
      (endState (creating 100000) run).world.accountCodes 9 = some [0, 0, 0] ∧
      tickets (usedNonce codeRuntime Evm.callCost Evm.createCost caller) (creating 100000) run =
        [0, 1] ∧
      ∀ transaction weight st', recoverSigner codeRuntime.ethereum transaction = some caller →
        doTransact codeRuntime.ethereum transaction (endState (creating 100000) run) =
          some (.ok weight, st') → transaction.nonce.val = 2 := by
  have hruns : ((act codeRuntime (.transact (callWithNonce 0)) (creating 100000)).bind fun st₁ =>
      (act codeRuntime (.transact (callWithNonce 1)) st₁).map fun st₂ => decide
        (usedNonce codeRuntime Evm.callCost Evm.createCost caller (creating 100000)
            (.transact (callWithNonce 0)) = some 0 ∧
          usedNonce codeRuntime Evm.callCost Evm.createCost caller st₁
            (.transact (callWithNonce 1)) = some 1 ∧
          (st₁.world.system caller).free = 79000 ∧ (st₁.world.system caller).nonce = 1 ∧
          st₂.world.accountCodes 9 = some [0, 0, 0])) = some true := by
    decide +kernel
  obtain ⟨st₁, hfirst, hrest⟩ := Option.bind_eq_some_iff.1 hruns
  obtain ⟨st₂, hsecond, hfacts⟩ := Option.map_eq_some_iff.1 hrest
  obtain ⟨hzero, hone, hfree, hnonce, hcode⟩ := of_decide_eq_true hfacts
  have hrun : IsRun (KeptStep codeRuntime Evm.ledgerHoldings caller) (creating 100000)
      [(.transact (callWithNonce 0), st₁), (.transact (callWithNonce 1), st₂)] := by
    refine ⟨⟨codeRuntime_keeps (by decide) (by decide), codeRuntime_creates_none, hfirst⟩,
      ⟨codeRuntime_keeps ?_ ?_, codeRuntime_creates_none, hsecond⟩, trivial⟩
    · omega
    · rw [hnonce]
      decide
  have htickets : tickets (usedNonce codeRuntime Evm.callCost Evm.createCost caller) (creating 100000)
      [(.transact (callWithNonce 0), st₁), (.transact (callWithNonce 1), st₂)] = [0, 1] := by
    simp only [tickets, hzero, hone]
    rfl
  have hsole : ∀ other, codeRuntime.evm.intoAccountId other = codeRuntime.evm.intoAccountId caller →
      other = caller := fun _ => id
  have hcodeless : Evm.Codeless caller (creating 100000).world := rfl
  obtain ⟨-, hnext⟩ := nonces_in_order Evm.ledgerSystem_laws Evm.Ledger.depositIntoExisting_amount
    Evm.codeExecutor_nonces hsole hcodeless hrun
  refine ⟨_, hrun, hcode, htickets, fun transaction w st' hsigner haccepted => ?_⟩
  rw [hnext transaction w st' hsigner haccepted, htickets]
  rfl

end Shadows.Ethereum

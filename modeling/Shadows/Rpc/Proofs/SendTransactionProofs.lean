import Shadows.Rpc.SendTransaction
import Shadows.Ethereum.Proofs.ValidationProofs

/-!
# Proofs: sending a transaction

The `v` of a signature carries the parity of its point and the chain id, and both come out again. So the
pallet takes a transaction that a signer has signed as one of the account that the request has named, and
what is left for the pool to check is whether this account can afford it.
-/

namespace Shadows.Rpc

open Ethereum

variable {K W : Type} {crates : SigningCrates K} {cfg : Ethereum.Config W} {ids : ChainIds}

/-! ## Signatures -/

theorem signatureV_toNat {chainId : UInt64} (hchain : SignableChain chainId) {recid : UInt8}
    (hrecid : recid = 0 ∨ recid = 1) :
    (signatureV (some chainId) recid).toNat = 2 * chainId.toNat + 35 + recid.toNat := by
  obtain ⟨-, hfits⟩ := hchain
  have hle : recid.toNat ≤ 1 := by
    rcases hrecid with rfl | rfl
    · exact Nat.zero_le 1
    · exact le_refl 1
  have htwo : (2 : UInt64).toNat = 2 := rfl
  have hbase : (35 : UInt64).toNat = 35 := rfl
  show (2 * chainId + 35 + recid.toUInt64).toNat = _
  rw [UInt64.toNat_add, UInt64.toNat_add, UInt64.toNat_mul, htwo, hbase, UInt8.toNat_toUInt64]
  omega

theorem signatureV_large {chainId : UInt64} (hchain : SignableChain chainId) {recid : UInt8}
    (hrecid : recid = 0 ∨ recid = 1) : 36 < signatureV (some chainId) recid := by
  have hpos := hchain.1
  rw [UInt64.lt_iff_toNat_lt, signatureV_toNat hchain hrecid]
  show 36 < _
  omega

theorem standardV_signatureV {chainId : UInt64} (hchain : SignableChain chainId) {recid : UInt8}
    (hrecid : recid = 0 ∨ recid = 1) : ((signatureV (some chainId) recid - 1) % 2).toUInt8 = recid := by
  have hv := signatureV_toNat hchain hrecid
  have hone : (1 : UInt64) ≤ signatureV (some chainId) recid := by
    rw [UInt64.le_iff_toNat_le, hv]
    show 1 ≤ _
    omega
  have hsub : (signatureV (some chainId) recid - 1).toNat = 2 * chainId.toNat + 34 + recid.toNat := by
    rw [UInt64.toNat_sub_of_le _ _ hone, hv]
    show _ - 1 = _
    omega
  have hmod : ((signatureV (some chainId) recid - 1) % 2).toNat = recid.toNat := by
    rw [UInt64.toNat_mod, hsub]
    show _ % 2 = _
    rcases hrecid with rfl | rfl
    · show (2 * chainId.toNat + 34 + 0) % 2 = 0
      omega
    · show (2 * chainId.toNat + 34 + 1) % 2 = 1
      omega
  rw [← UInt8.toNat_inj, UInt64.toNat_toUInt8, hmod]
  exact Nat.mod_eq_of_lt recid.toNat_lt

theorem chainId_signatureV {chainId : UInt64} (hchain : SignableChain chainId) {recid : UInt8}
    (hrecid : recid = 0 ∨ recid = 1) : (signatureV (some chainId) recid - 35) / 2 = chainId := by
  have hv := signatureV_toNat hchain hrecid
  have hbase : (35 : UInt64) ≤ signatureV (some chainId) recid := by
    rw [UInt64.le_iff_toNat_le, hv]
    show 35 ≤ _
    omega
  rw [← UInt64.toNat_inj, UInt64.toNat_div, UInt64.toNat_sub_of_le _ _ hbase, hv]
  show (_ - 35) / 2 = _
  rcases hrecid with rfl | rfl
  · show (2 * chainId.toNat + 35 + 0 - 35) / 2 = _
    omega
  · show (2 * chainId.toNat + 35 + 1 - 35) / 2 = _
    omega

section Laws

variable (hlaws : SigningLaws crates cfg ids)
include hlaws

/-- What a key has signed: the pallet recovers the address of the key and the chain id. -/
theorem signWith_ok {message : TransactionMessage} {chainId : UInt64} {secret : K}
    {transaction : Transaction} (hchain : SignableChain chainId)
    (hmessage : message.chainId = some chainId)
    (h : signWith crates message secret = .ok transaction) :
    recoverSigner cfg transaction = some (keyAddress crates secret) ∧
      ids.signatureChainId transaction.signature = some chainId ∧
      transaction.nonce = message.nonce ∧ transaction.gasPrice = message.gasPrice ∧
      transaction.gasLimit = message.gasLimit ∧ transaction.action = message.action ∧
      transaction.value = message.value ∧ transaction.input = message.input := by
  have hrecid := hlaws.recid (crates.hash message) secret
  have hrecover := hlaws.recover (crates.hash message) secret
  obtain ⟨⟨r, s, recid⟩, hsign⟩ : ∃ signed, crates.sign (crates.hash message) secret = signed :=
    ⟨_, rfl⟩
  rw [hsign] at hrecid hrecover
  unfold signWith at h
  simp only [hsign] at h
  cases hnew : crates.newSignature (signatureV message.chainId recid) r s with
  | none => simp only [hnew, reduceCtorEq] at h
  | some signature =>
    simp only [hnew, Except.ok.injEq] at h
    subst h
    obtain rfl := hlaws.newSignature _ _ _ _ hnew
    rw [hmessage] at hnew ⊢
    have hcarried : ids.signatureChainId ⟨signatureV (some chainId) recid, r, s⟩ = some chainId := by
      rw [hlaws.signatureChainId]
      simp only [signatureV_large hchain hrecid, if_true, chainId_signatureV hchain hrecid]
    refine ⟨?_, hcarried, rfl, rfl, rfl, rfl, rfl, rfl⟩
    unfold recoverSigner
    simp only [hlaws.messageHash, hcarried, hlaws.standardV _ (signatureV_large hchain hrecid),
      standardV_signatureV hchain hrecid]
    have hhash : crates.hash
        { nonce := message.nonce
          gasPrice := message.gasPrice
          gasLimit := message.gasLimit
          action := message.action
          value := message.value
          input := message.input
          chainId := some chainId } = crates.hash message := by
      rw [← hmessage]
    rw [hhash, hrecover, hlaws.keccak256]
    rfl

end Laws

/-- A signer for development signs with a key of the address. -/
theorem devSign_ok {message : TransactionMessage} {address : H160} {transaction : Transaction}
    (keys : List K) (h : devSign crates message address keys = .ok transaction) :
    ∃ secret ∈ keys, keyAddress crates secret = address ∧
      signWith crates message secret = .ok transaction := by
  induction keys with
  | nil => cases h
  | cons secret keys ih =>
    unfold devSign at h
    split_ifs at h with haddress
    · exact ⟨secret, List.mem_cons_self, haddress, h⟩
    · obtain ⟨secret', hmem, hsigned⟩ := ih h
      exact ⟨secret', List.mem_cons_of_mem _ hmem, hsigned⟩

theorem signBy_ok {message : TransactionMessage} {«from» : H160} {transaction : Transaction}
    (signers : List EthSigner) (h : signBy message «from» signers = .ok transaction) :
    ∃ signer ∈ signers, «from» ∈ signer.accounts ∧ signer.sign message «from» = .ok transaction := by
  induction signers with
  | nil => cases h
  | cons signer signers ih =>
    unfold signBy at h
    split_ifs at h with haccount
    · exact ⟨signer, List.mem_cons_self, haccount, h⟩
    · obtain ⟨signer', hmem, hsigned⟩ := ih h
      exact ⟨signer', List.mem_cons_of_mem _ hmem, hsigned⟩

/-! ## Requests -/

/-- What has been signed for a request. -/
theorem requestTransaction_ok {signers : List EthSigner} {count : H160 → Except RpcFailure U256}
    {chain : Except String UInt64} {request : TransactionRequest} {transaction : Transaction}
    (h : requestTransaction signers count chain request = .ok transaction) :
    ∃ «from» nonce chainId, request.sender signers = .ok «from» ∧
      request.nonce.elim (count «from») .ok = .ok nonce ∧ chain = .ok chainId ∧
      signBy (request.message nonce (some chainId)) «from» signers = .ok transaction := by
  unfold requestTransaction at h
  cases hsender : request.sender signers with
  | error e => simp only [hsender, reduceCtorEq] at h
  | ok «from» =>
    simp only [hsender] at h
    cases hnonce : request.nonce.elim (count «from») .ok with
    | error e => simp only [hnonce, reduceCtorEq] at h
    | ok nonce =>
      simp only [hnonce] at h
      cases chain with
      | error e => simp only [chainId, reduceCtorEq] at h
      | ok id =>
        simp only [chainId] at h
        exact ⟨«from», nonce, id, rfl, hnonce, rfl, h⟩

section Pool

variable {S AccountId M : Type} {rt : Runtime S AccountId M}

/-- What the pool checks of a transaction with a known signer and the chain id of the runtime. -/
theorem validateUnsigned_iff {transaction : Transaction} {st : State (Evm.World S)} {origin : H160}
    (hsigner : recoverSigner rt.ethereum transaction = some origin)
    (hchain : ids.signatureChainId transaction.signature = some ids.chainId) :
    (∃ valid, validateUnsigned rt ids (.transact transaction) st = .ok valid) ↔
      (Evm.accountBasic rt.evm st.world origin).nonce ≤ transaction.nonce ∧
        transaction.value.val + transaction.gasPrice.val * transaction.gasLimit.val ≤
          (Evm.accountBasic rt.evm st.world origin).balance.val ∧
        rt.evm.minGasPrice st.world ≤ transaction.gasPrice := by
  have hbalance : (Evm.accountBasic rt.evm st.world origin).balance.val < 2 ^ 128 :=
    Evm.accountBasic_balance_lt st.world origin
  constructor
  · rintro ⟨valid, h⟩
    obtain ⟨origin', hsigner', hnonce, hpay, hprice, -, -⟩ := validateUnsigned_ok h
    obtain rfl : origin' = origin := Option.some.inj (hsigner'.symm.trans hsigner)
    exact ⟨hnonce, payment_of_saturating hbalance hpay, hprice⟩
  · rintro ⟨hnonce, hpay, hprice⟩
    have hids : ((ids.signatureChainId transaction.signature).any
        fun chainId => decide (chainId ≠ ids.chainId)) = false := by
      rw [hchain]
      simp
    -- a payment that a balance covers does not saturate
    have hcovered : ¬ (Evm.accountBasic rt.evm st.world origin).balance <
        transaction.value.saturatingAdd (transaction.gasPrice.saturatingMul transaction.gasLimit) := by
      refine not_lt.2 ?_
      show min (transaction.value.val + min (transaction.gasPrice.val * transaction.gasLimit.val)
        (2 ^ 256 - 1)) (2 ^ 256 - 1) ≤ _
      omega
    unfold validateUnsigned
    simp only [hids, Bool.false_eq_true, if_false, hsigner, not_lt.2 hnonce, hcovered, not_lt.2 hprice]
    exact ⟨_, rfl⟩

variable (hlaws : SigningLaws crates rt.ethereum ids)
include hlaws

/-- A transaction that the signers for development have signed for a request is one of the account that
sends it, and the pool finds it valid exactly if this account can afford it. -/
theorem requestTransaction_signed {keyrings : List (List K)} {count : H160 → Except RpcFailure U256}
    {request : TransactionRequest} {transaction : Transaction} (hchain : SignableChain ids.chainId)
    (h : requestTransaction (keyrings.map (ethDevSigner crates)) count (.ok ids.chainId) request =
      .ok transaction) :
    ∃ «from» nonce, request.sender (keyrings.map (ethDevSigner crates)) = .ok «from» ∧
      request.nonce.elim (count «from») .ok = .ok nonce ∧ transaction.nonce = nonce ∧
      recoverSigner rt.ethereum transaction = some «from» ∧
      ∀ st : State (Evm.World S),
        (∃ valid, validateUnsigned rt ids (.transact transaction) st = .ok valid) ↔
          Affordable rt st request «from» nonce := by
  obtain ⟨«from», nonce, chainId, hsender, hnonce, hok, hsigned⟩ := requestTransaction_ok h
  obtain rfl := Except.ok.inj hok
  obtain ⟨signer, hsigner, -, hsign⟩ := signBy_ok _ hsigned
  obtain ⟨keys, -, rfl⟩ := List.mem_map.1 hsigner
  obtain ⟨secret, -, haddress, hwith⟩ := devSign_ok keys hsign
  obtain ⟨hrecover, hcarried, hnonce', hprice, hgas, -, hvalue, -⟩ := signWith_ok hlaws hchain rfl hwith
  rw [haddress] at hrecover
  refine ⟨«from», nonce, hsender, hnonce, hnonce', hrecover, fun st => ?_⟩
  rw [validateUnsigned_iff hrecover hcarried, hnonce', hprice, hgas, hvalue]
  exact ⟨fun ⟨h₁, h₂, h₃⟩ => ⟨h₁, h₂, h₃⟩, fun h => ⟨h.nonce, h.payment, h.price⟩⟩

omit hlaws in
/-- No account can afford the gas of a request that does not limit it, at any price. -/
theorem not_affordable {request : TransactionRequest} (hgas : request.gas = none)
    (hpositive : request.gasPrice ≠ some 0) (st : State (Evm.World S)) («from» : H160) (nonce : U256) :
    ¬ Affordable rt st request «from» nonce := by
  intro h
  have hpay := h.payment
  have hbalance : (Evm.accountBasic rt.evm st.world «from»).balance.val < 2 ^ 128 :=
    Evm.accountBasic_balance_lt st.world «from»
  -- the default for the gas is the largest `U256`
  have hmax : (request.gas.getD (Fin.last _)).val = 2 ^ 256 - 1 := by
    rw [hgas]
    rfl
  have hprice : 1 ≤ (request.gasPrice.getD 1).val := by
    cases hcase : request.gasPrice with
    | none => exact le_refl 1
    | some price =>
      rw [hcase] at hpositive
      refine Nat.one_le_iff_ne_zero.2 fun hzero => hpositive ?_
      rw [Option.some.injEq]
      exact Fin.ext hzero
  have hproduct : 2 ^ 256 - 1 ≤ (request.gasPrice.getD 1).val * (request.gas.getD (Fin.last _)).val := by
    rw [hmax]
    exact Nat.le_mul_of_pos_left _ hprice
  omega

/-- **Sending.** `send_transaction` fails without a trace, or it submits a transaction that the runtime
takes as one of the account that sends it. The pool finds it valid exactly if this account can afford what
the request asks for, and never if the request does not limit the gas, unless its price is zero. -/
theorem sent_transaction {Hash : Type} [DecidableEq Hash] {codec : BlockCodec} {api : ChainApi Hash}
    {accountBasic : BlockId Hash → H160 → Except String Evm.Account} {pool : ReadyPool}
    {keyrings : List (List K)} {number : UInt32} {answer : Transaction → Except String Unit}
    {request : TransactionRequest} {pending pending' : PendingTransactions}
    {response : Except RpcFailure H256} (hchain : SignableChain ids.chainId)
    (h : sendTransaction codec api accountBasic pool (keyrings.map (ethDevSigner crates))
      (.ok ids.chainId) number answer request pending = (response, pending')) :
    (∃ e, response = .error e ∧ pending' = pending) ∨
      ∃ transaction «from», submitted codec transaction number (answer transaction) pending =
          (response, pending') ∧
        request.sender (keyrings.map (ethDevSigner crates)) = .ok «from» ∧
        request.nonce.elim (transactionCount api accountBasic pool «from» none) .ok =
          .ok transaction.nonce ∧
        recoverSigner rt.ethereum transaction = some «from» ∧
        ∀ st : State (Evm.World S),
          ((∃ valid, validateUnsigned rt ids (.transact transaction) st = .ok valid) ↔
            Affordable rt st request «from» transaction.nonce) ∧
          (request.gas = none → request.gasPrice ≠ some 0 →
            ¬ Affordable rt st request «from» transaction.nonce) := by
  unfold sendTransaction at h
  dsimp only at h
  cases hrequest : requestTransaction (keyrings.map (ethDevSigner crates))
      (fun address => transactionCount api accountBasic pool address none) (.ok ids.chainId) request with
  | error e =>
    simp only [hrequest, Prod.mk.injEq] at h
    exact .inl ⟨e, h.1.symm, h.2.symm⟩
  | ok transaction =>
    simp only [hrequest] at h
    obtain ⟨«from», nonce, hsender, hnonce, rfl, hrecover, hiff⟩ :=
      requestTransaction_signed hlaws hchain hrequest
    exact .inr ⟨transaction, «from», h, hsender, hnonce, hrecover,
      fun st => ⟨hiff st, fun hgas hpositive => not_affordable hgas hpositive st «from» _⟩⟩

end Pool

theorem soleCrates_laws : SigningLaws soleCrates soleRuntime.ethereum ledgerChainIds where
  newSignature := fun _ _ _ _ h => (Option.some.inj h).symm
  recid := fun _ _ => .inr rfl
  recover := fun _ _ => rfl
  keccak256 := rfl
  standardV := fun _ h => if_pos (.inr (.inr h))
  signatureChainId := fun _ => rfl
  messageHash := fun _ => rfl

/-- The nonce of the account is `3`, and the pool takes the transaction. -/
theorem sent_transaction_sole :
    ∃ transaction, (sendTransaction smallCodec lineChainApi
        (fun _ a => .ok (Evm.accountBasic Evm.ledgerConfig (bareWorld (soleAccount 3 0)) a))
        interleavedPool [ethDevSigner soleCrates [()]] (.ok 888) 2 (fun _ => .ok ()) soleRequest ∅).1 =
          .ok (smallCodec.hashing.transactionHash transaction) ∧
      transaction.nonce = 3 ∧ recoverSigner soleRuntime.ethereum transaction = some caller ∧
      ∀ st, (∃ valid, validateUnsigned soleRuntime ledgerChainIds (.transact transaction) st =
        .ok valid) ↔ Affordable soleRuntime st soleRequest caller 3 := by
  obtain ⟨response, pending', hsent⟩ : ∃ response pending', sendTransaction smallCodec lineChainApi
    (fun _ a => .ok (Evm.accountBasic Evm.ledgerConfig (bareWorld (soleAccount 3 0)) a))
    interleavedPool ([[()]].map (ethDevSigner soleCrates)) (.ok 888) 2 (fun _ => .ok ()) soleRequest
      ∅ = (response, pending') := ⟨_, _, rfl⟩
  rcases sent_transaction soleCrates_laws ⟨by decide, by decide⟩ hsent with
    ⟨e, rfl, -⟩ | ⟨transaction, «from», hsubmitted, hsender, hnonce, hrecover, hvalid⟩
  · cases hsent
  · obtain rfl : caller = «from» := Except.ok.inj hsender
    have hnonce' : transaction.nonce = 3 := (Except.ok.inj hnonce).symm
    refine ⟨transaction, ?_, hnonce', hrecover, fun st => ?_⟩
    · have hresponse : response = .ok (smallCodec.hashing.transactionHash transaction) :=
        (Prod.mk.inj hsubmitted).1.symm
      exact (congrArg Prod.fst hsent).trans hresponse
    · rw [← hnonce']
      exact (hvalid st).1

end Shadows.Rpc

import Shadows.Foundations.Pursuit
import Shadows.Rpc.TransactionCount
import Shadows.Rpc.Proofs.OverrideProofs
import Shadows.Evm.Proofs.RunnerProofs
import Shadows.Ethereum.Proofs.ValidationProofs

/-!
# Proofs: the pending nonce

The loop over the pool is a pass with a moving target, the tag of the next nonce of the account. The
order of the pool makes one pass enough.
-/

namespace Shadows

open Foundations

theorem H160.asBytes_injective : Function.Injective H160.asBytes :=
  fun a b h => BitVec.eq_of_toNat_eq (bigEndian_inj (w := 20) a.isLt b.isLt h)

theorem U256.toLittleEndian_injective : Function.Injective U256.toLittleEndian := by
  intro m n h
  rw [m.toLittleEndian_eq, n.toLittleEndian_eq, List.reverse_inj] at h
  exact Fin.ext (bigEndian_inj (w := 32) m.isLt n.isLt h)

theorem U256.val_saturatingAdd_one {n : U256} (h : n.val + 1 < 2 ^ 256) :
    (n.saturatingAdd 1).val = n.val + 1 := by
  show min (n.val + 1) (2 ^ 256 - 1) = n.val + 1
  omega

namespace Rpc

open Ethereum

/-! ## Tags -/

theorem encodeTag_injective : Function.Injective encodeTag := by
  rintro ⟨a, m⟩ ⟨b, n⟩ h
  have hlen : a.asBytes.length = b.asBytes.length := by
    rw [H160.length_asBytes, H160.length_asBytes]
  obtain ⟨haddress, hnonce⟩ := List.append_inj h hlen
  exact Prod.ext (H160.asBytes_injective haddress) (U256.toLittleEndian_injective hnonce)

/-- The tag that the loop waits for behind another one. -/
def nextTag (tag : H160 × U256) : H160 × U256 := (tag.1, tag.2.saturatingAdd 1)

theorem iterate_nextTag (address : H160) (nonce : U256) (j : ℕ) (h : nonce.val + j < 2 ^ 256) :
    nextTag^[j] (address, nonce) = (address, ⟨nonce.val + j, h⟩) := by
  induction j with
  | zero => rfl
  | succ j ih =>
    rw [Function.iterate_succ_apply', ih (by omega)]
    refine Prod.ext rfl (Fin.ext ?_)
    exact U256.val_saturatingAdd_one h

/-! ## The loop -/

theorem visit_start {tx : PoolTransaction} {tag : H160 × U256}
    (h : tx.provides[0]? = some (encodeTag tag)) (address : H160) (nonce : U256) :
    (PendingCount.start address nonce).visit address tx =
      .start address (pursueStep nextTag (address, nonce) tag).2 := by
  unfold PendingCount.visit pursueStep
  rw [h]
  by_cases htag : tag = (address, nonce)
  · rw [if_pos htag, htag, PendingCount.start, if_pos rfl]
    rfl
  · have hne : some (encodeTag tag) ≠ some (PendingCount.start address nonce).currentTag :=
      fun he => htag (encodeTag_injective (Option.some.inj he))
    rw [if_neg htag, if_neg hne]

theorem fst_pursueStep (target tag : H160 × U256) :
    (pursueStep nextTag target tag).1 = target.1 := by
  unfold pursueStep
  split_ifs <;> rfl

/-- The loop waits for the tags of the account, one after the other. -/
theorem foldl_visit {ready : List PoolTransaction} {tags : List (H160 × U256)}
    (h : ProvidesTags ready tags) (address : H160) (nonce : U256) :
    (ready.foldl (PendingCount.visit address) (.start address nonce)).currentNonce =
      (pursue nextTag (address, nonce) tags).2 := by
  induction h generalizing nonce with
  | nil => rfl
  | @cons tx tag ready tags hhead _ ih =>
    have htarget : pursueStep nextTag (address, nonce) tag =
        (address, (pursueStep nextTag (address, nonce) tag).2) :=
      Prod.ext (fst_pursueStep _ _) rfl
    rw [List.foldl_cons, visit_start hhead, ih, pursue, pursue, List.foldl_cons, htarget]

/-! ## The order of the pool -/

section Ordered

variable {nonce : H160 → U256} {tags : List (H160 × U256)} {address : H160}

/-- The tags of an account stand one behind the other, from the nonce of the account on. -/
theorem NonceOrdered.successive (h : NonceOrdered nonce tags)
    (hlt : (nonce address).val + tags.length < 2 ^ 256) :
    Successive nextTag (address, nonce address) tags := by
  intro before x after htags j hj hx
  rw [iterate_nextTag address (nonce address) (j + 1) (by omega)] at hx
  rw [iterate_nextTag address (nonce address) j (by omega)]
  subst hx
  refine h before _ after htags ?_ _ rfl
  show (nonce address).val < (nonce address).val + (j + 1)
  omega

theorem NonceOrdered.nil : NonceOrdered nonce [] := by
  intro before tag after htags
  exact absurd htags.symm (List.append_ne_nil_of_right_ne_nil _ (List.cons_ne_nil _ _))

/-- The pool stays ordered if a transaction is put behind the one with the nonce before it. -/
theorem NonceOrdered.append_singleton {tag : H160 × U256} (h : NonceOrdered nonce tags)
    (htag : nonce tag.1 < tag.2 →
      ∀ previous : U256, previous.val + 1 = tag.2.val → (tag.1, previous) ∈ tags) :
    NonceOrdered nonce (tags ++ [tag]) := by
  intro before tag' after htags hlt previous hprevious
  rcases List.eq_nil_or_concat' after with rfl | ⟨after, last, rfl⟩
  · obtain ⟨rfl, hlast⟩ := List.append_inj' htags rfl
    obtain rfl : tag = tag' := List.singleton_inj.1 hlast
    exact htag hlt previous hprevious
  · rw [← List.cons_append, ← List.append_assoc] at htags
    obtain ⟨hbefore, -⟩ := List.append_inj' htags rfl
    exact h before tag' after hbefore hlt previous hprevious

theorem iterate_nextTag_ne {start : U256} (hlt : start.val + tags.length < 2 ^ 256) :
    ∀ j < tags.length, nextTag^[j + 1] (address, start) ≠ nextTag^[j] (address, start) := by
  intro j hj he
  rw [iterate_nextTag address start (j + 1) (by omega),
    iterate_nextTag address start j (by omega)] at he
  have hval : start.val + (j + 1) = start.val + j := congrArg (fun tag => tag.2.val) he
  omega

theorem hasNonces_of_containsFirst {start : U256} {k : ℕ} (hlt : start.val + k < 2 ^ 256)
    (h : ContainsFirst nextTag (address, start) tags k) : HasNonces tags address start k := by
  intro j hj
  have hmem := h j hj
  rw [iterate_nextTag address start j (by omega)] at hmem
  exact ⟨_, rfl, hmem⟩

theorem HasNonces.containsFirst {start : U256} {k : ℕ} (h : HasNonces tags address start k) :
    ContainsFirst nextTag (address, start) tags k := by
  intro j hj
  obtain ⟨n, hn, hmem⟩ := h j hj
  have hlt := n.isLt
  have heq : n = ⟨start.val + j, by omega⟩ := Fin.ext hn
  rw [iterate_nextTag address start j (by omega), ← heq]
  exact hmem

/-- The loop counts the run of nonces that the pool goes on with. -/
theorem pendingCount_spec {ready : List PoolTransaction} (address : H160)
    (hprovides : ProvidesTags ready tags)
    (hordered : NonceOrdered nonce tags) (hlt : (nonce address).val + tags.length < 2 ^ 256) :
    ∃ k, (ready.foldl (PendingCount.visit address)
        (.start address (nonce address))).currentNonce.val = (nonce address).val + k ∧
      IsGreatest {k | HasNonces tags address (nonce address) k} k := by
  obtain ⟨k, hk, hpursue, hfirst, hgreatest⟩ :=
    exists_isGreatest_pursue (hordered.successive hlt) (iterate_nextTag_ne hlt)
  refine ⟨k, ?_, hasNonces_of_containsFirst (by omega) hfirst,
    fun m hm => hgreatest hm.containsFirst⟩
  rw [foldl_visit hprovides, hpursue, iterate_nextTag _ _ _ (by omega)]

end Ordered

/-! ## Validated transactions -/

section Validated

variable {S AccountId M : Type} {rt : Runtime S AccountId M} {ids : ChainIds}
  {st : State (Evm.World S)} {valids : List ValidTransaction}

/-- The tags of `validate_unsigned` are those that the loop waits for. -/
theorem ReadySequence.providesTags (h : ReadySequence rt ids st valids) :
    ProvidesTags (valids.map poolTransaction) (valids.flatMap ValidTransaction.provides) := by
  induction h with
  | empty => exact List.Forall₂.nil
  | @ready valids transaction valid _ hvalid _ ih =>
    obtain ⟨origin, -, -, -, -, hprovides, -⟩ := validateUnsigned_ok hvalid
    rw [List.map_append, List.flatMap_append, List.map_singleton, List.flatMap_singleton, hprovides]
    refine List.rel_append ih (List.Forall₂.cons ?_ List.Forall₂.nil)
    rw [poolTransaction, hprovides]
    rfl

theorem ReadySequence.nonceOrdered (h : ReadySequence rt ids st valids) :
    NonceOrdered (fun a => (Evm.accountBasic rt.evm st.world a).nonce)
      (valids.flatMap ValidTransaction.provides) := by
  induction h with
  | empty => exact .nil
  | @ready valids transaction valid _ hvalid hrequired ih =>
    obtain ⟨origin, -, -, -, -, hprovides, hrequires⟩ := validateUnsigned_ok hvalid
    rw [List.flatMap_append, List.flatMap_singleton, hprovides]
    refine ih.append_singleton fun hlt previous hprevious => hrequired _ ?_
    obtain ⟨previous', hprevious', hrequires⟩ := hrequires hlt
    have hprevious : previous.val + 1 = transaction.nonce.val := hprevious
    have heq : previous = previous' := Fin.ext (by omega)
    rw [hrequires, heq]
    exact List.mem_singleton_self _

end Validated

/-! ## The count -/

section Count

variable {Hash : Type} [DecidableEq Hash] {S AccountId : Type} (cfg : Evm.Config S AccountId)
  (world : Evm.World S) (chain : ChainApi Hash)
  (accountBasic : BlockId Hash → H160 → Except String Evm.Account) (pool : ReadyPool)
  (address : H160)

theorem transactionCount_of_account {account : Evm.Account}
    (h : accountBasic (.hash chain.bestHash) address = .ok account) :
    transactionCount chain accountBasic pool address (some .pending) =
      .ok (pool.ready.foldl (PendingCount.visit address)
        (.start address account.nonce)).currentNonce := by
  unfold transactionCount
  rw [if_pos rfl, h]

/-- The nonce of an account and the transactions of a pool fit into a `U256`. -/
theorem nonce_add_length_lt {tags : List (H160 × U256)} (hprovides : ProvidesTags pool.ready tags) :
    (Evm.accountBasic cfg world address).nonce.val + tags.length < 2 ^ 256 := by
  have hlength : tags.length < 2 ^ 64 := by
    rw [← hprovides.length_eq]
    exact pool.length_lt
  have hnonce : (Evm.accountBasic cfg world address).nonce.val < 2 ^ 32 := by
    rw [Evm.accountBasic_nonce rfl]
    exact UInt32.toNat_lt _
  omega

/-- **The pending nonce.** For an account with the nonce `N`, `transaction_count` answers with
`N + k` for the largest `k` such that the nonces `N`, …, `N + k - 1` of the account are in the
pool. -/
theorem transactionCount_pending
    (hruntime : ∀ a, accountBasic (.hash chain.bestHash) a = .ok (Evm.accountBasic cfg world a))
    (tags : List (H160 × U256)) (hprovides : ProvidesTags pool.ready tags)
    (hordered : NonceOrdered (fun a => (Evm.accountBasic cfg world a).nonce) tags) :
    ∃ count k, transactionCount chain accountBasic pool address (some .pending) = .ok count ∧
      count.val = (Evm.accountBasic cfg world address).nonce.val + k ∧
      IsGreatest {k | HasNonces tags address (Evm.accountBasic cfg world address).nonce k} k := by
  obtain ⟨k, hcount, hgreatest⟩ := pendingCount_spec address hprovides hordered
    (nonce_add_length_lt cfg world pool address hprovides)
  exact ⟨_, k, transactionCount_of_account chain accountBasic pool address (hruntime address),
    hcount, hgreatest⟩

theorem transactionCount_pending_interleaved :
    ∃ count k, transactionCount lineChainApi (fun _ a => .ok (Evm.accountBasic Evm.ledgerConfig
        (bareWorld (soleAccount 1 0)) a)) interleavedPool caller (some .pending) = .ok count ∧
      count.val = (Evm.accountBasic Evm.ledgerConfig (bareWorld (soleAccount 1 0)) caller).nonce.val
        + k ∧
      IsGreatest {k | HasNonces interleavedTags caller
        (Evm.accountBasic Evm.ledgerConfig (bareWorld (soleAccount 1 0)) caller).nonce k} k := by
  have hordered : NonceOrdered (fun a =>
      (Evm.accountBasic Evm.ledgerConfig (bareWorld (soleAccount 1 0)) a).nonce)
      interleavedTags := by
    refine ((((NonceOrdered.nil.append_singleton ?_).append_singleton ?_).append_singleton
      ?_).append_singleton ?_).append_singleton ?_
    · exact fun hlt => absurd hlt (by decide)
    · exact fun hlt => absurd hlt (by decide)
    · exact fun hlt => absurd hlt (by decide)
    · intro _ previous hprevious
      obtain rfl : previous = 0 := Fin.ext (Nat.succ.inj hprevious)
      decide
    · intro _ previous hprevious
      obtain rfl : previous = 1 := Fin.ext (Nat.succ.inj hprevious)
      decide
  exact transactionCount_pending Evm.ledgerConfig _ lineChainApi _ interleavedPool caller
    (fun _ => rfl) interleavedTags (List.forall₂_map_left_iff.2 (List.forall₂_same.2
      fun _ _ => rfl)) hordered

/-- The pending nonce in a pool of validated transactions. -/
theorem transactionCount_validated {M : Type} {rt : Runtime S AccountId M} {ids : ChainIds}
    {st : State (Evm.World S)} {valids : List ValidTransaction}
    (hruntime : ∀ a, accountBasic (.hash chain.bestHash) a =
      .ok (Evm.accountBasic rt.evm st.world a))
    (hready : pool.ready = valids.map poolTransaction) (h : ReadySequence rt ids st valids) :
    ∃ count k, transactionCount chain accountBasic pool address (some .pending) = .ok count ∧
      count.val = (Evm.accountBasic rt.evm st.world address).nonce.val + k ∧
      IsGreatest {k | HasNonces (valids.flatMap ValidTransaction.provides) address
        (Evm.accountBasic rt.evm st.world address).nonce k} k := by
  have hprovides : ProvidesTags pool.ready (valids.flatMap ValidTransaction.provides) := by
    rw [hready]
    exact h.providesTags
  obtain ⟨k, hcount, hgreatest⟩ := pendingCount_spec address hprovides h.nonceOrdered
    (nonce_add_length_lt rt.evm st.world pool address hprovides)
  exact ⟨_, k, transactionCount_of_account chain accountBasic pool address (hruntime address),
    hcount, hgreatest⟩

end Count

end Rpc

end Shadows

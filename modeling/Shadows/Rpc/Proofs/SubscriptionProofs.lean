import Shadows.Rpc.Subscriptions
import Shadows.Ethereum.Proofs.AssemblyProofs
import Shadows.Rpc.Proofs.LogsProofs
import Shadows.Rpc.Proofs.ReceiptProofs
import Mathlib.Data.List.Chain
import Mathlib.Data.List.Forall2

/-!
# Proofs: subscriptions

A subscription to heads, logs or pending transactions does not change from event to event, so that what it
sends is what it sends at each event. The one to the sync status sends what differs from the status that
it has sent last.
-/

namespace Shadows.Rpc

open Ethereum

variable {codec : BlockCodec}

/-! ## Runs of a subscription -/

theorem run_of_receive {subscription : Subscription} {out : ClientEvent → List PubSubResult}
    (events : List ClientEvent)
    (hreceive : ∀ event ∈ events, subscription.receive codec event = some (out event, subscription)) :
    subscription.run codec events = some (events.flatMap out) := by
  induction events with
  | nil => rfl
  | cons event events ih =>
    obtain ⟨hevent, hevents⟩ := List.forall_mem_cons.1 hreceive
    unfold Subscription.run
    simp only [hevent, Option.bind_some, ih hevents, Option.map_some, List.flatMap_cons]

/-- What is sent at the events that are selected. -/
theorem flatMap_selected {α β γ : Type} (select : α → Option β) (out : β → List γ) (events : List α) :
    (events.flatMap fun event => ((select event).map out).getD []) =
      (events.filterMap select).flatMap out := by
  induction events with
  | nil => rfl
  | cons event events ih =>
    rw [List.flatMap_cons, ih]
    cases hselect : select event with
    | none => rw [List.filterMap_cons_none hselect]; rfl
    | some selected => rw [List.filterMap_cons_some hselect]; rfl

/-! ## The sync status -/

theorem receive_syncing (params : FilteredParams) (previous : Bool) (event : ClientEvent) :
    Subscription.receive codec ⟨.syncing, params, previous⟩ event =
      match event.syncing with
      | none => some ([], ⟨.syncing, params, previous⟩)
      | some syncing =>
        if previous = syncing then some ([], ⟨.syncing, params, previous⟩)
        else some ([.syncState syncing], ⟨.syncing, params, syncing⟩) := by
  cases event with
  | pendingChanged changes => rfl
  | imported notification =>
    unfold Subscription.receive ClientEvent.syncing receiveSyncing
    by_cases hbest : notification.isNewBest = true
    · by_cases hsame : previous = notification.isMajorSyncing
      · simp [hbest, hsame]
      · simp [hbest, hsame]
    · simp [hbest]

/-- **Sync status.** A subscription to the sync status sends only changes, and has always sent the status
at the last new best block, unless it is the one that the subscription has started with. -/
theorem syncing_alternates (codec : BlockCodec) (params : Option SubscriptionParams)
    (isMajorSyncing : Bool) (events : List ClientEvent) :
    ∃ statuses : List Bool, (subscribe .syncing params isMajorSyncing).run codec events =
        some (statuses.map .syncState) ∧
      List.IsChain (· ≠ ·) (isMajorSyncing :: statuses) ∧
      statuses.getLastD isMajorSyncing =
        (events.filterMap ClientEvent.syncing).getLastD isMajorSyncing := by
  have hrun : ∀ (params : FilteredParams) (previous : Bool), ∃ statuses : List Bool,
      Subscription.run codec ⟨.syncing, params, previous⟩ events = some (statuses.map .syncState) ∧
        List.IsChain (· ≠ ·) (previous :: statuses) ∧
        statuses.getLastD previous = (events.filterMap ClientEvent.syncing).getLastD previous := by
    intro params
    induction events with
    | nil => exact fun previous => ⟨[], rfl, .singleton previous, rfl⟩
    | cons event events ih =>
      intro previous
      unfold Subscription.run
      rw [receive_syncing]
      cases hevent : event.syncing with
      | none =>
        obtain ⟨statuses, hrest, hchain, hlast⟩ := ih previous
        refine ⟨statuses, ?_, hchain, ?_⟩
        · simp only [Option.bind_some, hrest, Option.map_some, List.nil_append]
        · rw [hlast, List.filterMap_cons_none hevent]
      | some syncing =>
        rw [List.filterMap_cons_some hevent]
        by_cases hsame : previous = syncing
        · obtain ⟨statuses, hrest, hchain, hlast⟩ := ih previous
          refine ⟨statuses, ?_, hchain, ?_⟩
          · simp only [hsame, if_true, Option.bind_some, List.nil_append]
            rw [← hsame, hrest]
            rfl
          · rw [hlast, List.getLastD_cons, hsame]
        · obtain ⟨statuses, hrest, hchain, hlast⟩ := ih syncing
          refine ⟨syncing :: statuses, ?_, .cons_cons hsame hchain, ?_⟩
          · simp only [hsame, if_false, Option.bind_some, hrest, Option.map_some, List.singleton_append,
              List.map_cons]
          · rw [List.getLastD_cons, hlast, List.getLastD_cons]
  exact hrun _ isMajorSyncing

/-! ## The states of a chain -/

section Chain

variable {W : Type} {cfg : Config W}

/-- The block and the receipts that a state of a chain has stored. -/
structure Stores (cfg : Config W) (st : State W) (stored : Block × List Receipt) : Prop where
  currentBlock : st.currentBlock = some stored.1
  currentReceipts : st.currentReceipts = some stored.2
  pending : st.pending.map (fun entry => entry.1) = stored.1.transactions
  aligned : ∃ statuses, BlockAligned cfg.hashing stored.1 stored.2 statuses

/-- A block that is run on top of another one stores its successor. -/
theorem runBlock_stores {input : BlockInput W} {st st' : State W} {accepted : List Transaction}
    {parent : Block} (hparent : st.currentBlock = some parent) (hdigest : NoPreLog input.digest)
    (h : runBlock cfg input st = some (accepted, st')) :
    st'.blockNumber = st.blockNumber + 1 ∧ ∃ stored, Stores cfg st' stored ∧
      stored.1.header.parentHash = cfg.hashing.headerHash parent.header ∧
      stored.1.header.number = .ofU32 (st.blockNumber + 1) := by
  obtain ⟨mid, hbody, hfin⟩ := runBlock_cases h
  obtain ⟨-, hnumber, hcurrent, hmap, hal⟩ := runBody_spec hdigest hbody
  obtain ⟨block, receipts, statuses, hassembled⟩ :=
    assembled_of_finalize (hcurrent.trans hparent) hmap hal hfin
  obtain ⟨gasUsed, -, rfl⟩ := storeBlock_eq_some hfin
  refine ⟨hnumber, (block, receipts), ⟨hassembled.currentBlock, hassembled.currentReceipts, ?_,
    statuses, blockAligned_of_assembled hassembled⟩, hassembled.parentHash, ?_⟩
  · exact hmap.trans hassembled.transactions.symm
  · rw [hassembled.number, ← hnumber]

/-- Every block that is reached is stored. -/
theorem Reached.stores {st : State W} (h : Reached cfg st) : ∃ stored, Stores cfg st stored := by
  cases h with
  | genesis world timestamp _ hstore =>
    obtain ⟨block, receipts, statuses, hblock, hreceipts, -, hstored⟩ :=
      Reached.storedBlock (.genesis world timestamp st hstore)
    obtain ⟨gasUsed, -, rfl⟩ := storeBlock_eq_some hstore
    refine ⟨(block, receipts), hblock, hreceipts, ?_, statuses, hstored.toBlockAligned⟩
    exact (congrArg Block.transactions (Option.some.inj hblock))
  | block before _ input accepted hbefore hdigest hrun =>
    obtain ⟨parent, receipts, statuses, hparent, -⟩ := Reached.storedBlock hbefore
    obtain ⟨-, stored, hstores, -⟩ := runBlock_stores hparent hdigest hrun
    exact ⟨stored, hstores⟩

/-- The blocks of a chain are stored one after the other, linked and numbered. -/
theorem chainStates_stored (inputs : List (BlockInput W)) :
    ∀ {st : State W} {parent : Block} {states : List (State W)}, st.currentBlock = some parent →
      (∀ input ∈ inputs, NoPreLog input.digest) → chainStates cfg inputs st = some states →
        ∃ stored : List (Block × List Receipt), List.Forall₂ (Stores cfg) states stored ∧
          List.IsChain (fun block block' : Block =>
            block'.header.parentHash = cfg.hashing.headerHash block.header)
              (parent :: stored.map fun entry => entry.1) ∧
          ∀ (i : ℕ) (entry : Block × List Receipt), stored[i]? = some entry →
            entry.1.header.number = .ofU32 (st.blockNumber + 1 + .ofNat i) := by
  induction inputs with
  | nil =>
    intro st parent states _ _ h
    obtain rfl := Option.some.inj h
    exact ⟨[], .nil, .singleton parent, fun i entry hi => by simp at hi⟩
  | cons input rest ih =>
    intro st parent states hparent hdigest h
    obtain ⟨hinput, hrest⟩ := List.forall_mem_cons.1 hdigest
    simp only [chainStates, Option.bind_eq_some_iff, Option.map_eq_some_iff, Prod.exists] at h
    obtain ⟨accepted, mid, hblock, states', hstates, rfl⟩ := h
    obtain ⟨hnumber, entry, hstores, hlink, hfirst⟩ := runBlock_stores hparent hinput hblock
    obtain ⟨stored, hall, hlinked, hnumbered⟩ := ih hstores.currentBlock hrest hstates
    refine ⟨entry :: stored, .cons hstores hall, .cons_cons hlink hlinked, fun i entry' hi => ?_⟩
    cases i with
    | zero =>
      obtain rfl := Option.some.inj hi
      rw [hfirst]
      exact congrArg U256.ofU32 (UInt32.add_zero _).symm
    | succ i =>
      have hnext := hnumbered i entry' hi
      rw [hnumber] at hnext
      rw [hnext, UInt32.ofNat_add]
      congr 1
      rw [UInt32.add_comm (UInt32.ofNat i) _, ← UInt32.add_assoc]
      rfl

theorem chainStates_reached (inputs : List (BlockInput W)) :
    ∀ {st : State W} {states : List (State W)}, Reached cfg st →
      (∀ input ∈ inputs, NoPreLog input.digest) → chainStates cfg inputs st = some states →
        ∀ st' ∈ states, Reached cfg st' := by
  induction inputs with
  | nil =>
    intro st states _ _ h
    obtain rfl := Option.some.inj h
    exact fun _ => nofun
  | cons input rest ih =>
    intro st states hst hdigest h
    obtain ⟨hinput, hrest⟩ := List.forall_mem_cons.1 hdigest
    simp only [chainStates, Option.bind_eq_some_iff, Option.map_eq_some_iff, Prod.exists] at h
    obtain ⟨accepted, mid, hblock, states', hstates, rfl⟩ := h
    have hmid : Reached cfg mid := .block st mid input accepted hst hinput hblock
    exact List.forall_mem_cons.2 ⟨hmid, ih hmid hrest hstates⟩

/-! ## What is sent of a chain -/

variable {states imported : List (State W)} {stored : List (Block × List Receipt)}
  {events : List ClientEvent}

/-- What is selected of the notified states is selected of what they have stored. -/
theorem flatMap_stored {α γ : Type} {answer : State W → α} {out : α → List γ}
    {out' : Block × List Receipt → List γ} (hall : List.Forall₂ (Stores cfg) states stored)
    (hout : ∀ st entry, Stores cfg st entry → out (answer st) = out' entry) :
    (states.map answer).flatMap out = stored.flatMap out' := by
  induction hall with
  | nil => rfl
  | cons hstores _ ih => rw [List.map_cons, List.flatMap_cons, List.flatMap_cons, ih, hout _ _ hstores]

/-- Every one of the states has stored a block and its receipts. -/
theorem stores_of_mem (hall : List.Forall₂ (Stores cfg) states stored) {st : State W}
    (hst : st ∈ states) : ∃ entry, Stores cfg st entry := by
  induction hall with
  | nil => exact absurd hst List.not_mem_nil
  | cons hstores _ ih =>
    obtain rfl | hrest := List.mem_cons.1 hst
    · exact ⟨_, hstores⟩
    · exact ih hrest

/-- A subscription that answers at the events that are selected sends what it answers about the blocks that
the notified states have stored. -/
theorem run_selected {α : Type} {subscription : Subscription} (select : ClientEvent → Option α)
    (answer : State W → α) (out : α → Option (List PubSubResult))
    (sent : Block × List Receipt → List PubSubResult)
    (hreceive : ∀ event, subscription.receive codec event =
      ((select event).elim (some []) out).map fun results => (results, subscription))
    (hselected : events.filterMap select = states.map answer)
    (hall : List.Forall₂ (Stores cfg) states stored)
    (hout : ∀ st entry, Stores cfg st entry → out (answer st) = some (sent entry)) :
    subscription.run codec events = some (stored.flatMap sent) := by
  have hrun : subscription.run codec events =
      some (events.flatMap fun event => ((select event).map fun a => (out a).getD []).getD []) := by
    refine run_of_receive events fun event hevent => ?_
    rw [hreceive]
    cases hselect : select event with
    | none => rfl
    | some a =>
      have hmem := List.mem_filterMap.2 ⟨event, hevent, hselect⟩
      rw [hselected] at hmem
      obtain ⟨st, hst, rfl⟩ := List.mem_map.1 hmem
      obtain ⟨entry, hstores⟩ := stores_of_mem hall hst
      simp only [Option.elim_some, Option.map_some, Option.getD_some, hout st entry hstores]
  have hsent : ∀ st entry, Stores cfg st entry → (out (answer st)).getD [] = sent entry := by
    intro st entry hstores
    rw [hout st entry hstores, Option.getD_some]
  rw [hrun, flatMap_selected, hselected, flatMap_stored hall hsent]

/-- At an import, a subscription to new best blocks looks at what the runtime API answers. -/
theorem elim_best {β : Type} (notification : ImportNotification) (default : β)
    (out : Except String (Option Block) × Except String (Option (List Receipt)) → β) :
    (ClientEvent.imported notification).best.elim default out =
      if notification.isNewBest then out (notification.currentBlock, notification.currentReceipts)
      else default := by
  simp only [ClientEvent.best]
  split_ifs
  · rfl
  · rfl

theorem run_heads (hnotified : Notified states imported events)
    (hall : List.Forall₂ (Stores cfg) states stored) (params : Option SubscriptionParams)
    (syncing : Bool) :
    (subscribe .newHeads params syncing).run codec events =
      some (stored.map fun entry => .header (newHeads codec entry.1)) := by
  rw [List.map_eq_flatMap]
  refine run_selected ClientEvent.best _
    (fun answer => some (receiveHeads codec ⟨true, answer.1, answer.2, syncing⟩)) _ (fun event => ?_)
    hnotified.best hall (fun st entry hstores => ?_)
  · cases event with
    | pendingChanged changes => rfl
    | imported notification =>
      rw [elim_best]
      unfold Subscription.receive receiveHeads
      by_cases hbest : notification.isNewBest = true
      · simp only [subscribe, hbest, if_true, Option.map_some]
      · simp only [subscribe, hbest, if_false, Option.map_some, Bool.false_eq_true]
  · simp only [receiveHeads, if_true, hstores.currentBlock]

/-- What is sent of a block's change of `Pending`. -/
theorem receivePending_change (entries : Entries) :
    receivePending codec [pendingChange entries] =
      some ((entries.map fun entry => entry.1).map fun transaction =>
        .transactionHash (codec.hashing.transactionHash transaction)) := by
  cases entries with
  | nil => rfl
  | cons entry entries => rfl

theorem run_pending (hnotified : Notified states imported events)
    (hall : List.Forall₂ (Stores cfg) imported stored) (params : Option SubscriptionParams)
    (syncing : Bool) :
    (subscribe .newPendingTransactions params syncing).run codec events =
      some ((stored.flatMap fun entry => entry.1.transactions).map fun transaction =>
        .transactionHash (codec.hashing.transactionHash transaction)) := by
  rw [List.map_flatMap]
  refine run_selected ClientEvent.changes _ (receivePending codec) _ (fun event => ?_)
    hnotified.changes hall (fun st entry hstores => ?_)
  · cases event with
    | imported notification => rfl
    | pendingChanged changes => rfl
  · rw [receivePending_change, hstores.pending]

theorem run_logs (hhashing : codec.hashing = cfg.hashing) {filter : Filter}
    (hfrom : filter.fromBlock = none) (hto : filter.toBlock = none) (hhash : filter.blockHash = none)
    (hnotified : Notified states imported events) (hall : List.Forall₂ (Stores cfg) states stored)
    (syncing : Bool) :
    (subscribe .logs (some (.logs filter)) syncing).run codec events =
      some ((stored.flatMap (acceptedLogs codec.hashing filter)).map fun log => .log log.numbered) := by
  rw [List.map_flatMap]
  refine run_selected ClientEvent.best _
    (fun answer => receiveLogs codec (.new (some filter)) ⟨true, answer.1, answer.2, syncing⟩) _
    (fun event => ?_) hnotified.best hall (fun st entry hstores => ?_)
  · cases event with
    | pendingChanged changes => rfl
    | imported notification =>
      rw [elim_best]
      unfold Subscription.receive receiveLogs
      by_cases hbest : notification.isNewBest = true
      · simp only [subscribe, hbest, if_true]
      · simp only [subscribe, hbest, if_false, Option.map_some, Bool.false_eq_true]
  · obtain ⟨statuses, haligned⟩ := hstores.aligned
    have hpushed := subscriptionLogs_eq (hhashing ▸ haligned) hfrom hto hhash
    simp only [receiveLogs, if_true, hstores.currentBlock, hstores.currentReceipts, hpushed,
      Option.map_some, acceptedLogs, List.map_map]
    rfl

/-- **Subscriptions.** When a chain is imported block by block, subscribers to heads get the header of
every block, once and in order, and subscribers to logs what their filter accepts of the logs of these
blocks, each with its place in its block except that the index of its transaction is its own number; other
blocks that are imported meanwhile are not seen. Subscribers to pending transactions get the transactions
of all imported blocks. No stream panics. -/
theorem subscribed_chain {filter : Filter} {inputs : List (BlockInput W)} {st : State W} {parent : Block}
    (hhashing : codec.hashing = cfg.hashing) (hfrom : filter.fromBlock = none)
    (hto : filter.toBlock = none) (hhash : filter.blockHash = none)
    (hparent : st.currentBlock = some parent) (hdigest : ∀ input ∈ inputs, NoPreLog input.digest)
    (hstates : chainStates cfg inputs st = some states) (himported : ∀ st ∈ imported, Reached cfg st)
    (hnotified : Notified states imported events) :
    ∃ stored others : List (Block × List Receipt), List.Forall₂ (Stores cfg) states stored ∧
      List.Forall₂ (Stores cfg) imported others ∧
      Subscribed codec filter parent st.blockNumber stored others events := by
  obtain ⟨stored, hall, hlinked, hnumbered⟩ := chainStates_stored inputs hparent hdigest hstates
  obtain ⟨others, hothers⟩ : ∃ others, List.Forall₂ (Stores cfg) imported others := by
    clear hnotified
    induction imported with
    | nil => exact ⟨[], .nil⟩
    | cons st imported ih =>
      obtain ⟨hst, himported⟩ := List.forall_mem_cons.1 himported
      obtain ⟨entry, hstores⟩ := Reached.stores hst
      obtain ⟨others, hothers⟩ := ih himported
      exact ⟨entry :: others, .cons hstores hothers⟩
  rw [← hhashing] at hlinked
  refine ⟨stored, others, hall, hothers, hlinked, hnumbered, ?_, ?_, ?_⟩
  · exact fun params syncing => run_heads hnotified hall params syncing
  · exact fun params syncing => run_pending hnotified hothers params syncing
  · exact fun syncing => run_logs hhashing hfrom hto hhash hnotified hall syncing

end Chain

theorem forkEvents_notified :
    Notified callsThenNoneStates (oneCallState :: callsThenNoneStates) forkEvents where
  best := by
    unfold forkEvents
    rw [List.filterMap_append, List.filterMap_flatMap, List.map_eq_flatMap]
    rfl
  changes := by
    unfold forkEvents
    rw [List.filterMap_append, List.filterMap_flatMap, List.map_cons, List.map_eq_flatMap]
    rfl

theorem subscribed_chain_threeCalls :
    ∃ stored others : List (Block × List Receipt),
      List.Forall₂ (Stores countingConfig) callsThenNoneStates stored ∧
      List.Forall₂ (Stores countingConfig) (oneCallState :: callsThenNoneStates) others ∧
      Subscribed smallCodec anyLog (buildBlock countingConfig (genesisState 0 0) 0)
        countingGenesis.blockNumber stored others forkEvents := by
  have hparent : countingGenesis.currentBlock =
      some (buildBlock countingConfig (genesisState 0 0) 0) := rfl
  have hdigest : ∀ input ∈ callsThenNone, NoPreLog input.digest := by
    intro input hinput
    obtain rfl | rfl : input = threeCalls ∨ input = ⟨[], 12, []⟩ := by
      simpa [callsThenNone] using hinput
    · exact fun _ => nofun
    · exact fun _ => nofun
  have hstates : chainStates countingConfig callsThenNone countingGenesis = some callsThenNoneStates :=
    rfl
  have hempty : NoPreLog [] := fun _ => nofun
  have hone : runBlock countingConfig ⟨[], 6, [.transact (callWithNonce 0)]⟩ countingGenesis =
      some ([callWithNonce 0], oneCallState) := rfl
  have himported : ∀ st ∈ oneCallState :: callsThenNoneStates, Reached countingConfig st :=
    List.forall_mem_cons.2 ⟨.block _ _ _ _ countingGenesis_reached hempty hone,
      chainStates_reached callsThenNone countingGenesis_reached hdigest hstates⟩
  exact subscribed_chain rfl rfl rfl rfl hparent hdigest hstates himported forkEvents_notified

end Shadows.Rpc

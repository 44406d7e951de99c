import Shadows.MappingSync.Proofs.SelectTipProofs

/-!
# Proofs: when a batch does what single calls do

A call that syncs a block adds to the block mapping, and no call takes anything away from it. So the
calls that the batch leaves out change nothing exactly if none of them has anything to sync and the
tips are empty already.
-/

namespace Shadows.MappingSync

open Db Consensus

variable {Hash : Type} {hashing : Hashing}

/-! ## Writing the mapping -/

theorem metadataChanges_ok_iff {db : Database Hash} {c : MappingCommitment Hash} (txs : List H256) :
    ∀ i, (∃ changes, MappingDb.metadataChanges db c i txs = .ok changes) ↔
      ∀ t ∈ txs, ∃ metadata, MappingDb.transactionMetadata db t = .ok metadata := by
  induction txs with
  | nil => exact fun i => iff_of_true ⟨[], rfl⟩ nofun
  | cons t rest ih =>
    intro i
    rw [List.forall_mem_cons, ← ih (i + 1), MappingDb.metadataChanges]
    cases hmetadata : MappingDb.transactionMetadata db t with
    | error e => simp
    | ok metadata =>
      cases hchanges : MappingDb.metadataChanges db c (i + 1) rest with
      | error e => simp
      | ok changes => simp

/-- The changes of the loop are to the transaction mapping. -/
theorem metadataChanges_transaction {db : Database Hash} {c : MappingCommitment Hash}
    (txs : List H256) : ∀ {i : ℕ} {changes : List (Change Hash)},
    MappingDb.metadataChanges db c i txs = .ok changes →
      ∀ change ∈ changes, ∃ t metadata, change = .transaction t metadata := by
  induction txs with
  | nil =>
    intro i changes h
    obtain rfl : [] = changes := Except.ok.inj h
    exact nofun
  | cons t rest ih =>
    intro i changes h
    rw [MappingDb.metadataChanges] at h
    cases hmetadata : MappingDb.transactionMetadata db t with
    | error e => simp [hmetadata] at h
    | ok metadata =>
      cases hrest : MappingDb.metadataChanges db c (i + 1) rest with
      | error e => simp [hmetadata, hrest] at h
      | ok changes' =>
        simp only [hmetadata, hrest, Except.ok.injEq] at h
        subst h
        exact List.forall_mem_cons.2 ⟨⟨t, _, rfl⟩, ih hrest⟩

variable [DecidableEq Hash]

theorem foldl_set_blockMapping {changes : List (Change Hash)}
    (h : ∀ change ∈ changes, ∃ t metadata, change = .transaction t metadata) :
    ∀ db : Database Hash, (changes.foldl Database.set db).blockMapping = db.blockMapping := by
  induction changes with
  | nil => exact fun _ => rfl
  | cons change rest ih =>
    intro db
    obtain ⟨⟨t, metadata, rfl⟩, hrest⟩ := List.forall_mem_cons.1 h
    rw [List.foldl_cons, ih hrest]
    rfl

theorem writeHashes_ok_iff {outcome : Except String Unit} {c : MappingCommitment Hash}
    {db : Database Hash} :
    (MappingDb.writeHashes outcome c db).1 = .ok () ↔ Extends c db ∧ outcome = .ok () := by
  unfold MappingDb.writeHashes Extends
  rw [← metadataChanges_ok_iff (c := c) _ 0]
  cases hhashes : MappingDb.blockHashes db c.ethereumBlockHash with
  | error e => simp
  | ok hashes =>
    cases hchanges : MappingDb.metadataChanges db c 0 c.ethereumTransactionHashes with
    | error e => simp
    | ok changes => cases outcome <;> simp [Database.commit]

/-- A successful `write_hashes` maps one more block. -/
theorem mappedBlocks_writeHashes {outcome : Except String Unit} {c : MappingCommitment Hash}
    {db db' : Database Hash} (h : MappingDb.writeHashes outcome c db = (.ok (), db')) :
    mappedBlocks db' c.ethereumBlockHash = mappedBlocks db c.ethereumBlockHash + 1 ∧
      ∀ key, key ≠ c.ethereumBlockHash → mappedBlocks db' key = mappedBlocks db key := by
  unfold MappingDb.writeHashes at h
  cases hhashes : MappingDb.blockHashes db c.ethereumBlockHash with
  | error e => simp [hhashes] at h
  | ok hashes =>
    cases hchanges : MappingDb.metadataChanges db c 0 c.ethereumTransactionHashes with
    | error e => simp [hhashes, hchanges] at h
    | ok changes =>
      cases outcome with
      | error e => simp [hhashes, hchanges, Database.commit] at h
      | ok _ =>
        simp only [hhashes, hchanges, Database.commit, List.foldl_cons, List.foldl_append,
          List.foldl_nil, Prod.mk.injEq, true_and] at h
        have hblocks : db'.blockMapping = Function.update db.blockMapping c.ethereumBlockHash
            (some (.encoded (hashes ++ [c.blockHash]))) := by
          rw [← h]
          exact foldl_set_blockMapping (metadataChanges_transaction _ hchanges) _
        constructor
        · unfold mappedBlocks
          rw [hhashes]
          simp [MappingDb.blockHashes, hblocks]
        · intro key hkey
          unfold mappedBlocks MappingDb.blockHashes
          rw [hblocks, Function.update_of_ne hkey]

/-! ## Operating on a tip -/

theorem operate_of_read {client : Client Hash} {commits : Commits} {b : Hash} {tips : List Hash}
    {db : Database Hash} {header : SubstrateHeader Hash} {c : MappingCommitment Hash}
    (hheader : client.header b = .ok (some header))
    (hread : readCommitment hashing client header = some c) :
    operate hashing client commits b tips db =
      match MappingDb.writeHashes commits.hashes c db with
      | (.error e, db) => (.error e, db)
      | (.ok (), db) =>
        match MetaDb.writeCurrentSyncingTips commits.tips (tipsLeft header tips) db with
        | (.error e, db) => (.error e, db)
        | (.ok (), db) => (.ok true, db) := by
  unfold operate tipsLeft
  unfold readCommitment at hread
  simp only [hheader]
  by_cases hzero : header.number = 0
  · simp only [if_pos hzero] at hread ⊢
    unfold syncGenesisBlock
    cases hblock : client.currentBlock header.hash with
    | error e => simp [hblock] at hread
    | ok block =>
      cases block with
      | none => simp [hblock] at hread
      | some block =>
        simp only [hblock, Option.some.injEq] at hread
        subst hread
        rfl
  · simp only [if_neg hzero] at hread ⊢
    unfold syncBlock
    cases hlog : findLog header.digest with
    | error e => simp [hlog] at hread
    | ok log =>
      simp only [hlog, Option.some.injEq] at hread
      subst hread
      rfl

theorem operate_of_unread {client : Client Hash} (commits : Commits) {b : Hash} (tips : List Hash)
    (db : Database Hash) {header : SubstrateHeader Hash}
    (hheader : client.header b = .ok (some header))
    (hread : readCommitment hashing client header = none) :
    ∃ e, operate hashing client commits b tips db = (.error e, db) := by
  unfold operate
  unfold readCommitment at hread
  simp only [hheader]
  by_cases hzero : header.number = 0
  · simp only [if_pos hzero] at hread ⊢
    unfold syncGenesisBlock
    cases hblock : client.currentBlock header.hash with
    | error e => exact ⟨e, rfl⟩
    | ok block =>
      cases block with
      | none => exact ⟨_, rfl⟩
      | some block => simp [hblock] at hread
  · simp only [if_neg hzero] at hread ⊢
    unfold syncBlock
    cases hlog : findLog header.digest with
    | error e => exact ⟨_, rfl⟩
    | ok log => simp [hlog] at hread

/-- What has happened if the second half of `sync_one_block` returns `Ok`. -/
theorem operate_ok {client : Client Hash} {commits : Commits} {b : Hash} {tips : List Hash}
    {db db' : Database Hash} {synced : Bool}
    (h : operate hashing client commits b tips db = (.ok synced, db')) :
    synced = true ∧ ∃ header c mid, client.header b = .ok (some header) ∧
      readCommitment hashing client header = some c ∧
      MappingDb.writeHashes commits.hashes c db = (.ok (), mid) ∧ commits.tips = .ok () ∧
      db' = { mid with currentSyncingTips := some (.encoded (tipsLeft header tips)) } := by
  cases hheader : client.header b with
  | error e => simp [operate, hheader] at h
  | ok header =>
    cases header with
    | none => simp [operate, hheader] at h
    | some header =>
      cases hread : readCommitment hashing client header with
      | none =>
        obtain ⟨e, herror⟩ := operate_of_unread commits tips db hheader hread
        rw [herror] at h
        simp at h
      | some c =>
        rw [operate_of_read hheader hread] at h
        cases hwrite : MappingDb.writeHashes commits.hashes c db with
        | mk outcome mid =>
          cases outcome with
          | error e => simp [hwrite] at h
          | ok _ =>
            simp only [hwrite] at h
            cases htips : commits.tips with
            | error e => simp [htips, MetaDb.writeCurrentSyncingTips, Database.commit] at h
            | ok _ =>
              simp only [htips, MetaDb.writeCurrentSyncingTips, Database.commit, List.foldl_cons,
                List.foldl_nil, Prod.mk.injEq, Except.ok.injEq] at h
              exact ⟨h.1.symm, header, c, mid, rfl, hread, hwrite, rfl, h.2.symm⟩

/-! ## Whole calls -/

/-- The database after a call that finds nothing to sync. -/
def afterIdle (stack : List Hash) (db : Database Hash) : Database Hash :=
  if stack = [] then db else { db with currentSyncingTips := some (.encoded []) }

theorem syncOneBlock_idle {it : Iteration Hash} {db : Database Hash} {stack : List Hash}
    (hstack : PopsFrom it.client db stack) (hall : ∀ b ∈ stack, Synced db b)
    (hcommit : stack = [] ∨ it.commits.tips = .ok ()) :
    syncOneBlock hashing it.client it.commits db = (.ok false, afterIdle stack db) := by
  unfold syncOneBlock afterIdle
  by_cases hne : stack = []
  · rw [hne] at hstack
    rw [selectTip_nothing_iff.2 hstack, if_pos hne]
  · have htips := hcommit.resolve_left hne
    rw [selectTip_exhausted_iff.2 ⟨stack, hstack, hne, hall⟩, if_neg hne, htips]
    rfl

theorem syncOneBlock_false_iff (hashing : Hashing) (it : Iteration Hash) (db : Database Hash) :
    (syncOneBlock hashing it.client it.commits db).1 = .ok false ↔ Idle it db := by
  constructor
  · intro h
    unfold syncOneBlock at h
    cases hselect : selectTip it.client db with
    | error e => simp [hselect] at h
    | ok selection =>
      cases selection with
      | nothing =>
        exact ⟨[], selectTip_nothing_iff.1 hselect, nofun, Or.inl rfl⟩
      | exhausted =>
        obtain ⟨stack, hstack, -, hall⟩ := selectTip_exhausted_iff.1 hselect
        refine ⟨stack, hstack, hall, Or.inr ?_⟩
        cases htips : it.commits.tips with
        | error e =>
          simp [hselect, htips, MetaDb.writeCurrentSyncingTips, Database.commit] at h
        | ok _ => rfl
      | operate b rest =>
        simp only [hselect] at h
        have htrue := (operate_ok (Prod.ext h rfl)).1
        exact absurd htrue Bool.false_ne_true
  · rintro ⟨stack, hstack, hall, hcommit⟩
    rw [syncOneBlock_idle hstack hall hcommit]

/-- What a call that syncs a block does. -/
theorem syncOneBlock_synced {it : Iteration Hash} {db db' : Database Hash}
    (h : syncOneBlock hashing it.client it.commits db = (.ok true, db')) :
    SyncsBlock hashing it db ∧ (∃ tips, db'.currentSyncingTips = some (.encoded tips)) ∧
      (∃ key, mappedBlocks db key < mappedBlocks db' key) ∧
      ∀ key, mappedBlocks db key ≤ mappedBlocks db' key := by
  unfold syncOneBlock at h
  cases hselect : selectTip it.client db with
  | error e => simp [hselect] at h
  | ok selection =>
    cases selection with
    | nothing => simp [hselect] at h
    | exhausted =>
      cases htips : it.commits.tips with
      | error e => simp [hselect, htips, MetaDb.writeCurrentSyncingTips, Database.commit] at h
      | ok _ => simp [hselect, htips, MetaDb.writeCurrentSyncingTips, Database.commit] at h
    | operate b rest =>
      simp only [hselect] at h
      obtain ⟨dropped, hstack, hdropped, hb⟩ := selectTip_operate_iff.1 hselect
      obtain ⟨-, header, c, mid, hheader, hread, hwrite, htips, rfl⟩ := operate_ok h
      obtain ⟨hextends, hhashes⟩ := writeHashes_ok_iff.1 (congrArg Prod.fst hwrite)
      obtain ⟨hmore, hsame⟩ := mappedBlocks_writeHashes hwrite
      refine ⟨⟨rest, b, dropped, header, c, hstack, hdropped, hb, hheader, hread, hextends,
        hhashes, htips⟩, ⟨_, rfl⟩, ⟨c.ethereumBlockHash, ?_⟩, fun key => ?_⟩
      · show mappedBlocks db _ < mappedBlocks mid _
        omega
      · show mappedBlocks db _ ≤ mappedBlocks mid _
        by_cases hkey : key = c.ethereumBlockHash
        · rw [hkey]
          omega
        · exact le_of_eq (hsame key hkey).symm

theorem syncOneBlock_true_iff (hashing : Hashing) (it : Iteration Hash) (db : Database Hash) :
    (syncOneBlock hashing it.client it.commits db).1 = .ok true ↔ SyncsBlock hashing it db := by
  constructor
  · exact fun h => (syncOneBlock_synced (Prod.ext h rfl)).1
  · rintro ⟨rest, b, dropped, header, c, hstack, hdropped, hb, hheader, hread, hextends, hhashes,
      htips⟩
    have hselect := selectTip_operate_iff.2 ⟨dropped, hstack, hdropped, hb⟩
    have hok := writeHashes_ok_iff.2 ⟨hextends, hhashes⟩
    unfold syncOneBlock
    simp only [hselect]
    rw [operate_of_read hheader hread]
    cases hwrite : MappingDb.writeHashes it.commits.hashes c db with
    | mk outcome mid =>
      rw [hwrite] at hok
      obtain rfl : outcome = .ok () := hok
      simp only [htips, MetaDb.writeCurrentSyncingTips, Database.commit]

theorem syncOneBlock_mappedBlocks {it : Iteration Hash} {db db' : Database Hash} {synced : Bool}
    (h : syncOneBlock hashing it.client it.commits db = (.ok synced, db')) (key : H256) :
    mappedBlocks db key ≤ mappedBlocks db' key := by
  cases synced with
  | true => exact (syncOneBlock_synced h).2.2.2 key
  | false =>
    obtain ⟨stack, hstack, hall, hcommit⟩ := (syncOneBlock_false_iff ..).1 (congrArg Prod.fst h)
    rw [syncOneBlock_idle hstack hall hcommit, Prod.mk.injEq] at h
    obtain ⟨-, rfl⟩ := h
    unfold afterIdle
    split_ifs <;> exact le_refl _

/-! ## Calls in succession -/

theorem syncOneByOne_cons {it : Iteration Hash} {its : List (Iteration Hash)}
    {db db' : Database Hash} {results : List Bool}
    (h : syncOneByOne hashing (it :: its) db = (.ok results, db')) :
    ∃ synced mid rest, syncOneBlock hashing it.client it.commits db = (.ok synced, mid) ∧
      syncOneByOne hashing its mid = (.ok rest, db') ∧ results = synced :: rest := by
  rw [syncOneByOne] at h
  cases hcall : syncOneBlock hashing it.client it.commits db with
  | mk outcome mid =>
    cases outcome with
    | error e => simp [hcall] at h
    | ok synced =>
      cases hrest : syncOneByOne hashing its mid with
      | mk outcome' last =>
        cases outcome' with
        | error e => simp [hcall, hrest, Except.map] at h
        | ok rest =>
          simp only [hcall, hrest, Except.map, Prod.mk.injEq, Except.ok.injEq] at h
          obtain ⟨rfl, rfl⟩ := h
          exact ⟨synced, mid, rest, rfl, hrest, rfl⟩

/-- The block mapping grows if one of the calls syncs a block, and it never shrinks. -/
theorem syncOneByOne_mappedBlocks {its : List (Iteration Hash)} :
    ∀ {db db' : Database Hash} {results : List Bool},
      syncOneByOne hashing its db = (.ok results, db') →
        (∀ key, mappedBlocks db key ≤ mappedBlocks db' key) ∧
          (true ∈ results → ∃ key, mappedBlocks db key < mappedBlocks db' key) := by
  induction its with
  | nil =>
    intro db db' results h
    simp only [syncOneByOne, Prod.mk.injEq, Except.ok.injEq] at h
    obtain ⟨rfl, rfl⟩ := h
    exact ⟨fun _ => le_refl _, nofun⟩
  | cons it its ih =>
    intro db db' results h
    obtain ⟨synced, mid, rest, hcall, hrest, rfl⟩ := syncOneByOne_cons h
    obtain ⟨hle, hlt⟩ := ih hrest
    have hfirst := syncOneBlock_mappedBlocks hcall
    refine ⟨fun key => (hfirst key).trans (hle key), fun hmem => ?_⟩
    rcases List.mem_cons.1 hmem with rfl | hmem
    · obtain ⟨key, hkey⟩ := (syncOneBlock_synced hcall).2.2.1
      exact ⟨key, lt_of_lt_of_le hkey (hle key)⟩
    · obtain ⟨key, hkey⟩ := hlt hmem
      exact ⟨key, lt_of_le_of_lt (hfirst key) hkey⟩

/-- Without tips, a call that finds nothing to sync leaves the database as it is. -/
theorem syncOneBlock_tipless {it : Iteration Hash} {db : Database Hash}
    (htips : db.currentSyncingTips = some (.encoded [])) (h : Idle it db) :
    syncOneBlock hashing it.client it.commits db = (.ok false, db) := by
  obtain ⟨stack, hstack, hall, hcommit⟩ := h
  rw [syncOneBlock_idle hstack hall hcommit]
  unfold afterIdle
  split_ifs
  · rfl
  · rw [← htips]

theorem syncOneByOne_tipless {its : List (Iteration Hash)} {db : Database Hash}
    (htips : db.currentSyncingTips = some (.encoded [])) (h : ∀ it ∈ its, Idle it db) :
    syncOneByOne hashing its db = (.ok (List.replicate its.length false), db) := by
  induction its with
  | nil => rfl
  | cons it its ih =>
    obtain ⟨hit, hits⟩ := List.forall_mem_cons.1 h
    rw [syncOneByOne, syncOneBlock_tipless htips hit]
    simp only [ih hits]
    rfl

theorem none_synced {synced : Bool} {rest : List Bool} (h : true ∉ synced :: rest) :
    synced = false ∧ true ∉ rest := by
  obtain ⟨hsynced, hrest⟩ := not_or.1 (mt List.mem_cons.2 h)
  exact ⟨Bool.eq_false_iff.2 (Ne.symm hsynced), hrest⟩

/-- Calls without tips that sync nothing. -/
theorem tipless_of_idle {its : List (Iteration Hash)} :
    ∀ {db db' : Database Hash} {results : List Bool},
      db.currentSyncingTips = some (.encoded []) →
        syncOneByOne hashing its db = (.ok results, db') → true ∉ results →
          db' = db ∧ ∀ it ∈ its, Idle it db := by
  induction its with
  | nil =>
    intro db db' results _ h _
    simp only [syncOneByOne, Prod.mk.injEq] at h
    exact ⟨h.2.symm, nofun⟩
  | cons it its ih =>
    intro db db' results htips h hnone
    obtain ⟨synced, mid, rest, hcall, hrest, rfl⟩ := syncOneByOne_cons h
    obtain ⟨rfl, hlater⟩ := none_synced hnone
    have hidle := (syncOneBlock_false_iff ..).1 (congrArg Prod.fst hcall)
    rw [syncOneBlock_tipless htips hidle, Prod.mk.injEq] at hcall
    obtain ⟨-, rfl⟩ := hcall
    obtain ⟨hdb, hall⟩ := ih htips hrest hlater
    exact ⟨hdb, List.forall_mem_cons.2 ⟨hidle, hall⟩⟩

/-- A first call that syncs nothing persists that there are no tips, so calls that change nothing
find none. -/
theorem tips_eq_nil_of_idle {it : Iteration Hash} {its : List (Iteration Hash)} {db : Database Hash}
    {tips : List Hash} {results : List Bool} (htips : db.currentSyncingTips = some (.encoded tips))
    (h : syncOneByOne hashing (it :: its) db = (.ok results, db)) (hnone : true ∉ results) :
    tips = [] := by
  by_contra hne
  obtain ⟨synced, mid, rest, hcall, hrest, rfl⟩ := syncOneByOne_cons h
  obtain ⟨rfl, hlater⟩ := none_synced hnone
  obtain ⟨stack, hstack, hall, hcommit⟩ :=
    (syncOneBlock_false_iff ..).1 (congrArg Prod.fst hcall)
  rw [syncOneBlock_idle hstack hall hcommit, Prod.mk.injEq] at hcall
  obtain ⟨-, rfl⟩ := hcall
  have hread : MetaDb.currentSyncingTips db = .ok tips := by
    unfold MetaDb.currentSyncingTips
    rw [htips]
    rfl
  have hpops : PopsFrom it.client db tips := by
    refine ⟨tips, hread, ?_⟩
    rw [if_neg (mt List.isEmpty_iff.1 hne)]
  obtain rfl := hstack.unique hpops
  have hcleared : (afterIdle stack db).currentSyncingTips = some (.encoded []) := by
    unfold afterIdle
    rw [if_neg hne]
  have hsame := (tipless_of_idle hcleared hrest hlater).1
  rw [← hsame, htips, Option.some.injEq, Raw.encoded.injEq] at hcleared
  exact hne hcleared

/-- Calls after the tips have been persisted change nothing exactly if there are no tips and none of
the calls has anything to sync. -/
theorem syncOneByOne_unchanged_iff (hashing : Hashing) (its : List (Iteration Hash)) {db : Database Hash}
    {tips : List Hash} (htips : db.currentSyncingTips = some (.encoded tips)) :
    (∃ results, syncOneByOne hashing its db = (.ok results, db)) ↔
      ∀ it ∈ its, MetaDb.currentSyncingTips db = .ok [] ∧ Idle it db := by
  have hread : MetaDb.currentSyncingTips db = .ok tips := by
    unfold MetaDb.currentSyncingTips
    rw [htips]
    rfl
  constructor
  · rintro ⟨results, h⟩
    have hnone : true ∉ results := by
      intro hmem
      obtain ⟨key, hkey⟩ := (syncOneByOne_mappedBlocks h).2 hmem
      exact lt_irrefl _ hkey
    cases its with
    | nil => exact nofun
    | cons it its =>
      by_cases hempty : tips = []
      · rw [hempty] at htips hread
        have hall := (tipless_of_idle htips h hnone).2
        exact fun it' hit' => ⟨hread, hall it' hit'⟩
      · exact absurd (tips_eq_nil_of_idle htips h hnone) hempty
  · intro h
    cases its with
    | nil => exact ⟨[], rfl⟩
    | cons it its =>
      have hempty := (h it List.mem_cons_self).1
      rw [hread, Except.ok.injEq] at hempty
      rw [hempty] at htips
      exact ⟨_, syncOneByOne_tipless htips fun it' hit' => (h it' hit').2⟩

/-! ## Batches -/

@[simp] theorem syncBlocksLoop_true (its : List (Iteration Hash)) (db : Database Hash) :
    syncBlocksLoop hashing its true db = (.ok true, db) := by
  induction its with
  | nil => rfl
  | cons it its ih => exact ih

/-- **Batches.** A batch agrees with its calls in succession exactly if they have one block to sync
between them. -/
theorem batchAgrees_iff (hashing : Hashing) (its : List (Iteration Hash)) :
    ∀ db : Database Hash, BatchAgrees hashing its db ↔ OneToSync hashing its db := by
  induction its with
  | nil => exact fun db => iff_of_true rfl trivial
  | cons it its ih =>
    intro db
    have hidle := syncOneBlock_false_iff hashing it db
    have hsyncs := syncOneBlock_true_iff hashing it db
    rw [OneToSync, ← hidle, ← hsyncs]
    unfold BatchAgrees syncBlocks
    rw [syncBlocksLoop, syncOneByOne]
    simp only [Bool.false_eq_true, if_false]
    cases hcall : syncOneBlock hashing it.client it.commits db with
    | mk outcome mid =>
      cases outcome with
      | error e =>
        exact iff_of_true rfl ⟨nofun, nofun⟩
      | ok synced =>
        cases hrest : syncOneByOne hashing its mid with
        | mk results last =>
          cases synced with
          | false =>
            have hagrees := ih mid
            unfold BatchAgrees syncBlocks at hagrees
            rw [hrest] at hagrees
            have hsame : (results.map (false :: ·)).map (fun rs => decide (true ∈ rs)) =
                results.map fun rs => decide (true ∈ rs) := by
              cases results <;> simp [Except.map]
            simp only [hrest, hsame]
            exact hagrees.trans ⟨fun h => ⟨fun _ => h, nofun⟩, fun h => h.1 trivial⟩
          | true =>
            obtain ⟨tips, htips⟩ := (syncOneBlock_synced hcall).2.1
            have hunchanged := syncOneByOne_unchanged_iff hashing its htips
            simp only [hrest, syncBlocksLoop_true]
            refine Iff.trans ?_ (hunchanged.trans ⟨fun h => ⟨nofun, fun _ => h⟩, fun h => h.2 trivial⟩)
            rw [hrest]
            cases results with
            | error e => simp [Except.map]
            | ok rs => simp [Except.map, eq_comm]

/-- Two calls on the chain of three blocks, each of which has a block to sync. -/
theorem lineIterations_disagree :
    ¬ BatchAgrees numberHashing lineIterations lineState.db := by
  intro h
  have hsynced := congrArg (fun out => MappingDb.isSynced out.2 1) h
  revert hsynced
  decide

end Shadows.MappingSync

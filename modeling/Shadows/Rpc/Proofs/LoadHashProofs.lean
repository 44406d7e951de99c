import Shadows.Rpc.Lookup
import Shadows.Db.Proofs.ContentsProofs

/-!
# Proofs: `load_hash` on a mapping database

On the database of a list of written blocks `block_hashes` returns the written blocks with the given
Ethereum hash, and `is_canon` keeps those on the branch of the best block.
-/

namespace Shadows.Rpc

open Db MappingSync Foundations

/-- A filter that lets a single entry of a list without duplicates through. -/
theorem filter_eq_singleton {α : Type} {l : List α} (hnd : l.Nodup) {p : α → Bool} {a : α} :
    l.filter p = [a] ↔ (a ∈ l ∧ p a = true) ∧ ∀ b ∈ l, p b = true → b = a := by
  constructor
  · intro h
    have hmem : ∀ b, b ∈ l ∧ p b = true ↔ b = a := fun b => by
      rw [← List.mem_filter, h, List.mem_singleton]
    exact ⟨(hmem a).2 rfl, fun b hb hp => (hmem b).1 ⟨hb, hp⟩⟩
  · rintro ⟨ha, huniq⟩
    apply List.perm_singleton.1
    rw [List.perm_ext_iff_of_nodup (hnd.filter p) (List.nodup_singleton a)]
    intro b
    rw [List.mem_filter, List.mem_singleton]
    constructor
    · rintro ⟨hb, hp⟩
      exact huniq b hb hp
    · rintro rfl
      exact ha

variable {Hash : Type} [DecidableEq Hash] {hashing : Hashing} {chain : Chain Hash}

/-- `load_hash` fails exactly if the entry of the hash cannot be decoded. -/
theorem loadHash_ok_iff (client : HeaderBackend Hash) (db : Database Hash) (hash : H256) :
    (∃ id, loadHash client db hash = .ok id) ↔
      ∃ hashes, MappingDb.blockHashes db hash = .ok hashes := by
  unfold loadHash
  cases MappingDb.blockHashes db hash with
  | error err => simp
  | ok hashes =>
    refine iff_of_true ?_ ⟨hashes, rfl⟩
    dsimp only
    split
    · exact ⟨_, rfl⟩
    · exact ⟨_, rfl⟩

theorem represents_mappingOf (ws : List Hash) :
    Represents (ws.map (chain.commitment hashing)) (mappingOf hashing chain ws) := by
  induction ws using List.reverseRecOn with
  | nil => exact represents_empty
  | append_singleton ws b ih =>
    obtain ⟨db', hw, hrep, -⟩ := ih.writeHashes (chain.commitment hashing b)
    have hmap : mappingOf hashing chain (ws ++ [b]) = db' := by
      unfold mappingOf at hw ⊢
      rw [List.foldl_append, List.foldl_cons, List.foldl_nil, hw]
    rw [hmap, List.map_append]
    exact hrep

theorem blockHashes_mappingOf (ws : List Hash) (e : H256) :
    MappingDb.blockHashes (mappingOf hashing chain ws) e =
      .ok (ws.filter fun b => (chain.hashes hashing b).blockHash = e) := by
  rw [(represents_mappingOf ws).blockHashes, List.filter_map, List.map_map]
  exact congrArg Except.ok (List.map_id _)

/-- A block of the tree passes `is_canon` exactly if it lies on the branch of the best block: the
header at its number is that of the one block of the branch with this number. -/
theorem isCanon_iff {client : HeaderBackend Hash} {tree : Finset Hash} {best : Hash}
    (hc : client.Serves chain tree best) {b : Hash} (hb : b ∈ tree) :
    isCanon client b = true ↔ chain.lineage.OnBranch best b := by
  unfold isCanon
  rw [hc.number b hb]
  constructor
  · intro h
    cases hh : client.headerByNumber (chain.header b).number with
    | error e => simp [hh] at h
    | ok o =>
      cases o with
      | none => simp [hh] at h
      | some header =>
        simp only [hh, decide_eq_true_eq] at h
        obtain ⟨c, hbranch, rfl⟩ := hc.onBranch _ header hh
        rw [chain.header_hash] at h
        exact h ▸ hbranch
  · intro h
    simp only [hc.canonical b h, chain.header_hash, decide_true]

/-- `load_hash` finds a block if it is the only canonical one among the written blocks with the
given Ethereum hash, and it finds nothing else. -/
theorem loadHash_eq_some_iff {client : HeaderBackend Hash} {tree : Finset Hash} {best : Hash}
    (hc : client.Serves chain tree best) {ws : List Hash} (hnd : ws.Nodup)
    (hsub : ∀ b ∈ ws, b ∈ tree) (e : H256) (b : Hash) :
    loadHash client (mappingOf hashing chain ws) e = .ok (some b) ↔
      (b ∈ ws ∧ chain.lineage.OnBranch best b ∧ (chain.hashes hashing b).blockHash = e) ∧
        ∀ c ∈ ws, chain.lineage.OnBranch best c → (chain.hashes hashing c).blockHash = e → c = b := by
  have hnd' : (ws.filter fun b => (chain.hashes hashing b).blockHash = e).Nodup := hnd.filter _
  have hfilter : loadHash client (mappingOf hashing chain ws) e = .ok (some b) ↔
      (ws.filter fun b => (chain.hashes hashing b).blockHash = e).filter (isCanon client) = [b] := by
    unfold loadHash
    rw [blockHashes_mappingOf]
    dsimp only
    generalize (ws.filter fun b => (chain.hashes hashing b).blockHash = e).filter
      (isCanon client) = l
    rcases l with _ | ⟨out, _ | ⟨other, rest⟩⟩
    · simp
    · simp
    · simp
  rw [hfilter, filter_eq_singleton hnd']
  simp only [List.mem_filter, decide_eq_true_eq]
  constructor
  · rintro ⟨⟨⟨hb, he⟩, hcanon⟩, huniq⟩
    refine ⟨⟨hb, (isCanon_iff hc (hsub b hb)).1 hcanon, he⟩, fun c hcw hbranch hce => ?_⟩
    exact huniq c ⟨hcw, hce⟩ ((isCanon_iff hc (hsub c hcw)).2 hbranch)
  · rintro ⟨⟨hb, hbranch, he⟩, huniq⟩
    refine ⟨⟨⟨hb, he⟩, (isCanon_iff hc (hsub b hb)).2 hbranch⟩, ?_⟩
    rintro c ⟨hcw, hce⟩ hcanon
    exact huniq c hcw ((isCanon_iff hc (hsub c hcw)).1 hcanon) hce

theorem exists_loadHash (hashing : Hashing) (chain : Chain Hash) (client : HeaderBackend Hash)
    (ws : List Hash) (e : H256) :
    ∃ r, loadHash client (mappingOf hashing chain ws) e = .ok r := by
  unfold loadHash
  rw [blockHashes_mappingOf]
  dsimp only
  split
  · exact ⟨_, rfl⟩
  · exact ⟨_, rfl⟩

end Shadows.Rpc

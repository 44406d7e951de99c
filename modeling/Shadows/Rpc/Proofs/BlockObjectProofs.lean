import Shadows.Rpc.BlockNumbers
import Mathlib.Data.List.Nodup
import Mathlib.Data.List.Perm.Basic

/-!
# Proofs: objects as block parameters

The entries of an object without a block number can be read in any order. A block number ends the
reading, and the entries behind it are left unread.
-/

namespace Shadows.Rpc

variable {formats : BlockNumberFormats} {entries entries' : List Entry} {entry : Entry}

/-! ## Entries without a block number -/

/-- What the loop of `visit_map` does with a valid entry that is no block number. -/
def MapVisit.read (formats : BlockNumberFormats) (visit : MapVisit) (entry : Entry) : MapVisit :=
  match entry.2 with
  | .str value =>
    match formats.readHash value with
    | .ok hash => { visit with blockHash := some hash }
    | .error _ => visit
  | .bool value => { visit with requireCanonical := value }
  | .other => visit

theorem read_blockHash {value : String} {hash : H256} (h : formats.readHash value = .ok hash)
    (visit : MapVisit) :
    visit.read formats ("blockHash", .str value) = { visit with blockHash := some hash } := by
  unfold MapVisit.read
  dsimp only
  rw [h]

theorem visitEntries_cons (hvalid : ValidEntry formats entry) (hkey : entry.1 ≠ "blockNumber")
    (visit : MapVisit) :
    visitEntries formats (entry :: entries) visit =
      visitEntries formats entries (visit.read formats entry) := by
  cases hvalid with
  | blockNumber value number h => exact absurd rfl hkey
  | blockHash value hash h =>
    rw [read_blockHash h, visitEntries, if_neg (by decide), if_pos rfl, EntryValue.asHash,
      EntryValue.asString, Except.bind, h]
    rfl
  | requireCanonical value =>
    rw [visitEntries, if_neg (by decide), if_neg (by decide), if_pos rfl]
    rfl

/-- The entries are valid, and there is no block number among them. -/
def Unnumbered (formats : BlockNumberFormats) (entries : List Entry) : Prop :=
  ∀ entry ∈ entries, ValidEntry formats entry ∧ entry.1 ≠ "blockNumber"

/-- The loop reads on behind entries without a block number. -/
theorem visitEntries_append (h : Unnumbered formats entries) :
    ∀ visit : MapVisit, visitEntries formats (entries ++ entries') visit =
      visitEntries formats entries' (entries.foldl (MapVisit.read formats) visit) := by
  induction entries with
  | nil => exact fun _ => rfl
  | cons entry entries ih =>
    intro visit
    obtain ⟨hvalid, hkey⟩ := h entry List.mem_cons_self
    rw [List.cons_append, visitEntries_cons hvalid hkey]
    exact ih (fun entry' hmem => h entry' (List.mem_cons_of_mem _ hmem)) _

theorem visitEntries_unnumbered (h : Unnumbered formats entries) (visit : MapVisit) :
    visitEntries formats entries visit =
      .ok (entries.foldl (MapVisit.read formats) visit, []) := by
  have happend : visitEntries formats (entries ++ []) visit =
      visitEntries formats [] (entries.foldl (MapVisit.read formats) visit) :=
    visitEntries_append h visit
  rw [List.append_nil] at happend
  exact happend

/-- Entries with different keys can be read in any order. -/
theorem read_comm {a b : Entry} (ha : ValidEntry formats a) (hb : ValidEntry formats b)
    (hak : a.1 ≠ "blockNumber") (hbk : b.1 ≠ "blockNumber") (hne : a.1 ≠ b.1) (visit : MapVisit) :
    (visit.read formats a).read formats b = (visit.read formats b).read formats a := by
  cases ha with
  | blockNumber value number h => exact absurd rfl hak
  | blockHash value hash h =>
    cases hb with
    | blockNumber value number h => exact absurd rfl hbk
    | blockHash value hash h => exact absurd rfl hne
    | requireCanonical value' =>
      rw [read_blockHash h, read_blockHash h]
      rfl
  | requireCanonical value =>
    cases hb with
    | blockNumber value number h => exact absurd rfl hbk
    | requireCanonical value' => exact absurd rfl hne
    | blockHash value' hash h =>
      rw [read_blockHash h, read_blockHash h]
      rfl

theorem visitMap_perm (h : Unnumbered formats entries) (hnodup : (entries.map Prod.fst).Nodup)
    (hperm : entries.Perm entries') : visitMap formats entries = visitMap formats entries' := by
  have h' : Unnumbered formats entries' := fun entry hmem => h entry (hperm.mem_iff.2 hmem)
  have hfold : entries.foldl (MapVisit.read formats) ⟨false, none, none⟩ =
      entries'.foldl (MapVisit.read formats) ⟨false, none, none⟩ := by
    refine hperm.foldl_eq' (fun a ha b hb visit => ?_) _
    by_cases hne : a.1 = b.1
    · rw [List.inj_on_of_nodup_map hnodup ha hb hne]
    · exact (read_comm (h a ha).1 (h b hb).1 (h a ha).2 (h b hb).2 hne visit)
  unfold visitMap
  rw [visitEntries_unnumbered h, visitEntries_unnumbered h', hfold]

/-! ## A block number -/

theorem visitEntries_blockNumber {value : String} {number : UInt64}
    (h : prefixedNumber formats value = .ok number) (visit : MapVisit) :
    visitEntries formats (("blockNumber", .str value) :: entries) visit =
      .ok ({ visit with blockNumber := some number }, entries) := by
  rw [visitEntries, if_pos rfl, EntryValue.asString, Except.bind, h]
  rfl

/-- A block number at the end is accepted. -/
theorem visitMap_number_last (h : Unnumbered formats entries) {value : String} {number : UInt64}
    (hnumber : prefixedNumber formats value = .ok number) :
    visitMap formats (entries ++ [("blockNumber", .str value)]) = .ok (.num number) := by
  unfold visitMap
  rw [visitEntries_append h, visitEntries_blockNumber hnumber]
  rfl

/-- A block number in front of another entry is refused. -/
theorem visitMap_number_first (hne : entries ≠ []) {value : String} {number : UInt64}
    (hnumber : prefixedNumber formats value = .ok number) :
    visitMap formats (("blockNumber", .str value) :: entries) = .error .unread := by
  unfold visitMap
  rw [visitEntries_blockNumber hnumber]
  show (if entries = [] then _ else _) = _
  rw [if_neg hne]

/-! ## The order of the entries -/

/-- An object with a block number is that entry and others, which are no block numbers. -/
theorem ValidObject.exists_others (hobject : ValidObject formats entries)
    (hmem : entry ∈ entries) (hkey : entry.1 = "blockNumber") :
    ∃ value number others, prefixedNumber formats value = .ok number ∧ Unnumbered formats others ∧
      entries.Perm (("blockNumber", .str value) :: others) := by
  have hvalid := hobject.valid entry hmem
  cases hvalid with
  | blockHash value hash h => exact absurd hkey (show "blockHash" ≠ "blockNumber" by decide)
  | requireCanonical value => exact absurd hkey (show "requireCanonical" ≠ "blockNumber" by decide)
  | blockNumber value number h =>
    have hperm := List.perm_cons_erase hmem
    refine ⟨value, number, entries.erase ("blockNumber", .str value), h, fun other hother => ?_,
      hperm⟩
    refine ⟨hobject.valid other (List.mem_of_mem_erase hother), fun hsame => ?_⟩
    have hnodup := (hperm.map Prod.fst).nodup_iff.1 hobject.nodup
    rw [List.map_cons, List.nodup_cons] at hnodup
    exact hnodup.1 (List.mem_map.2 ⟨other, hother, hsame⟩)

/-- **Objects as block parameters.** An object with valid entries gives the same block in every order
of its entries exactly if it has no block number, or nothing else. -/
theorem keyOrder_irrelevant_iff (hobject : ValidObject formats entries) :
    (∀ entries', entries.Perm entries' →
      SameResult (BlockNumber.deserialize formats (.map entries))
        (BlockNumber.deserialize formats (.map entries'))) ↔
    (∀ entry ∈ entries, entry.1 ≠ "blockNumber") ∨ entries.length ≤ 1 := by
  constructor
  · intro hsame
    by_contra hneither
    rw [not_or, not_forall, not_le] at hneither
    obtain ⟨⟨entry, hentry⟩, hlength⟩ := hneither
    rw [Classical.not_imp, not_not] at hentry
    obtain ⟨value, number, others, hnumber, hothers, hperm⟩ :=
      hobject.exists_others hentry.1 hentry.2
    have hne : others ≠ [] := by
      rintro rfl
      have hone := hperm.length_eq
      rw [List.length_singleton] at hone
      omega
    have hlast := hsame _ (hperm.trans (List.perm_append_singleton _ _).symm)
    have hfirst := hsame _ hperm
    have hboth : SameResult (visitMap formats (others ++ [("blockNumber", .str value)]))
        (visitMap formats (("blockNumber", .str value) :: others)) := hlast.symm.trans hfirst
    rw [visitMap_number_last hothers hnumber, visitMap_number_first hne hnumber] at hboth
    cases hboth
  · rintro (hnone | hlength) entries' hperm
    · have h : Unnumbered formats entries := fun entry hmem =>
        ⟨hobject.valid entry hmem, hnone entry hmem⟩
      exact congrArg Except.toOption (visitMap_perm h hobject.nodup hperm)
    · have hsame : entries = entries' := by
        match entries, hlength with
        | [], _ => exact (List.nil_perm.1 hperm).symm
        | [_], _ => exact (List.singleton_perm.1 hperm)
      rw [hsame]
      rfl

/-! ## A block number and a flag -/

/-- An object with a block number and a flag. -/
def flaggedNumber : List Entry := [("requireCanonical", .bool true), ("blockNumber", .str "0x1")]

theorem flaggedNumber_valid : ValidObject hexFormats flaggedNumber where
  valid := by
    intro entry hmem
    rcases List.mem_cons.1 hmem with rfl | hmem
    · exact .requireCanonical true
    · rw [List.mem_singleton] at hmem
      subst hmem
      exact .blockNumber "0x1" 1 rfl
  nodup := by decide

theorem keyOrder_irrelevant_iff_flagged :
    (∀ entries', flaggedNumber.Perm entries' →
      SameResult (BlockNumber.deserialize hexFormats (.map flaggedNumber))
        (BlockNumber.deserialize hexFormats (.map entries'))) ↔
    (∀ entry ∈ flaggedNumber, entry.1 ≠ "blockNumber") ∨ flaggedNumber.length ≤ 1 :=
  keyOrder_irrelevant_iff flaggedNumber_valid

/-- The block number is read if it stands last, and refused if it stands first. -/
theorem flaggedNumber_ordered :
    ValidObject hexFormats flaggedNumber ∧ flaggedNumber.Perm flaggedNumber.reverse ∧
      BlockNumber.deserialize hexFormats (.map flaggedNumber) = .ok (.num 1) ∧
      BlockNumber.deserialize hexFormats (.map flaggedNumber.reverse) = .error .unread :=
  ⟨flaggedNumber_valid, List.reverse_perm _ |>.symm, rfl, rfl⟩

end Shadows.Rpc

import Mathlib.Data.List.Sort

/-!
# Segments

Lists that are put together from segments, one for each key of a list of keys in which `r` relates
every key to the later ones.
-/

namespace Foundations

variable {κ β : Type*} {r : κ → κ → Prop} {f : κ → List β} {ks ls : List κ}

/-- No element is in the segments of two keys. -/
def Separated (f : κ → List β) : Prop := ∀ k l x, x ∈ f k → x ∈ f l → k = l

/-- Keys without elements do not matter. -/
theorem flatMap_filter_ne_nil (f : κ → List β) (ks : List κ) :
    (ks.filter fun k => !(f k).isEmpty).flatMap f = ks.flatMap f := by
  induction ks with
  | nil => rfl
  | cons k ks ih =>
    rw [List.filter_cons, List.flatMap_cons]
    split_ifs with h
    · rw [List.flatMap_cons, ih]
    · have hnil : f k = [] := by simpa using h
      rw [ih, hnil, List.nil_append]

/-- Two lists of keys have the same elements exactly if no key with an element is in only one of
them. -/
theorem flatMap_eq_flatMap_iff [Std.Irrefl r] [Std.Antisymm r] (hf : Separated f)
    (hks : ks.Pairwise r) (hls : ls.Pairwise r) :
    ks.flatMap f = ls.flatMap f ↔ ∀ k, ¬ (k ∈ ks ↔ k ∈ ls) → f k = [] := by
  constructor
  · intro heq k hk
    by_contra hne
    obtain ⟨x, hx⟩ := List.exists_mem_of_ne_nil _ hne
    -- an element of the segment is in both lists, and so is its key
    have hmem : ∀ {ks : List κ}, x ∈ ks.flatMap f ↔ k ∈ ks := by
      intro ks
      rw [List.mem_flatMap]
      constructor
      · rintro ⟨l, hl, hxl⟩
        rwa [hf k l x hx hxl]
      · exact fun hks => ⟨k, hks, hx⟩
    exact hk (by rw [← hmem, heq, hmem])
  · intro hempty
    rw [← flatMap_filter_ne_nil f ks, ← flatMap_filter_ne_nil f ls]
    have hsame : (ks.filter fun k => !(f k).isEmpty) = ls.filter fun k => !(f k).isEmpty := by
      refine (hks.filter _).eq_of_mem_iff (hls.filter _) fun k => ?_
      rw [List.mem_filter, List.mem_filter]
      refine and_congr_left fun hk => ?_
      by_contra hne
      rw [hempty k hne] at hk
      cases hk
    rw [hsame]

/-- Where no segment may come before one of an earlier key, the elements are in order exactly if they
are all in one segment, and in order there. -/
theorem pairwise_flatMap_iff [Std.Irrefl r] {R : β → β → Prop} (hks : ks.Pairwise r)
    (hback : ∀ k l, r k l → ∀ x ∈ f k, ∀ y ∈ f l, ¬ R x y) :
    (ks.flatMap f).Pairwise R ↔ (∀ k ∈ ks, (f k).Pairwise R) ∧
      ∀ k ∈ ks, ∀ l ∈ ks, f k ≠ [] → f l ≠ [] → k = l := by
  rw [List.pairwise_flatMap]
  refine and_congr_right fun _ => ?_
  constructor
  · intro hpairs
    have hsingle : ks.Pairwise fun k l => f k ≠ [] → f l ≠ [] → k = l := by
      refine (hks.and hpairs).imp fun {k l} h hk hl => ?_
      obtain ⟨x, hx⟩ := List.exists_mem_of_ne_nil _ hk
      obtain ⟨y, hy⟩ := List.exists_mem_of_ne_nil _ hl
      exact absurd (h.2 x hx y hy) (hback k l h.1 x hx y hy)
    have hflip : ks.Pairwise (flip fun k l => f k ≠ [] → f l ≠ [] → k = l) :=
      hsingle.imp fun h hl hk => (h hk hl).symm
    exact fun k hk l hl => hsingle.forall_of_forall_of_flip (fun _ _ _ _ => rfl) hflip hk hl
  · intro hsingle
    refine hks.imp_of_mem fun {k l} hk hl hkl x hx y hy => ?_
    obtain rfl := hsingle k hk l hl (List.ne_nil_of_mem hx) (List.ne_nil_of_mem hy)
    exact absurd hkl (Std.Irrefl.irrefl k)

end Foundations

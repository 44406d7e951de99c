import Shadows.Consensus.Proofs.DigestProofs

/-!
# Proofs: the logs of the items settle the verdict

An item carries at most one log. The four functions answer by the list of the logs that the items of
a digest carry.
-/

namespace Shadows.Consensus

/-! ## Verdicts -/

section Verdict

variable {α : Type} {l : List α}

theorem verdict_eq_notFound_iff : verdict l = .error .notFound ↔ l = [] := by
  match l with
  | [] => simp [verdict]
  | [_] => simp [verdict]
  | _ :: _ :: _ => simp [verdict]

theorem verdict_eq_multipleLogs_iff : verdict l = .error .multipleLogs ↔ 2 ≤ l.length := by
  match l with
  | [] => simp [verdict]
  | [_] => simp [verdict]
  | _ :: _ :: _ => simp [verdict]

end Verdict

/-! ## Items -/

/-- An item is tried for both logs and carries the one that it decodes as. -/
theorem DigestItem.carried_cases (item : DigestItem) :
    (∃ log, item.carried = some (.pre log) ∧ item.tryToPreLog = some log ∧
      item.tryToPostLog = none) ∨
    (∃ log, item.carried = some (.post log) ∧ item.tryToPreLog = none ∧
      item.tryToPostLog = some log) ∨
    (item.carried = none ∧ item.tryToPreLog = none ∧ item.tryToPostLog = none) := by
  match item with
  | .preRuntime engine (.encoded log) =>
    by_cases h : engine = shadowsEngineId
    · exact Or.inl ⟨log, if_pos h, if_pos h, rfl⟩
    · exact Or.inr (Or.inr ⟨if_neg h, if_neg h, rfl⟩)
  | .consensus engine (.encoded log) =>
    by_cases h : engine = shadowsEngineId
    · exact Or.inr (Or.inl ⟨log, if_pos h, rfl, if_pos h⟩)
    · exact Or.inr (Or.inr ⟨if_neg h, rfl, if_neg h⟩)
  | .preRuntime _ (.other _) => exact Or.inr (Or.inr ⟨rfl, rfl, rfl⟩)
  | .consensus _ (.other _) => exact Or.inr (Or.inr ⟨rfl, rfl, rfl⟩)
  | .changesTrieRoot _ => exact Or.inr (Or.inr ⟨rfl, rfl, rfl⟩)
  | .seal _ _ => exact Or.inr (Or.inr ⟨rfl, rfl, rfl⟩)
  | .changesTrieSignal _ => exact Or.inr (Or.inr ⟨rfl, rfl, rfl⟩)
  | .other _ => exact Or.inr (Or.inr ⟨rfl, rfl, rfl⟩)

theorem logs_eq_filterMap (digest : Digest) : logs digest = digest.filterMap DigestItem.carried := by
  induction digest with
  | nil => rfl
  | cons item rest ih =>
    have hitem : logs [item] = item.carried.toList := by
      unfold logs DigestItem.candidates
      rcases item.carried_cases with ⟨log, hc, hpre, hpost⟩ | ⟨log, hc, hpre, hpost⟩ |
        ⟨hc, hpre, hpost⟩ <;> simp [hc, hpre, hpost]
    rw [← List.singleton_append, logs_append, ih, hitem, List.filterMap_append]
    cases h : item.carried <;> simp [h]

/-- The `PreLog` in a log. -/
def Log.asPre : Log → Option PreLog
  | .pre log => some log
  | .post _ => none

/-- The `PostLog` in a log. -/
def Log.asPost : Log → Option PostLog
  | .pre _ => none
  | .post log => some log

theorem filterMap_tryToPreLog (digest : Digest) :
    digest.filterMap DigestItem.tryToPreLog = (logs digest).filterMap Log.asPre := by
  rw [logs_eq_filterMap, List.filterMap_filterMap]
  congr 1
  funext item
  rcases item.carried_cases with ⟨log, hc, hpre, hpost⟩ | ⟨log, hc, hpre, hpost⟩ |
    ⟨hc, hpre, hpost⟩ <;> simp [hc, hpre, Log.asPre]

theorem filterMap_tryToPostLog (digest : Digest) :
    digest.filterMap DigestItem.tryToPostLog = (logs digest).filterMap Log.asPost := by
  rw [logs_eq_filterMap, List.filterMap_filterMap]
  congr 1
  funext item
  rcases item.carried_cases with ⟨log, hc, hpre, hpost⟩ | ⟨log, hc, hpre, hpost⟩ |
    ⟨hc, hpre, hpost⟩ <;> simp [hc, hpost, Log.asPost]

theorem findPostLog_eq (digest : Digest) :
    findPostLog digest = verdict (digest.filterMap DigestItem.tryToPostLog) := by
  unfold findPostLog
  rw [findSingle_eq, List.filterMap_map]
  rfl

/-! ## The loops -/

theorem findLogLoop_eq (digest : Digest) (found : Option Log) :
    findLogLoop found digest = findSingle found (digest.flatMap DigestItem.candidates) := by
  induction digest generalizing found with
  | nil => cases found <;> rfl
  | cons item rest ih =>
    have hitem : item.candidates = [item.tryToPreLog.map .pre, item.tryToPostLog.map .post] := rfl
    rw [List.flatMap_cons, hitem]
    cases hpre : item.tryToPreLog <;> cases hpost : item.tryToPostLog <;> cases found <;>
      simp [findLogLoop, findSingle, hpre, hpost, ih]

theorem ensureLogLoop_eq (digest : Digest) (found : Bool) :
    ensureLogLoop found digest = findSingle (if found then some () else none)
      ((digest.flatMap DigestItem.candidates).map (Option.map fun _ => ())) := by
  induction digest generalizing found with
  | nil => cases found <;> rfl
  | cons item rest ih =>
    have hitem : item.candidates = [item.tryToPreLog.map .pre, item.tryToPostLog.map .post] := rfl
    rw [List.flatMap_cons, hitem]
    cases hpre : item.tryToPreLog <;> cases hpost : item.tryToPostLog <;> cases found <;>
      simp [ensureLogLoop, findSingle, hpre, hpost, ih]

/-! ## The verdicts -/

/-- Of two exhaustive kinds, a list has a single element of the first and none of the second exactly if
it has a single element, of the first kind. -/
theorem eq_singleton_iff_filterMap {α β γ : Type} {f : γ → Option α} {g : γ → Option β} {mk : α → γ}
    (hf : ∀ x a, f x = some a ↔ x = mk a) (hg : ∀ x, g x = none ↔ f x ≠ none) (l : List γ) (a : α) :
    l = [mk a] ↔ l.filterMap f = [a] ∧ l.filterMap g = [] := by
  constructor
  · rintro rfl
    have hmk : f (mk a) = some a := (hf _ a).2 rfl
    have hnone : g (mk a) = none := (hg _).2 (by rw [hmk]; exact Option.some_ne_none a)
    exact ⟨List.filterMap_cons_some hmk, List.filterMap_cons_none hnone⟩
  · rintro ⟨hsingle, hnone⟩
    have hsome : ∀ x ∈ l, f x ≠ none := fun x hx =>
      (hg x).1 (List.filterMap_eq_nil_iff.1 hnone x hx)
    match l with
    | [] => exact absurd hsingle.symm (List.cons_ne_nil _ _)
    | x :: rest =>
      obtain ⟨b, hb⟩ := Option.ne_none_iff_exists'.1 (hsome x List.mem_cons_self)
      rw [List.filterMap_cons_some hb, List.cons.injEq] at hsingle
      have hrest : rest = [] := List.eq_nil_iff_forall_not_mem.2 fun y hy =>
        hsome y (List.mem_cons_of_mem _ hy) (List.filterMap_eq_nil_iff.1 hsingle.2 y hy)
      rw [hrest, (hf x b).1 hb, hsingle.1]

theorem findLog_pre_iff (digest : Digest) (log : PreLog) :
    findLog digest = .ok (.pre log) ↔
      findPreLog digest = .ok log ∧ findPostLog digest = .error .notFound := by
  rw [findLog_eq, findPreLog_eq, findPostLog_eq, filterMap_tryToPreLog, filterMap_tryToPostLog,
    verdict_eq_ok_iff, verdict_eq_ok_iff, verdict_eq_notFound_iff]
  apply eq_singleton_iff_filterMap
  · intro x a
    cases x <;> simp [Log.asPre]
  · intro x
    cases x <;> simp [Log.asPre, Log.asPost]

theorem findLog_post_iff (digest : Digest) (log : PostLog) :
    findLog digest = .ok (.post log) ↔
      findPostLog digest = .ok log ∧ findPreLog digest = .error .notFound := by
  rw [findLog_eq, findPreLog_eq, findPostLog_eq, filterMap_tryToPreLog, filterMap_tryToPostLog,
    verdict_eq_ok_iff, verdict_eq_ok_iff, verdict_eq_notFound_iff]
  apply eq_singleton_iff_filterMap
  · intro x a
    cases x <;> simp [Log.asPost]
  · intro x
    cases x <;> simp [Log.asPre, Log.asPost]

/-- The verdict of the four functions on a digest. -/
theorem oneLog (digest : Digest) : OneLog digest where
  findLog_loop := findLogLoop_eq digest none
  ensureLog_loop := ensureLogLoop_eq digest false
  ok := fun log => by rw [findLog_eq, verdict_eq_ok_iff, logs_eq_filterMap]
  notFound := by rw [findLog_eq, verdict_eq_notFound_iff, logs_eq_filterMap,
    List.filterMap_eq_nil_iff]
  multipleLogs := by
    rw [findLog_eq, verdict_eq_multipleLogs_iff, logs_eq_filterMap, List.length_filterMap_eq_countP]
  ensureLog := ensureLog_eq digest
  pre := findLog_pre_iff digest
  post := findLog_post_iff digest

end Shadows.Consensus

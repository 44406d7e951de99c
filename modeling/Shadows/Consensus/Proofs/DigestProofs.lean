import Shadows.Consensus.Digest
import Mathlib.Data.List.Basic

/-!
# Proofs: the single log of a digest

`findSingle` answers by the number of candidates it meets, so the four `find_*` functions are told
apart only by the candidates they look at.
-/

namespace Shadows.Consensus

/-- What a list of candidates amounts to. -/
def verdict {α : Type} : List α → Except FindLogError α
  | [] => .error .notFound
  | [log] => .ok log
  | _ :: _ :: _ => .error .multipleLogs

theorem findSingle_eq {α : Type} (l : List (Option α)) :
    ∀ found : Option α, findSingle found l = verdict (found.toList ++ l.filterMap id) := by
  induction l with
  | nil => intro found; cases found <;> rfl
  | cons candidate rest ih =>
    intro found
    cases candidate with
    | none => cases found <;> simp [findSingle, ih]
    | some log => cases found <;> simp [findSingle, ih, verdict]

theorem verdict_map {α β : Type} (f : α → β) (l : List α) :
    verdict (l.map f) = (verdict l).map f := by
  match l with
  | [] => rfl
  | [_] => rfl
  | _ :: _ :: _ => rfl

/-- The logs among the items of a digest. -/
def logs (digest : Digest) : List Log := (digest.flatMap DigestItem.candidates).filterMap id

theorem findLog_eq (digest : Digest) : findLog digest = verdict (logs digest) := by
  simp [findLog, findSingle_eq, logs]

theorem findPreLog_eq (digest : Digest) :
    findPreLog digest = verdict (digest.filterMap DigestItem.tryToPreLog) := by
  simp [findPreLog, findSingle_eq, List.filterMap_map]

theorem ensureLog_eq (digest : Digest) : ensureLog digest = (findLog digest).map fun _ => () := by
  rw [findLog_eq, ← verdict_map, ensureLog, findSingle_eq]
  simp [logs, List.filterMap_map, List.map_filterMap]

theorem ensureLog_ok_iff (digest : Digest) :
    ensureLog digest = .ok () ↔ ∃ log, findLog digest = .ok log := by
  rw [ensureLog_eq]
  cases findLog digest <;> simp [Except.map]

theorem logs_append (digest digest' : Digest) : logs (digest ++ digest') = logs digest ++ logs digest' := by
  unfold logs
  rw [List.flatMap_append, List.filterMap_append]

theorem logs_preRuntime {digest : Digest}
    (h : ∀ item ∈ digest, ∃ engine data, item = .preRuntime engine data) :
    logs digest = (digest.filterMap DigestItem.tryToPreLog).map .pre := by
  induction digest with
  | nil => rfl
  | cons item rest ih =>
    obtain ⟨engine, data, rfl⟩ := h item List.mem_cons_self
    have hrest := ih fun item hitem => h item (List.mem_cons_of_mem _ hitem)
    have hcons : logs (.preRuntime engine data :: rest) =
        [(DigestItem.preRuntime engine data).tryToPreLog.map Log.pre].filterMap id ++
          logs rest := by
      rw [← List.singleton_append, logs_append]
      rfl
    rw [hcons, hrest]
    cases hpre : (DigestItem.preRuntime engine data).tryToPreLog with
    | none => simp [hpre]
    | some log => simp [hpre]

theorem logs_seals {seals : Digest} (h : ∀ item ∈ seals, ∃ engine data, item = .seal engine data) :
    logs seals = [] := by
  induction seals with
  | nil => rfl
  | cons item rest ih =>
    obtain ⟨engine, data, rfl⟩ := h item List.mem_cons_self
    have hrest := ih fun item hitem => h item (List.mem_cons_of_mem _ hitem)
    rw [← List.singleton_append, logs_append, hrest]
    rfl

/-- One candidate more makes the verdict single exactly if there was none before. -/
theorem verdict_append_singleton {α : Type} {l : List α} {a b : α}
    (h : verdict (l ++ [a]) = .ok b) : l = [] ∧ b = a := by
  match l with
  | [] =>
    refine ⟨rfl, ?_⟩
    simpa [verdict, eq_comm] using h
  | [_] => simp [verdict] at h
  | _ :: _ :: _ => simp [verdict] at h

theorem verdict_eq_ok_iff {α : Type} {l : List α} {a : α} : verdict l = .ok a ↔ l = [a] := by
  match l with
  | [] => simp [verdict]
  | [_] => simp [verdict]
  | _ :: _ :: _ => simp [verdict]

end Shadows.Consensus

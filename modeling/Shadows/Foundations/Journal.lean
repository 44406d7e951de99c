import Mathlib.Data.List.Basic
import Mathlib.Data.List.Infix

/-!
# Nested frames that are kept or dropped

A journaled state is worked on in nested frames: entering a frame saves the state, an exit either
keeps what the frame did or restores the saved state. A `Trace` is a well-nested sequence of calls,
and its `survivors` are the operations that no dropped frame encloses. `Journal.run_calls` says that
running the calls amounts to replaying the survivors; `Journal.run_open` says the same of a sequence
that stops inside some frames, and every prefix of a trace is of this kind (`Trace.prefix_open`).
-/

namespace Foundations

/-- The ways to leave a frame. -/
inductive Exit where
  | commit
  | revert
  | discard
  deriving DecidableEq

/-- A call on a journaled state: `E` is what a frame is entered with, `O` the type of operations. -/
inductive Call (E O : Type) where
  | enter (e : E)
  | exit (x : Exit)
  | op (o : O)

/-- A well-nested sequence of calls. -/
inductive Trace (E O : Type) where
  | nil
  | op (o : O) (rest : Trace E O)
  | frame (e : E) (inner : Trace E O) (x : Exit) (rest : Trace E O)

/-- A well-nested sequence of calls that stops inside some frames; `t` is what happens in the
innermost one so far. -/
inductive OpenTrace (E O : Type) where
  | closed (t : Trace E O)
  | enter (outer : OpenTrace E O) (e : E) (t : Trace E O)

variable {E O : Type}

namespace Trace

/-- The calls of a trace, in order. -/
def calls : Trace E O → List (Call E O)
  | nil => []
  | op o rest => .op o :: rest.calls
  | frame e inner x rest => .enter e :: (inner.calls ++ .exit x :: rest.calls)

/-- The operations that are not enclosed in a frame that is reverted or discarded. -/
def survivors : Trace E O → List O
  | nil => []
  | op o rest => o :: rest.survivors
  | frame _ inner x rest => (if x = .commit then inner.survivors else []) ++ rest.survivors

/-- Operations outside of any frame. -/
def ops (os : List O) : Trace E O := os.foldr op nil

@[simp] theorem calls_ops (os : List O) : (ops os : Trace E O).calls = os.map .op := by
  induction os with
  | nil => rfl
  | cons o os ih => exact congrArg (Call.op o :: ·) ih

@[simp] theorem survivors_ops (os : List O) : (ops os : Trace E O).survivors = os := by
  induction os with
  | nil => rfl
  | cons o os ih => exact congrArg (o :: ·) ih

end Trace

namespace OpenTrace

/-- The calls of an open trace, in order. -/
def calls : OpenTrace E O → List (Call E O)
  | closed t => t.calls
  | enter outer e t => outer.calls ++ .enter e :: t.calls

/-- The operations that have survived so far, in the current frame and in its open ancestors. -/
def survivors : OpenTrace E O → List O
  | closed t => t.survivors
  | enter outer _ t => outer.survivors ++ t.survivors

/-- Change the outermost part. -/
def mapRoot (f : Trace E O → Trace E O) : OpenTrace E O → OpenTrace E O
  | closed t => closed (f t)
  | enter outer e t => enter (outer.mapRoot f) e t

/-- Put everything into a new outermost frame. -/
def under (e : E) : OpenTrace E O → OpenTrace E O
  | closed t => enter (closed .nil) e t
  | enter outer e' t => enter (outer.under e) e' t

theorem calls_mapRoot {f : Trace E O → Trace E O} (before : List (Call E O))
    (hf : ∀ t, (f t).calls = before ++ t.calls) (o : OpenTrace E O) :
    (o.mapRoot f).calls = before ++ o.calls := by
  induction o with
  | closed t => exact hf t
  | enter outer e t ih =>
    show (outer.mapRoot f).calls ++ .enter e :: t.calls = before ++ (outer.calls ++ .enter e :: t.calls)
    rw [ih, List.append_assoc]

theorem calls_under (e : E) (o : OpenTrace E O) : (o.under e).calls = .enter e :: o.calls := by
  induction o with
  | closed t => rfl
  | enter outer e' t ih =>
    show (outer.under e).calls ++ .enter e' :: t.calls = .enter e :: (outer.calls ++ .enter e' :: t.calls)
    rw [ih]
    rfl

end OpenTrace

/-- A prefix of an append ends in the first part or goes on into the second. -/
theorem prefix_append_cases {α : Type} {l₁ l₂ p : List α} (h : p <+: l₁ ++ l₂) :
    p <+: l₁ ∨ ∃ q, p = l₁ ++ q ∧ q <+: l₂ := by
  obtain ⟨s, hs⟩ := h
  rcases List.append_eq_append_iff.1 hs with ⟨m, hl, -⟩ | ⟨m, hp, hl⟩
  · exact Or.inl ⟨m, hl.symm⟩
  · exact Or.inr ⟨m, hp, s, hl.symm⟩

/-- Every prefix of the calls of a trace is an open trace. -/
theorem Trace.prefix_open (t : Trace E O) : ∀ p, p <+: t.calls → ∃ o : OpenTrace E O, o.calls = p := by
  induction t with
  | nil =>
    intro p hp
    refine ⟨.closed .nil, ?_⟩
    exact (List.prefix_nil.1 hp).symm
  | op o rest ih =>
    intro p hp
    rcases List.prefix_cons_iff.1 hp with rfl | ⟨q, rfl, hq⟩
    · exact ⟨.closed .nil, rfl⟩
    · obtain ⟨ot, hot⟩ := ih q hq
      refine ⟨ot.mapRoot (.op o), ?_⟩
      rw [OpenTrace.calls_mapRoot [.op o] (fun _ => rfl), hot]
      rfl
  | frame e inner x rest ihInner ihRest =>
    intro p hp
    rcases List.prefix_cons_iff.1 hp with rfl | ⟨q, rfl, hq⟩
    · exact ⟨.closed .nil, rfl⟩
    · rcases prefix_append_cases hq with hin | ⟨r, rfl, hr⟩
      · -- the prefix ends inside the frame
        obtain ⟨ot, hot⟩ := ihInner q hin
        refine ⟨ot.under e, ?_⟩
        rw [OpenTrace.calls_under, hot]
      · rcases List.prefix_cons_iff.1 hr with rfl | ⟨s, rfl, hs⟩
        · refine ⟨(OpenTrace.closed inner).under e, ?_⟩
          rw [OpenTrace.calls_under, List.append_nil]
          rfl
        · -- the prefix goes on behind the frame
          obtain ⟨ot, hot⟩ := ihRest s hs
          refine ⟨ot.mapRoot (.frame e inner x), ?_⟩
          rw [OpenTrace.calls_mapRoot (.enter e :: (inner.calls ++ [.exit x])), hot]
          · simp
          · intro t
            simp [Trace.calls]

/-! ## Replaying the survivors -/

/-- A journaled state: the current value, and the saved ones, innermost first. -/
structure Journal (σ : Type) where
  current : σ
  saved : List σ

namespace Journal

variable {σ : Type} (apply : O → σ → σ)

/-- The effect of a call; leaving a frame that was not entered has none. -/
def step : Call E O → Journal σ → Option (Journal σ)
  | .enter _, j => some ⟨j.current, j.current :: j.saved⟩
  | .op o, j => some ⟨apply o j.current, j.saved⟩
  | .exit x, j =>
    match j.saved with
    | [] => none
    | s :: saved => some ⟨if x = .commit then j.current else s, saved⟩

/-- The effect of a sequence of calls. -/
def run : List (Call E O) → Journal σ → Option (Journal σ)
  | [], j => some j
  | c :: cs, j => (step apply c j).bind (run cs)

/-- Replay operations in order. -/
def replay (ops : List O) (s : σ) : σ := ops.foldl (fun s o => apply o s) s

theorem replay_append (ops ops' : List O) (s : σ) :
    replay apply (ops ++ ops') s = replay apply ops' (replay apply ops s) :=
  List.foldl_append

theorem run_append (cs cs' : List (Call E O)) :
    ∀ j : Journal σ, run apply (cs ++ cs') j = (run apply cs j).bind (run apply cs') := by
  induction cs with
  | nil => intro j; rfl
  | cons c cs ih =>
    intro j
    show (step apply c j).bind (run apply (cs ++ cs')) =
      ((step apply c j).bind (run apply cs)).bind (run apply cs')
    cases step apply c j with
    | none => rfl
    | some j' => exact ih j'

/-- Running a well-nested sequence of calls replays its survivors. -/
theorem run_calls (t : Trace E O) : ∀ (s : σ) (saved : List σ),
    run apply t.calls ⟨s, saved⟩ = some ⟨replay apply t.survivors s, saved⟩ := by
  induction t with
  | nil => intro s saved; rfl
  | op o rest ih =>
    intro s saved
    exact ih (apply o s) saved
  | frame e inner x rest ihInner ihRest =>
    intro s saved
    show run apply (inner.calls ++ .exit x :: rest.calls) ⟨s, s :: saved⟩ = _
    rw [run_append, ihInner s (s :: saved), Option.bind_some]
    have hexit : run apply (.exit x :: rest.calls) ⟨replay apply inner.survivors s, s :: saved⟩ =
        run apply rest.calls
          ⟨if x = .commit then replay apply inner.survivors s else s, saved⟩ := rfl
    rw [hexit, ihRest, Trace.survivors, replay_append]
    by_cases hx : x = .commit
    · rw [if_pos hx, if_pos hx]
    · rw [if_neg hx, if_neg hx]
      rfl

/-- Running a sequence that stops inside some frames replays what has survived so far. -/
theorem run_open (o : OpenTrace E O) : ∀ (s : σ) (saved : List σ),
    ∃ saved', run apply o.calls ⟨s, saved⟩ = some ⟨replay apply o.survivors s, saved'⟩ := by
  induction o with
  | closed t =>
    intro s saved
    exact ⟨saved, run_calls apply t s saved⟩
  | enter outer e t ih =>
    intro s saved
    obtain ⟨saved', hrun⟩ := ih s saved
    refine ⟨replay apply outer.survivors s :: saved', ?_⟩
    show run apply (outer.calls ++ .enter e :: t.calls) ⟨s, saved⟩ = _
    rw [run_append, hrun, Option.bind_some]
    show run apply t.calls
      ⟨replay apply outer.survivors s, replay apply outer.survivors s :: saved'⟩ = _
    rw [run_calls, OpenTrace.survivors, replay_append]

end Journal

end Foundations

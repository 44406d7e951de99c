import Shadows.Primitives.Ethereum

/-!
# Precompiles

A precompile computes its output from its input, for a cost that is linear in the length of the input.
What panics has no result.
-/

namespace Shadows.Precompiles

/-- `evm::ExitSucceed`. -/
inductive ExitSucceed where
  | stopped
  | returned
  | suicided
  deriving DecidableEq

/-- A computation that panics, or fails with an error, or has a result. -/
abbrev Exec := ExceptT ExitError Option

/-- `(ExitSucceed, Vec<u8>)`. -/
abbrev Output := ExitSucceed × Bytes

namespace Exec

variable {α β : Type}

def panicked : Exec α := (none : Option (Except ExitError α))

/-- `return Err(ExitError::Other(..))` under a condition. -/
def refuseIf (condition : Prop) [Decidable condition] (message : String) : Exec Unit :=
  if condition then throw (.other message) else pure ()

/-- `.map_err(|_| ExitError::Other(..))?`. -/
def orRefuse (message : String) : Option α → Exec α
  | some a => pure a
  | none => throw (.other message)

/-- `.ok_or(ExitError::OutOfGas)?`. -/
def orOutOfGas : Option α → Exec α
  | some a => pure a
  | none => throw .outOfGas

/-- A step that panics where it has no result. -/
def orPanic : Option α → Exec α
  | some a => pure a
  | none => panicked

theorem throw_bind (e : ExitError) (f : α → Exec β) : (throw e : Exec α) >>= f = throw e := rfl

theorem pure_ne_panicked {a : α} : (pure a : Exec α) ≠ panicked := nofun

theorem throw_ne_panicked {e : ExitError} : (throw e : Exec α) ≠ panicked := nofun

theorem pure_ne_throw {a : α} {e : ExitError} : (pure a : Exec α) ≠ throw e := nofun

theorem pure_injective {a b : α} (h : (pure a : Exec α) = pure b) : a = b :=
  Except.ok.inj (Option.some.inj h)

/-- A computation panics, fails or has a result. -/
theorem cases (x : Exec α) : x = panicked ∨ (∃ e, x = throw e) ∨ ∃ a, x = pure a := by
  match x with
  | none => exact .inl rfl
  | some (.error e) => exact .inr (.inl ⟨e, rfl⟩)
  | some (.ok a) => exact .inr (.inr ⟨a, rfl⟩)

theorem refuseIf_pos {condition : Prop} [Decidable condition] (h : condition) (message : String)
    (f : Unit → Exec β) : refuseIf condition message >>= f = throw (.other message) := by
  unfold refuseIf
  rw [if_pos h]
  rfl

theorem refuseIf_neg {condition : Prop} [Decidable condition] (h : ¬ condition) (message : String)
    (f : Unit → Exec β) : refuseIf condition message >>= f = f () := by
  unfold refuseIf
  rw [if_neg h]
  rfl

/-- A computation without a panic, which has a result where one is said to be. -/
def Yields (x : Exec α) : Option α → Prop
  | some a => x = pure a
  | none => ∃ e, x = throw e

theorem yields_orRefuse (message : String) (a : Option α) : Yields (orRefuse message a) a := by
  cases a with
  | none => exact ⟨_, rfl⟩
  | some a => rfl

theorem Yields.bind {x : Exec α} {a : Option α} (hx : Yields x a) {f : α → Exec β} {g : α → Option β}
    (hf : ∀ a, Yields (f a) (g a)) : Yields (x >>= f) (a.bind g) := by
  cases a with
  | none =>
    obtain ⟨e, rfl⟩ := hx
    exact ⟨e, rfl⟩
  | some a =>
    rw [show x = pure a from hx]
    exact hf a

theorem Yields.map {x : Exec α} {a : Option α} (hx : Yields x a) (f : α → β) :
    Yields (x >>= fun a => pure (f a)) (a.map f) := by
  rw [Option.map_eq_bind]
  exact hx.bind fun _ => rfl

theorem Yields.mapM {f : α → Exec β} {g : α → Option β} {l : List α}
    (h : ∀ a ∈ l, Yields (f a) (g a)) : Yields (l.mapM f) (l.mapM g) := by
  induction l with
  | nil => rfl
  | cons a l ih =>
    rw [List.forall_mem_cons] at h
    rw [List.mapM_cons, List.mapM_cons]
    exact h.1.bind fun b => (ih h.2).bind fun bs => rfl

theorem Yields.ne_panicked {x : Exec α} {a : Option α} (hx : Yields x a) : x ≠ panicked := by
  cases a with
  | none =>
    obtain ⟨e, rfl⟩ := hx
    exact throw_ne_panicked
  | some a =>
    rw [show x = pure a from hx]
    exact pure_ne_panicked

/-- What has a result does not fail. -/
theorem Yields.none_iff {x : Exec α} {a : Option α} (hx : Yields x a) : Yields x none ↔ a = none := by
  cases a with
  | none => exact iff_of_true hx rfl
  | some a =>
    refine iff_of_false ?_ (Option.some_ne_none a)
    rintro ⟨e, he⟩
    exact pure_ne_throw (hx.symm.trans he)

theorem bind_ne_panicked {x : Exec α} {f : α → Exec β} :
    x >>= f ≠ panicked ↔ x ≠ panicked ∧ ∀ a, x = pure a → f a ≠ panicked := by
  rcases Exec.cases x with rfl | ⟨e, rfl⟩ | ⟨a, rfl⟩
  · exact ⟨fun h => absurd rfl h, fun h => absurd rfl h.1⟩
  · exact ⟨fun _ => ⟨throw_ne_panicked, fun _ h => absurd h.symm pure_ne_throw⟩,
      fun _ => throw_ne_panicked⟩
  · refine ⟨fun h => ⟨pure_ne_panicked, fun b hb => ?_⟩, fun h => h.2 a rfl⟩
    obtain rfl := pure_injective hb
    exact h

/-- Without a panic, what comes out is also what comes out of the other computation. -/
def Agrees (x y : Exec α) : Prop := x ≠ panicked → x = y

theorem Agrees.refl (x : Exec α) : Agrees x x := fun _ => rfl

theorem Agrees.bind {x y : Exec α} (hx : Agrees x y) {f g : α → Exec β} (hf : ∀ a, Agrees (f a) (g a)) :
    Agrees (x >>= f) (y >>= g) := by
  intro h
  have hpanicked : x ≠ panicked := by
    rintro rfl
    exact h rfl
  obtain rfl := hx hpanicked
  rcases Exec.cases x with rfl | ⟨e, rfl⟩ | ⟨a, rfl⟩
  · exact absurd rfl hpanicked
  · rfl
  · exact hf a h

end Exec

/-- `copy_from_slice` into a buffer, which panics for another length. -/
def copyFromSlice (length : ℕ) (source : Bytes) : Option Bytes :=
  if source.length = length then some source else none

theorem slice_eq {data : Bytes} {first last : ℕ} (h : first ≤ last) (hlast : last ≤ data.length) :
    slice data first last = some ((data.drop first).take (last - first)) := if_pos ⟨h, hlast⟩

theorem slice_eq_none {data : Bytes} {first last : ℕ} (h : data.length < last) :
    slice data first last = none := if_neg fun hbounds => Nat.not_le.2 h hbounds.2

/-! ## Costs -/

open Exec

/-- `LinearCostPrecompile`. -/
structure LinearCostPrecompile where
  base : UInt64
  word : UInt64
  execute : Bytes → UInt64 → Exec Output

def checkedAddU64 (a b : UInt64) : Option UInt64 :=
  if a.toNat + b.toNat < 2 ^ 64 then some (a + b) else none

def checkedMulU64 (a b : UInt64) : Option UInt64 :=
  if a.toNat * b.toNat < 2 ^ 64 then some (a * b) else none

def saturatingAddU64 (a b : UInt64) : UInt64 := .ofNat (min (a.toNat + b.toNat) (2 ^ 64 - 1))

/-- The cost of an input of `len` bytes, unless it is above the gas that there is. -/
def ensureLinearCost (targetGas : Option UInt64) (len base word : UInt64) : Exec UInt64 := do
  let words := saturatingAddU64 len 31 / 32
  let price ← orOutOfGas (checkedMulU64 word words)
  let cost ← orOutOfGas (checkedAddU64 base price)
  if targetGas.any fun targetGas => targetGas < cost then throw .outOfGas else pure cost

/-- `Precompile::execute`, with the gas used. -/
def LinearCostPrecompile.run (precompile : LinearCostPrecompile) (input : Bytes)
    (targetGas : Option UInt64) : Exec (Output × UInt64) := do
  let cost ← ensureLinearCost targetGas (.ofNat input.length) precompile.base precompile.word
  let output ← precompile.execute input cost
  pure (output, cost)

end Shadows.Precompiles

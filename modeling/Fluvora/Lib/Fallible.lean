import Mathlib

/-!
# Fallible computations that keep their writes

A method that takes `&mut self` and returns a `Result` may fail after it has written part of its
state, and the caller sees what was written.  `Fallible σ ε α` is such a computation: it always
returns a state, together with a value or an error.  The file gives the monad, its primitive
steps (`fail`, `ensure`, `ofExcept`, `ofOption`), the equations of their composition and the rule
`run_bind_invariant`, by which what both parts of a composite keep is kept by the whole, whether it
succeeds or not.
-/

namespace Fluvora

/-- A computation over a mutable state that may fail; a failure does not undo what was written. -/
def Fallible (σ ε α : Type) : Type := σ → Except ε α × σ

namespace Fallible

variable {σ ε α β : Type}

/-- Run a computation from a state. -/
def run (m : Fallible σ ε α) (s : σ) : Except ε α × σ := m s

instance : Monad (Fallible σ ε) where
  pure a := fun s => (.ok a, s)
  bind m f := fun s =>
    match m s with
    | (.ok a, s') => f a s'
    | (.error e, s') => (.error e, s')

/-- Read the state. -/
def get : Fallible σ ε σ := fun s => (.ok s, s)

/-- Overwrite the state. -/
def set (s : σ) : Fallible σ ε Unit := fun _ => (.ok (), s)

/-- Update the state. -/
def modify (f : σ → σ) : Fallible σ ε Unit := fun s => (.ok (), f s)

/-- Fail, leaving the state as it is. -/
def fail (e : ε) : Fallible σ ε α := fun s => (.error e, s)

/-- Go on only if the condition holds. -/
def ensure (p : Prop) [Decidable p] (e : ε) : Fallible σ ε Unit :=
  if p then pure () else fail e

/-- The result of a computation that does not touch the state. -/
def ofExcept (r : Except ε α) : Fallible σ ε α := fun s => (r, s)

/-- The value of an option, or a failure. -/
def ofOption (o : Option α) (e : ε) : Fallible σ ε α :=
  match o with
  | some a => pure a
  | none => fail e

@[simp] theorem run_pure (a : α) (s : σ) : (pure a : Fallible σ ε α).run s = (.ok a, s) := rfl

@[simp] theorem run_get (s : σ) : (get : Fallible σ ε σ).run s = (.ok s, s) := rfl

@[simp] theorem run_set (t s : σ) : (set t : Fallible σ ε Unit).run s = (.ok (), t) := rfl

@[simp] theorem run_modify (f : σ → σ) (s : σ) :
    (modify f : Fallible σ ε Unit).run s = (.ok (), f s) := rfl

@[simp] theorem run_fail (e : ε) (s : σ) : (fail e : Fallible σ ε α).run s = (.error e, s) := rfl

@[simp] theorem run_ofExcept (r : Except ε α) (s : σ) : (ofExcept r).run s = (r, s) := rfl

theorem run_ensure (p : Prop) [Decidable p] (e : ε) (s : σ) :
    (ensure p e : Fallible σ ε Unit).run s = (if p then .ok () else .error e, s) := by
  unfold ensure
  split_ifs <;> rfl

theorem run_bind (m : Fallible σ ε α) (f : α → Fallible σ ε β) (s : σ) :
    (m >>= f).run s = match m.run s with
      | (.ok a, s') => (f a).run s'
      | (.error e, s') => (.error e, s') := rfl

@[simp] theorem run_get_bind (f : σ → Fallible σ ε β) (s : σ) :
    (get >>= f).run s = (f s).run s := rfl

@[simp] theorem run_pure_bind (a : α) (f : α → Fallible σ ε β) (s : σ) :
    ((pure a : Fallible σ ε α) >>= f).run s = (f a).run s := rfl

@[simp] theorem run_set_bind (t : σ) (f : Unit → Fallible σ ε β) (s : σ) :
    (set t >>= f).run s = (f ()).run t := rfl

@[simp] theorem run_modify_bind (g : σ → σ) (f : Unit → Fallible σ ε β) (s : σ) :
    (modify g >>= f).run s = (f ()).run (g s) := rfl

@[simp] theorem run_fail_bind (e : ε) (f : α → Fallible σ ε β) (s : σ) :
    ((fail e : Fallible σ ε α) >>= f).run s = (.error e, s) := rfl

theorem run_ensure_bind (p : Prop) [Decidable p] (e : ε) (f : Unit → Fallible σ ε β) (s : σ) :
    (ensure p e >>= f).run s = if p then (f ()).run s else (.error e, s) := by
  unfold ensure
  split_ifs <;> rfl

theorem run_ofExcept_bind (r : Except ε α) (f : α → Fallible σ ε β) (s : σ) :
    (ofExcept r >>= f).run s = match r with
      | .ok a => (f a).run s
      | .error e => (.error e, s) := by
  cases r <;> rfl

theorem run_ofOption_bind (o : Option α) (e : ε) (f : α → Fallible σ ε β) (s : σ) :
    (ofOption o e >>= f).run s = match o with
      | some a => (f a).run s
      | none => (.error e, s) := by
  cases o <;> rfl

/-- A composite succeeds exactly when both parts do, the second from the state the first left. -/
theorem run_bind_eq_ok {m : Fallible σ ε α} {f : α → Fallible σ ε β} {s t : σ} {b : β} :
    (m >>= f).run s = (.ok b, t) ↔
      ∃ a u, m.run s = (.ok a, u) ∧ (f a).run u = (.ok b, t) := by
  rw [run_bind]
  rcases m.run s with ⟨_ | a, u⟩
  · simp
  · simp

/-- A composite fails in its first part or, from the state that part left, in its second. -/
theorem run_bind_eq_error {m : Fallible σ ε α} {f : α → Fallible σ ε β} {s t : σ} {e : ε} :
    (m >>= f).run s = (.error e, t) ↔
      m.run s = (.error e, t) ∨ ∃ a u, m.run s = (.ok a, u) ∧ (f a).run u = (.error e, t) := by
  rw [run_bind]
  rcases m.run s with ⟨_ | a, u⟩
  · simp
  · simp

/-- Returning a function of the result changes neither the outcome nor the state. -/
theorem isOk_run_bind_pure (m : Fallible σ ε α) (f : α → β) (s : σ) :
    ((m >>= fun a => pure (f a)).run s).1.isOk = (m.run s).1.isOk := by
  rw [run_bind]
  rcases m.run s with ⟨_ | a, t⟩ <;> rfl

theorem state_run_bind_pure (m : Fallible σ ε α) (f : α → β) (s : σ) :
    ((m >>= fun a => pure (f a)).run s).2 = (m.run s).2 := by
  rw [run_bind]
  rcases m.run s with ⟨_ | a, t⟩ <;> rfl

/-- What holds after the first part, and is kept by the second, holds after the composite. -/
theorem run_bind_invariant {I : σ → Prop} {m : Fallible σ ε α} {f : α → Fallible σ ε β} {s : σ}
    (hm : I (m.run s).2) (hf : ∀ a t, m.run s = (.ok a, t) → I t → I ((f a).run t).2) :
    I ((m >>= f).run s).2 := by
  rw [run_bind]
  match hrun : m.run s with
  | (.error e, t) =>
    rw [hrun] at hm
    exact hm
  | (.ok a, t) =>
    rw [hrun] at hm
    exact hf a t hrun hm

/-- A result that does not touch the state keeps what the rest keeps. -/
theorem run_ofExcept_bind_invariant {I : σ → Prop} {r : Except ε α} {f : α → Fallible σ ε β} {s : σ}
    (hs : I s) (hf : ∀ a, r = .ok a → I ((f a).run s).2) : I ((ofExcept r >>= f).run s).2 := by
  rw [run_ofExcept_bind]
  cases r with
  | error e => exact hs
  | ok a => exact hf a rfl

/-- A check keeps what the rest keeps. -/
theorem run_ensure_bind_invariant {I : σ → Prop} {p : Prop} [Decidable p] {e : ε}
    {f : Unit → Fallible σ ε β} {s : σ} (hs : I s) (hf : p → I ((f ()).run s).2) :
    I ((ensure p e >>= f).run s).2 := by
  rw [run_ensure_bind]
  split_ifs with h
  · exact hf h
  · exact hs

end Fallible

end Fluvora

import Fluvora.Lib.Fallible

/-!
# What a computation has done

Inversions of the primitive steps of `Fallible`: a composite that succeeds has passed its check, or has
found the value it goes on with.  The `cases` rules are for what holds of a computation whether it
succeeds or not: of each step that reads, and of what comes behind it.
-/

namespace Fluvora.Fallible

variable {σ ε α β : Type} {s t : σ} {b : β}

theorem run_ensure_bind_eq_ok {p : Prop} [Decidable p] {e : ε} {f : Unit → Fallible σ ε β} :
    (ensure p e >>= f).run s = (.ok b, t) ↔ p ∧ (f ()).run s = (.ok b, t) := by
  rw [run_ensure_bind]
  split_ifs with h
  · simp [h]
  · simp [h]

theorem run_ofExcept_bind_eq_ok {r : Except ε α} {f : α → Fallible σ ε β} :
    (ofExcept r >>= f).run s = (.ok b, t) ↔ ∃ a, r = .ok a ∧ (f a).run s = (.ok b, t) := by
  rw [run_ofExcept_bind]
  rcases r with e | a
  · simp
  · simp

theorem run_ofOption_bind_eq_ok {o : Option α} {e : ε} {f : α → Fallible σ ε β} :
    (ofOption o e >>= f).run s = (.ok b, t) ↔ ∃ a, o = some a ∧ (f a).run s = (.ok b, t) := by
  rw [run_ofOption_bind]
  rcases o with _ | a
  · simp
  · simp

theorem run_pure_eq_ok {a b : α} :
    (pure a : Fallible σ ε α).run s = (.ok b, t) ↔ a = b ∧ s = t := by
  rw [run_pure, Prod.mk.injEq, Except.ok.injEq]

/-! ## Either outcome -/

variable {Outcome : Except ε β × σ → Prop}

theorem run_ensure_bind_cases {p : Prop} [Decidable p] {e : ε} {f : Unit → Fallible σ ε β}
    (hfail : Outcome (.error e, s)) (h : p → Outcome ((f ()).run s)) :
    Outcome ((ensure p e >>= f).run s) := by
  rw [run_ensure_bind]
  split_ifs with hp
  · exact h hp
  · exact hfail

theorem run_ofExcept_bind_cases {r : Except ε α} {f : α → Fallible σ ε β}
    (hfail : ∀ e, r = .error e → Outcome (.error e, s))
    (h : ∀ a, r = .ok a → Outcome ((f a).run s)) : Outcome ((ofExcept r >>= f).run s) := by
  rw [run_ofExcept_bind]
  rcases r with e | a
  · exact hfail e rfl
  · exact h a rfl

end Fluvora.Fallible

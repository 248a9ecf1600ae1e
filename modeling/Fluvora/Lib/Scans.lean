import Mathlib

/-!
# Scans of a buffer

A scan reads a buffer from a position on and comes to an end position, or fails because the buffer is
too short.  It never reads behind its end, and more input does not change what it finds.  The `Scan`
lemmas are the rules for putting scans together; `Scan.error_of_front` is what they are for: a part of
the input that ends in front of the scan's end is refused.
-/

namespace Fluvora.Scans

variable {α β γ ε : Type}

/-- A scan from `start` on; `stop` is the end position that its result tells. -/
structure Scan (short : ε) (start : ℕ) (stop : β → ℕ) (scan : List α → Except ε β) : Prop where
  within : ∀ {input b}, start ≤ input.length → scan input = .ok b → stop b ≤ input.length
  extend : ∀ {front input b}, front <+: input → scan front = .ok b → scan input = .ok b
  error : ∀ {input e}, scan input = .error e → e = short

namespace Scan

variable {short : ε} {start : ℕ} {stop : β → ℕ} {stop' : γ → ℕ}

theorem pure {b : β} (h : stop b = start) : Scan short start stop (fun _ : List α => .ok b) where
  within := by
    rintro input _ hstart ⟨⟩
    rwa [h]
  extend := fun _ h => h
  error := nofun

theorem bind {f : List α → Except ε β} {g : β → List α → Except ε γ}
    (hf : Scan short start stop f) (hg : ∀ b, Scan short (stop b) stop' (g b)) :
    Scan short start stop' (fun input => f input >>= fun b => g b input) where
  within := by
    intro input c hstart h
    cases hfirst : f input with
    | error e => simp [hfirst, Bind.bind, Except.bind] at h
    | ok b =>
      rw [hfirst] at h
      exact (hg b).within (hf.within hstart hfirst) h
  extend := by
    intro front input c hpart h
    cases hfirst : f front with
    | error e => simp [hfirst, Bind.bind, Except.bind] at h
    | ok b =>
      rw [hfirst] at h
      rw [hf.extend hpart hfirst]
      exact (hg b).extend hpart h
  error := by
    intro input e h
    cases hfirst : f input with
    | error e' =>
      rw [hfirst] at h
      cases h
      exact hf.error hfirst
    | ok b =>
      rw [hfirst] at h
      exact (hg b).error h

theorem ite {p : Prop} [Decidable p] {f g : List α → Except ε β} (hf : Scan short start stop f)
    (hg : Scan short start stop g) :
    Scan short start stop (fun input => if p then f input else g input) := by
  by_cases hp : p
  · simpa only [if_pos hp] using hf
  · simpa only [if_neg hp] using hg

/-- Reading one element. -/
theorem element (position : ℕ) :
    Scan short position (fun _ : α => position + 1)
      (fun input => input[position]?.elim (.error short) .ok) where
  within := by
    intro input b _ h
    cases hat : input[position]? with
    | none => simp [hat] at h
    | some a => exact (List.getElem?_eq_some_iff.mp hat).1
  extend := by
    intro front input b hpart h
    obtain ⟨rest, rfl⟩ := hpart
    cases hfront : front[position]? with
    | none => simp [hfront] at h
    | some a =>
      rw [hfront] at h
      rw [List.getElem?_append_left (List.getElem?_eq_some_iff.mp hfront).1, hfront]
      exact h
  error := by
    intro input e h
    cases hat : input[position]? with
    | none =>
      rw [hat] at h
      cases h
      rfl
    | some a => simp [hat] at h

/-- Requiring that a position lies inside. -/
theorem inside (position : ℕ) :
    Scan short start (fun _ : Unit => position)
      (fun input : List α => if position < input.length then .ok () else .error short) where
  within := by
    intro input b _ h
    split_ifs at h with hlt
    exact hlt.le
  extend := by
    intro front input b hpart h
    have hle := hpart.length_le
    split_ifs at h with hlt
    rw [if_pos (by omega)]
  error := by
    intro input e h
    split_ifs at h
    cases h
    rfl

/-- A part of the input that ends in front of the scan's end is refused. -/
theorem error_of_front {scan : List α → Except ε β} (h : Scan short start stop scan)
    {front input : List α} {b : β} (hpart : front <+: input) (hstart : start ≤ front.length)
    (hstop : front.length < stop b) (hscan : scan input = .ok b) : scan front = .error short := by
  cases hresult : scan front with
  | error e => rw [h.error hresult]
  | ok b' =>
    have heq := h.extend hpart hresult
    rw [hscan, Except.ok.injEq] at heq
    have hle := h.within hstart hresult
    rw [← heq] at hle
    omega

end Scan

/-! ## Counted items -/

/-- Where the last of some items ends, each of which is one element and as many more behind it as that
element says. -/
def itemsEnd (more : α → ℕ) : ℕ → List α → Option ℕ
  | 0, _ => some 0
  | _ + 1, [] => none
  | count + 1, item :: rest =>
      (itemsEnd more count (rest.drop (more item))).map (· + 1 + more item)

theorem itemsEnd_append {more : α → ℕ} {count stop : ℕ} {input : List α}
    (h : itemsEnd more count input = some stop) (behind : List α) :
    itemsEnd more count (input ++ behind) = some stop := by
  induction count generalizing input stop with
  | zero => exact h
  | succ count ih =>
    cases input with
    | nil => cases h
    | cons item rest =>
      rw [itemsEnd, Option.map_eq_some_iff] at h
      obtain ⟨last, hlast, rfl⟩ := h
      rw [List.cons_append, itemsEnd]
      by_cases hinside : more item ≤ rest.length
      · rw [List.drop_append_of_le_length hinside, ih hlast, Option.map_some]
      · rw [List.drop_of_length_le (by omega)] at hlast
        cases count with
        | zero =>
          rw [itemsEnd] at hlast ⊢
          rw [hlast, Option.map_some]
        | succ count => cases hlast

/-- What ends in front of the input's end is found in a part that reaches as far. -/
theorem itemsEnd_of_append {more : α → ℕ} {count stop : ℕ} {input behind : List α}
    (h : itemsEnd more count (input ++ behind) = some stop) (hstop : stop ≤ input.length) :
    itemsEnd more count input = some stop := by
  induction count generalizing input stop with
  | zero => exact h
  | succ count ih =>
    cases input with
    | nil =>
      rw [List.length_nil, Nat.le_zero] at hstop
      cases behind with
      | nil => exact h
      | cons item rest =>
        rw [List.nil_append, itemsEnd, Option.map_eq_some_iff] at h
        obtain ⟨last, -, hsum⟩ := h
        omega
    | cons item rest =>
      rw [List.cons_append, itemsEnd, Option.map_eq_some_iff] at h
      obtain ⟨last, hlast, hsum⟩ := h
      rw [List.length_cons] at hstop
      rw [List.drop_append_of_le_length (by omega)] at hlast
      rw [itemsEnd, ih hlast (by rw [List.length_drop]; omega), Option.map_some, hsum]

end Fluvora.Scans

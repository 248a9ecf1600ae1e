import Mathlib

/-!
# Fencing by generations

A resource is assigned again and again, each time under a generation that tells the new assignment
from the old ones.  A ledger knows the current assignment of each resource and what has been handed
out for it, and counts on from the current generation; when there is none, it begins at 1.

`Sound` is what makes a generation a fence: the current one is above everything else that was handed
out.  A change keeps it if it does not begin anew after something was handed out
(`Sound.apply`), and this is the only way to lose it (`forall_handed_lt_next_iff`).  `Moves` is what
one call of a system may do to its ledger.
-/

namespace Fluvora.Fencing

/-- An assignment of a resource: its generation, and how many there were before it. -/
structure Assignment where
  generation : ℕ
  number : ℕ
deriving DecidableEq

structure Ledger (κ : Type) where
  current : κ → Option Assignment
  handed : κ → List Assignment
  count : ℕ

inductive Change (κ : Type)
  | assign (key : κ)
  | hand (key : κ)
  | remove (key : κ)

namespace Ledger

variable {κ : Type} (ledger : Ledger κ)

/-- The generation of the next assignment. -/
def next (key : κ) : ℕ := ((ledger.current key).map (·.generation)).getD 0 + 1

def apply [DecidableEq κ] : Change κ → Ledger κ
  | .assign key => { ledger with
      current := Function.update ledger.current key (some ⟨ledger.next key, ledger.count⟩)
      count := ledger.count + 1 }
  | .hand key => { ledger with
      handed := Function.update ledger.handed key
        (ledger.handed key ++ (ledger.current key).toList) }
  | .remove key => { ledger with current := Function.update ledger.current key none }

/-- The change does not begin anew what was handed out before. -/
def Continues : Change κ → Prop
  | .assign key => ledger.current key = none → ledger.handed key = []
  | _ => True

/-- Assignments are numbered below the count, and have positive generations. -/
def Counted (assignment : Assignment) : Prop :=
  0 < assignment.generation ∧ assignment.number < ledger.count

structure Sound : Prop where
  current : ∀ {key assignment}, ledger.current key = some assignment → ledger.Counted assignment
  handed : ∀ {key assignment}, assignment ∈ ledger.handed key → ledger.Counted assignment
  newest : ∀ {key current}, ledger.current key = some current →
    ∀ earlier ∈ ledger.handed key, earlier = current ∨ earlier.generation < current.generation
  distinct : ∀ {key first second}, first ∈ ledger.handed key → second ∈ ledger.handed key →
    first.generation = second.generation → first = second

variable {ledger}

theorem next_of_none {key : κ} (h : ledger.current key = none) : ledger.next key = 1 := by
  rw [next, h]
  rfl

theorem next_of_some {key : κ} {assignment : Assignment} (h : ledger.current key = some assignment) :
    ledger.next key = assignment.generation + 1 := by
  rw [next, h]
  rfl

theorem Counted.apply [DecidableEq κ] {assignment : Assignment} (h : ledger.Counted assignment)
    (change : Change κ) : (ledger.apply change).Counted assignment := by
  refine ⟨h.1, ?_⟩
  have hlt := h.2
  cases change with
  | assign key => exact Nat.lt_succ_of_lt hlt
  | hand key => exact hlt
  | remove key => exact hlt

/-- The next generation is above all that was handed out, unless it begins anew. -/
theorem Sound.forall_handed_lt_next_iff (h : ledger.Sound) (key : κ) :
    (∀ earlier ∈ ledger.handed key, earlier.generation < ledger.next key) ↔
      (ledger.current key = none → ledger.handed key = []) := by
  cases hcurrent : ledger.current key with
  | none =>
    rw [next_of_none hcurrent]
    constructor
    · intro hlt _
      refine List.eq_nil_iff_forall_not_mem.mpr fun earlier hearlier => ?_
      have hpositive := (h.handed hearlier).1
      have hone := hlt earlier hearlier
      omega
    · intro hnil earlier hearlier
      rw [hnil rfl] at hearlier
      cases hearlier
  | some current =>
    rw [next_of_some hcurrent]
    refine iff_of_true ?_ nofun
    intro earlier hearlier
    rcases h.newest hcurrent earlier hearlier with heq | hlt
    · rw [heq]
      exact Nat.lt_succ_self _
    · exact Nat.lt_succ_of_lt hlt

/-- Who was handed out the current generation was handed out the current assignment. -/
theorem Sound.eq_current (h : ledger.Sound) {key : κ} {current : Assignment}
    (hcurrent : ledger.current key = some current) {earlier : Assignment}
    (hearlier : earlier ∈ ledger.handed key) (hgeneration : earlier.generation = current.generation) :
    earlier = current := by
  rcases h.newest hcurrent earlier hearlier with heq | hlt
  · exact heq
  · exact absurd hgeneration hlt.ne

theorem Sound.generation_le (h : ledger.Sound) {key : κ} {current : Assignment}
    (hcurrent : ledger.current key = some current) {earlier : Assignment}
    (hearlier : earlier ∈ ledger.handed key) : earlier.generation ≤ current.generation := by
  rcases h.newest hcurrent earlier hearlier with heq | hlt
  · rw [heq]
  · exact hlt.le

/-- A change that continues what was handed out keeps the ledger sound. -/
theorem Sound.apply [DecidableEq κ] (h : ledger.Sound) {change : Change κ}
    (hcontinues : ledger.Continues change) : (ledger.apply change).Sound := by
  cases change with
  | assign key =>
    refine ⟨?_, fun hearlier => (h.handed hearlier).apply _, ?_, h.distinct⟩
    · intro other assignment hcurrent
      by_cases hother : other = key
      · subst hother
        simp only [Ledger.apply, Function.update_self, Option.some.injEq] at hcurrent
        subst hcurrent
        exact ⟨Nat.succ_pos _, Nat.lt_succ_self _⟩
      · simp only [Ledger.apply, Function.update_of_ne hother] at hcurrent
        exact (h.current hcurrent).apply _
    · intro other current hcurrent earlier hearlier
      by_cases hother : other = key
      · subst hother
        simp only [Ledger.apply, Function.update_self, Option.some.injEq] at hcurrent
        subst hcurrent
        exact .inr ((h.forall_handed_lt_next_iff other).mpr hcontinues earlier hearlier)
      · simp only [Ledger.apply, Function.update_of_ne hother] at hcurrent
        exact h.newest hcurrent earlier hearlier
  | hand key =>
    have hmem {other : κ} {earlier : Assignment}
        (hearlier : earlier ∈ (ledger.apply (.hand key)).handed other) :
        earlier ∈ ledger.handed other ∨ ledger.current other = some earlier := by
      by_cases hother : other = key
      · subst hother
        simpa [Ledger.apply, Option.mem_toList] using hearlier
      · simp only [Ledger.apply, Function.update_of_ne hother] at hearlier
        exact .inl hearlier
    refine ⟨fun hcurrent => h.current hcurrent, ?_, ?_, ?_⟩
    · intro other earlier hearlier
      rcases hmem hearlier with hbefore | hnow
      · exact h.handed hbefore
      · exact h.current hnow
    · intro other current hcurrent earlier hearlier
      rcases hmem hearlier with hbefore | hnow
      · exact h.newest hcurrent earlier hbefore
      · exact .inl (Option.some.inj (hnow.symm.trans hcurrent))
    · intro other first second hfirst hsecond hgeneration
      rcases hmem hfirst with hfirst | hfirst
      · rcases hmem hsecond with hsecond | hsecond
        · exact h.distinct hfirst hsecond hgeneration
        · exact h.eq_current hsecond hfirst hgeneration
      · rcases hmem hsecond with hsecond | hsecond
        · exact (h.eq_current hfirst hsecond hgeneration.symm).symm
        · exact Option.some.inj (hfirst.symm.trans hsecond)
  | remove key =>
    have hstill {other : κ} {assignment : Assignment}
        (hcurrent : (ledger.apply (.remove key)).current other = some assignment) :
        ledger.current other = some assignment := by
      by_cases hother : other = key
      · subst hother
        simp [Ledger.apply] at hcurrent
      · simpa [Ledger.apply, Function.update_of_ne hother] using hcurrent
    exact ⟨fun hcurrent => h.current (hstill hcurrent), fun hearlier => h.handed hearlier,
      fun hcurrent => h.newest (hstill hcurrent), h.distinct⟩

theorem sound_empty : (Ledger.mk (fun _ : κ => none) (fun _ => []) 0).Sound :=
  ⟨nofun, nofun, nofun, nofun⟩

/-! ## Calls -/

/-- What a call may do: it begins anew only the resources that `begins` names, and removes only those
that `removes` names. -/
inductive Moves [DecidableEq κ] (ledger : Ledger κ) (begins removes : κ → Prop) : Ledger κ → Prop
  | same : Moves ledger begins removes ledger
  | handed (key : κ) : Moves ledger begins removes (ledger.apply (.hand key))
  | assigned {key : κ} (hbegins : ledger.current key = none → begins key) :
      Moves ledger begins removes (ledger.apply (.assign key))
  | assignedHanded {key : κ} (hbegins : ledger.current key = none → begins key) :
      Moves ledger begins removes ((ledger.apply (.assign key)).apply (.hand key))
  | removed {key : κ} (hremoves : removes key) :
      Moves ledger begins removes (ledger.apply (.remove key))

variable [DecidableEq κ] {begins removes : κ → Prop} {after : Ledger κ} {key : κ}
  {assignment : Assignment}

/-- A call that begins nothing anew that was handed out keeps the ledger sound. -/
theorem Sound.moves (h : ledger.Sound) (hmoves : ledger.Moves begins removes after)
    (hbegins : ∀ key, begins key → ledger.handed key = []) : after.Sound := by
  have hassign {key : κ} (hnone : ledger.current key = none → begins key) :
      (ledger.apply (.assign key)).Sound := by
    have hcontinues : ledger.Continues (.assign key) := fun hcurrent => hbegins key (hnone hcurrent)
    exact h.apply hcontinues
  cases hmoves with
  | same => exact h
  | handed key => exact h.apply trivial
  | assigned hnone => exact hassign hnone
  | assignedHanded hnone => exact (hassign hnone).apply trivial
  | removed hremoves => exact h.apply trivial

theorem current_assign {other : κ}
    (h : (ledger.apply (.assign other)).current key = some assignment) :
    ledger.current key = some assignment ∨
      key = other ∧ assignment.generation = ledger.next other := by
  by_cases hother : key = other
  · subst hother
    simp only [Ledger.apply, Function.update_self, Option.some.injEq] at h
    exact .inr ⟨rfl, congrArg Assignment.generation h.symm⟩
  · simp only [Ledger.apply, Function.update_of_ne hother] at h
    exact .inl h

/-- The current assignment after a call is the one before, or a new one. -/
theorem Moves.current (hmoves : ledger.Moves begins removes after)
    (h : after.current key = some assignment) :
    ledger.current key = some assignment ∨
      assignment.generation = ledger.next key ∧ (ledger.current key = none → begins key) := by
  have hassign {other : κ} (hbegins : ledger.current other = none → begins other)
      (h : (ledger.apply (.assign other)).current key = some assignment) :
      ledger.current key = some assignment ∨
        assignment.generation = ledger.next key ∧ (ledger.current key = none → begins key) := by
    rcases current_assign h with hsame | ⟨rfl, hgeneration⟩
    · exact .inl hsame
    · exact .inr ⟨hgeneration, hbegins⟩
  cases hmoves with
  | same => exact .inl h
  | handed other => exact .inl h
  | assigned hbegins => exact hassign hbegins h
  | assignedHanded hbegins => exact hassign hbegins h
  | @removed other hremoves =>
    by_cases hother : key = other
    · subst hother
      simp [Ledger.apply] at h
    · simp only [Ledger.apply, Function.update_of_ne hother] at h
      exact .inl h

/-- An assignment that is gone after a call was removed by it. -/
theorem Moves.removes_of_none (hmoves : ledger.Moves begins removes after)
    (hsome : ledger.current key = some assignment) (hnone : after.current key = none) :
    removes key := by
  have hkeeps {other : κ} : (ledger.apply (.assign other)).current key ≠ none := by
    by_cases hother : key = other
    · subst hother
      simp [Ledger.apply]
    · simp [Ledger.apply, Function.update_of_ne hother, hsome]
  cases hmoves with
  | same => exact absurd (hsome.symm.trans hnone) nofun
  | handed other => exact absurd (hsome.symm.trans hnone) nofun
  | assigned hbegins => exact absurd hnone hkeeps
  | assignedHanded hbegins => exact absurd hnone hkeeps
  | @removed other hremoves =>
    by_cases hother : key = other
    · exact hother ▸ hremoves
    · simp [Ledger.apply, Function.update_of_ne hother, hsome] at hnone

end Ledger

end Fluvora.Fencing

import Mathlib

/-!
# What a run produces

A deterministic system takes a step for every call, and some of the calls produce something.
`produced` lists what a run produces, in order.  `pairwise_produced` is the rule for what any two
products of a run have to do with each other: what is still to come is ahead of the state, whatever
it is.  `Always` and `Each` speak of all states and of all calls of a run; `always_iff_each` is the
rule for a property that one kind of call breaks at once and every other keeps.
-/

namespace Fluvora.Runs

variable {σ κ α : Type} (step : σ → κ → σ) (produce : σ → κ → Option α)

/-- What the calls of a run produce, one after the other. -/
def produced : σ → List κ → List α
  | _, [] => []
  | s, call :: calls => (produce s call).toList ++ produced (step s call) calls

/-- A property of every state that a run goes through. -/
def Always (P : σ → Prop) : σ → List κ → Prop
  | s, [] => P s
  | s, call :: calls => P s ∧ Always P (step s call) calls

/-- A condition on every call of a run and the state in which it is made. -/
def Each (Q : σ → κ → Prop) : σ → List κ → Prop
  | _, [] => True
  | s, call :: calls => Q s call ∧ Each Q (step s call) calls

variable {step produce} {I P : σ → Prop} {Q R : σ → κ → Prop}

theorem Always.head {s : σ} {calls : List κ} (h : Always step P s calls) : P s := by
  cases calls with
  | nil => exact h
  | cons call calls => exact h.1

theorem Always.foldl {s : σ} {calls : List κ} (h : Always step P s calls) :
    P (calls.foldl step s) := by
  induction calls generalizing s with
  | nil => exact h
  | cons call calls ih => exact ih h.2

instance Each.decidable [h : ∀ s call, Decidable (Q s call)] :
    ∀ (s : σ) (calls : List κ), Decidable (Each step Q s calls)
  | _, [] => inferInstanceAs (Decidable True)
  | s, call :: calls =>
      have := Each.decidable (step s call) calls
      inferInstanceAs (Decidable (Q s call ∧ Each step Q (step s call) calls))

theorem Always.imp (himp : ∀ s, I s → P s) {s : σ} {calls : List κ}
    (h : Always step I s calls) : Always step P s calls := by
  induction calls generalizing s with
  | nil => exact himp s h
  | cons call calls ih => exact ⟨himp s h.1, ih h.2⟩

/-- What a call that meets the condition keeps holds all along a run of such calls. -/
theorem always_of_each (hkeep : ∀ s call, I s → Q s call → I (step s call)) {s : σ} (h : I s)
    {calls : List κ} (heach : Each step Q s calls) : Always step I s calls := by
  induction calls generalizing s with
  | nil => exact h
  | cons call calls ih => exact ⟨h, ih (hkeep s call h heach.1) heach.2⟩

/-- What every call keeps holds all along every run. -/
theorem always_of_step (hstep : ∀ s call, I s → I (step s call)) {s : σ} (h : I s)
    (calls : List κ) : Always step I s calls := by
  induction calls generalizing s with
  | nil => exact h
  | cons call calls ih => exact ⟨h, ih (hstep s call h)⟩

theorem Each.of_always (hcall : ∀ s call, I s → Q s call → R s call) {s : σ} {calls : List κ}
    (halways : Always step I s calls) (heach : Each step Q s calls) : Each step R s calls := by
  induction calls generalizing s with
  | nil => trivial
  | cons call calls ih => exact ⟨hcall s call halways.1 heach.1, ih halways.2 heach.2⟩

/-- A call that meets the condition keeps the invariant, and any other breaks the property. -/
theorem always_iff_each (hproperty : ∀ s, I s → P s)
    (hkeep : ∀ s call, I s → Q s call → I (step s call))
    (hbreak : ∀ s call, I s → P (step s call) → Q s call) {s : σ} (h : I s) (calls : List κ) :
    Always step P s calls ↔ Each step Q s calls := by
  constructor
  · intro halways
    induction calls generalizing s with
    | nil => trivial
    | cons call calls ih =>
      have hcall := hbreak s call h halways.2.head
      exact ⟨hcall, ih (hkeep s call h hcall) halways.2⟩
  · intro heach
    exact (always_of_each hkeep h heach).imp hproperty

theorem each_of_forall {Allowed : κ → Prop} {calls : List κ}
    (hallowed : ∀ call ∈ calls, Allowed call) (s : σ) :
    Each step (fun _ call => Allowed call) s calls := by
  induction calls generalizing s with
  | nil => trivial
  | cons call calls ih =>
    rw [List.forall_mem_cons] at hallowed
    exact ⟨hallowed.1, ih hallowed.2 _⟩

theorem Each.imp (himp : ∀ s call, Q s call → R s call) {s : σ} {calls : List κ}
    (h : Each step Q s calls) : Each step R s calls := by
  induction calls generalizing s with
  | nil => trivial
  | cons call calls ih => exact ⟨himp s call h.1, ih h.2⟩

/-- Two conditions that are the same as long as one of them is met. -/
theorem each_iff_each (hkeep : ∀ s call, I s → R s call → I (step s call))
    (hcall : ∀ s call, I s → (Q s call ↔ R s call)) {s : σ} (h : I s) (calls : List κ) :
    Each step Q s calls ↔ Each step R s calls := by
  induction calls generalizing s with
  | nil => exact Iff.rfl
  | cons call calls ih =>
    unfold Each
    rw [hcall s call h]
    exact and_congr_right fun hR => ih (hkeep s call h hR)

theorem each_append {s : σ} {before after : List κ} :
    Each step Q s (before ++ after) ↔
      Each step Q s before ∧ Each step Q (before.foldl step s) after := by
  induction before generalizing s with
  | nil => simp [Each]
  | cons call before ih =>
    rw [List.cons_append, Each, Each, ih, List.foldl_cons, and_assoc]

theorem Each.last {s : σ} {calls : List κ} {call : κ} (h : Each step Q s (calls ++ [call])) :
    Q (calls.foldl step s) call := by
  induction calls generalizing s with
  | nil => exact h.1
  | cons first calls ih => exact ih h.2

theorem Each.and {s : σ} {calls : List κ} (hQ : Each step Q s calls) (hR : Each step R s calls) :
    Each step (fun s call => Q s call ∧ R s call) s calls := by
  induction calls generalizing s with
  | nil => trivial
  | cons call calls ih => exact ⟨⟨hQ.1, hR.1⟩, ih hQ.2 hR.2⟩

/-! ## What a run produces -/

section

variable (Ahead : σ → α → Prop) {Related : α → α → Prop}
  (hkeep : ∀ s call, I s → Q s call → I (step s call))
  (hnow : ∀ s call a, I s → Q s call → produce s call = some a → Ahead s a)
  (hback : ∀ s call a, I s → Q s call → Ahead (step s call) a → Ahead s a)

include hkeep hnow hback

/-- Everything that a run produces is ahead of the state in which the run starts. -/
theorem ahead_of_mem_produced_of_each {s : σ} (h : I s) {calls : List κ}
    (heach : Each step Q s calls) {a : α} (ha : a ∈ produced step produce s calls) : Ahead s a := by
  induction calls generalizing s with
  | nil => simp [produced] at ha
  | cons call calls ih =>
    rw [produced, List.mem_append, Option.mem_toList] at ha
    rcases ha with ha | ha
    · exact hnow s call a h heach.1 ha
    · exact hback s call a h heach.1 (ih (hkeep s call h heach.1) heach.2 ha)

/-- If what a call produces is related to everything ahead of the next state, then any two products
of a run are related. -/
theorem pairwise_produced_of_each
    (hnext : ∀ s call a b, I s → Q s call → produce s call = some a → Ahead (step s call) b →
      Related a b)
    {s : σ} (h : I s) {calls : List κ} (heach : Each step Q s calls) :
    (produced step produce s calls).Pairwise Related := by
  induction calls generalizing s with
  | nil => exact List.Pairwise.nil
  | cons call calls ih =>
    have hkept := hkeep s call h heach.1
    rw [produced, List.pairwise_append]
    refine ⟨?_, ih hkept heach.2, ?_⟩
    · cases produce s call <;> simp
    · intro a ha b hb
      rw [Option.mem_toList] at ha
      have hahead := ahead_of_mem_produced_of_each Ahead hkeep hnow hback hkept heach.2 hb
      exact hnext s call a b h heach.1 ha hahead

end

/-- The same without an invariant, for calls that are allowed whatever the state is. -/
theorem ahead_of_mem_produced (Ahead : σ → α → Prop) {Allowed : κ → Prop}
    (hnow : ∀ s call a, Allowed call → produce s call = some a → Ahead s a)
    (hback : ∀ s call a, Ahead (step s call) a → Ahead s a)
    {calls : List κ} (hallowed : ∀ call ∈ calls, Allowed call) {s : σ} {a : α}
    (ha : a ∈ produced step produce s calls) : Ahead s a := by
  refine ahead_of_mem_produced_of_each (I := fun _ => True) (Q := fun _ call => Allowed call) Ahead
    (fun _ _ _ _ => trivial) ?_ ?_ trivial (each_of_forall hallowed s) ha
  · exact fun s call a _ hcall => hnow s call a hcall
  · exact fun s call a _ _ => hback s call a

theorem pairwise_produced (Ahead : σ → α → Prop) {Allowed : κ → Prop} {Related : α → α → Prop}
    (hnow : ∀ s call a, Allowed call → produce s call = some a → Ahead s a)
    (hback : ∀ s call a, Ahead (step s call) a → Ahead s a)
    (hnext : ∀ s call a b, Allowed call → produce s call = some a → Ahead (step s call) b →
      Related a b)
    {calls : List κ} (hallowed : ∀ call ∈ calls, Allowed call) (s : σ) :
    (produced step produce s calls).Pairwise Related := by
  refine pairwise_produced_of_each (I := fun _ => True) (Q := fun _ call => Allowed call) Ahead
    (fun _ _ _ _ => trivial) ?_ ?_ ?_ trivial (each_of_forall hallowed s)
  · exact fun s call a _ hcall => hnow s call a hcall
  · exact fun s call a _ _ => hback s call a
  · exact fun s call a b _ hcall => hnext s call a b hcall

end Fluvora.Runs

import Mathlib

/-!
# Leases and their log

Items are claimed by owners for a time, and an owner settles what it has claimed.  A log of these
events, newest first, tells who holds an item, which is the last owner to claim it as long as it has
not settled it, and which leases their owners have not settled.  `Agrees` says that what is stored with
an item is what the log tells of it; the rules of this file keep that, and with it `Exclusive`: no two
leases of an item are unexpired at once.
-/

namespace Fluvora.LeaseLog

structure Lease (ι κ : Type) where
  item : ι
  owner : κ
  expires : ℕ

inductive Event (ι κ : Type)
  | claimed (lease : Lease ι κ)
  | settled (item : ι) (owner : κ)

variable {ι κ : Type} [DecidableEq ι] [DecidableEq κ]

/-- Who claimed the item last, unless it has settled it since. -/
def holder (item : ι) : List (Event ι κ) → Option κ
  | [] => none
  | .claimed lease :: log => if lease.item = item then some lease.owner else holder item log
  | .settled settled owner :: log =>
      if settled = item ∧ holder item log = some owner then none else holder item log

/-- The leases that their owners have not settled, newest first. -/
def leases : List (Event ι κ) → List (Lease ι κ)
  | [] => []
  | .claimed lease :: log => lease :: leases log
  | .settled item owner :: log =>
      (leases log).filter fun lease => ¬ (lease.item = item ∧ lease.owner = owner)

/-- No two leases of an item are unexpired. -/
def Exclusive (now : ℕ) (log : List (Event ι κ)) : Prop :=
  (leases log).Pairwise fun newer older =>
    newer.item = older.item → ¬ (now < newer.expires ∧ now < older.expires)

/-- What is stored with an item is what the log tells of it. -/
structure Agrees (now : ℕ) (log : List (Event ι κ)) (item : ι) (owner : Option κ)
    (expires : Option ℕ) : Prop where
  holder_eq : owner = holder item log
  leases_eq : ∀ lease ∈ leases log, lease.item = item → now < lease.expires →
    owner = some lease.owner ∧ expires = some lease.expires

/-- An item that was never claimed. -/
structure Unclaimed (log : List (Event ι κ)) (item : ι) : Prop where
  holder_eq : holder item log = none
  leases_ne : ∀ lease ∈ leases log, lease.item ≠ item

/-- One owner claims some items, all for the same time. -/
def claimAll (items : List ι) (owner : κ) (expires : ℕ) (log : List (Event ι κ)) :
    List (Event ι κ) :=
  items.map (fun item => .claimed ⟨item, owner, expires⟩) ++ log

variable {now time expires : ℕ} {log : List (Event ι κ)} {item other : ι} {owner : κ}
  {items : List ι} {stored : Option κ} {expiry : Option ℕ}

theorem holder_claimAll :
    holder item (claimAll items owner expires log) =
      if item ∈ items then some owner else holder item log := by
  induction items with
  | nil => rfl
  | cons first items ih =>
    change (if first = item then some owner else holder item (claimAll items owner expires log)) = _
    rw [ih]
    by_cases hfirst : first = item
    · rw [if_pos hfirst, if_pos (List.mem_cons.mpr (.inl hfirst.symm))]
    · rw [if_neg hfirst]
      by_cases hmem : item ∈ items
      · rw [if_pos hmem, if_pos (List.mem_cons_of_mem _ hmem)]
      · rw [if_neg hmem, if_neg]
        simpa [hmem] using Ne.symm hfirst

theorem leases_claimAll :
    leases (claimAll items owner expires log) =
      items.map (fun item => ⟨item, owner, expires⟩) ++ leases log := by
  induction items with
  | nil => rfl
  | cons first items ih =>
    change _ :: leases (claimAll items owner expires log) = _
    rw [ih]
    rfl

theorem mem_leases_settled {lease : Lease ι κ} :
    lease ∈ leases (.settled item owner :: log) ↔
      lease ∈ leases log ∧ ¬ (lease.item = item ∧ lease.owner = owner) := by
  change lease ∈ (leases log).filter _ ↔ _
  rw [List.mem_filter, decide_eq_true_iff]

theorem Agrees.later (h : Agrees now log item stored expiry) (hlater : now ≤ time) :
    Agrees time log item stored expiry :=
  ⟨h.holder_eq, fun lease hlease hitem hexpires => h.leases_eq lease hlease hitem (by omega)⟩

/-- An item whose lease has expired is claimed. -/
theorem Agrees.claimed (h : Agrees now log item stored expiry) (hexpired : ∀ time ∈ expiry, time ≤ now)
    (hmem : item ∈ items) :
    Agrees now (claimAll items owner expires log) item (some owner) (some expires) := by
  refine ⟨by rw [holder_claimAll, if_pos hmem], fun lease hlease hitem hunexpired => ?_⟩
  rw [leases_claimAll, List.mem_append] at hlease
  rcases hlease with hnew | hold
  · obtain ⟨claimed, -, rfl⟩ := List.mem_map.mp hnew
    exact ⟨rfl, rfl⟩
  · obtain ⟨-, huntil⟩ := h.leases_eq lease hold hitem hunexpired
    have hle := hexpired _ (by rw [huntil]; rfl)
    omega

theorem Agrees.claimed_other (h : Agrees now log item stored expiry) (hmem : item ∉ items) :
    Agrees now (claimAll items owner expires log) item stored expiry := by
  refine ⟨by rw [holder_claimAll, if_neg hmem, h.holder_eq], fun lease hlease hitem hunexpired => ?_⟩
  rw [leases_claimAll, List.mem_append] at hlease
  rcases hlease with hnew | hold
  · obtain ⟨claimed, hclaimed, rfl⟩ := List.mem_map.mp hnew
    exact absurd (hitem ▸ hclaimed) hmem
  · exact h.leases_eq lease hold hitem hunexpired

/-- The holder settles the item. -/
theorem Agrees.settled (h : Agrees now log item (some owner) expiry) :
    Agrees now (.settled item owner :: log) item none none := by
  have hheld : holder item log = some owner := h.holder_eq.symm
  refine ⟨?_, fun lease hlease hitem hunexpired => ?_⟩
  · change none = if item = item ∧ holder item log = some owner then none else _
    rw [if_pos ⟨rfl, hheld⟩]
  · obtain ⟨hold, hnot⟩ := mem_leases_settled.mp hlease
    obtain ⟨howner, -⟩ := h.leases_eq lease hold hitem hunexpired
    exact absurd ⟨hitem, (Option.some.inj howner).symm⟩ hnot

/-- Whoever does not hold an item settles nothing of it. -/
theorem Agrees.settled_other (h : Agrees now log item stored expiry)
    (hother : other = item → stored ≠ some owner) :
    Agrees now (.settled other owner :: log) item stored expiry := by
  refine ⟨?_, fun lease hlease => h.leases_eq lease (mem_leases_settled.mp hlease).1⟩
  change stored = if other = item ∧ holder item log = some owner then none
    else holder item log
  rw [if_neg, h.holder_eq]
  rintro ⟨hsame, hheld⟩
  exact hother hsame (h.holder_eq.trans hheld)

theorem Unclaimed.agrees (h : Unclaimed log item) : Agrees now log item none none :=
  ⟨h.holder_eq.symm, fun lease hlease hitem => absurd hitem (h.leases_ne lease hlease)⟩

theorem Unclaimed.claimed (h : Unclaimed log item) (hmem : item ∉ items) :
    Unclaimed (claimAll items owner expires log) item := by
  refine ⟨by rw [holder_claimAll, if_neg hmem, h.holder_eq], fun lease hlease hitem => ?_⟩
  rw [leases_claimAll, List.mem_append] at hlease
  rcases hlease with hnew | hold
  · obtain ⟨claimed, hclaimed, rfl⟩ := List.mem_map.mp hnew
    exact hmem (hitem ▸ hclaimed)
  · exact h.leases_ne lease hold hitem

theorem Unclaimed.settled (h : Unclaimed log item) : Unclaimed (.settled other owner :: log) item := by
  refine ⟨?_, fun lease hlease => h.leases_ne lease (mem_leases_settled.mp hlease).1⟩
  change (if other = item ∧ holder item log = some owner then none
    else holder item log) = none
  rw [h.holder_eq]
  exact ite_self _

theorem Exclusive.later (h : Exclusive now log) (hlater : now ≤ time) : Exclusive time log :=
  h.imp fun hnow hitem hboth => hnow hitem ⟨by omega, by omega⟩

theorem Exclusive.settled (h : Exclusive now log) : Exclusive now (.settled item owner :: log) :=
  h.filter _

/-- Different items whose leases have expired are claimed. -/
theorem Exclusive.claimed (h : Exclusive now log) (hnodup : items.Nodup)
    (hexpired : ∀ item ∈ items, ∀ lease ∈ leases log, lease.item = item → lease.expires ≤ now) :
    Exclusive now (claimAll items owner expires log) := by
  unfold Exclusive
  rw [leases_claimAll, List.pairwise_append]
  refine ⟨?_, h, ?_⟩
  · rw [List.pairwise_map]
    exact hnodup.imp fun hne hitem => absurd hitem hne
  · intro newer hnewer older holder hitem hboth
    obtain ⟨claimed, hclaimed, rfl⟩ := List.mem_map.mp hnewer
    have hle := hexpired claimed hclaimed older holder hitem.symm
    omega

/-- The lease of an item has expired if the time that is stored with it has passed. -/
theorem Agrees.expired (h : Agrees now log item stored expiry) (hpassed : ∀ time ∈ expiry, time ≤ now)
    {lease : Lease ι κ} (hlease : lease ∈ leases log) (hitem : lease.item = item) :
    lease.expires ≤ now := by
  by_contra hlt
  obtain ⟨-, huntil⟩ := h.leases_eq lease hlease hitem (by omega)
  have hle := hpassed _ (by rw [huntil]; rfl)
  omega

end Fluvora.LeaseLog

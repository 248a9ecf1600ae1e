import Fluvora.Lib.Runs
import Fluvora.Sfu.DownTrack

/-!
# The choice of a layer

`LayerSelector` of `crates/webrtc/congestion-control` commits to a layer that the target bitrate
affords: a downgrade at once, an upgrade only after two seconds in which every call could afford the
same layer with 20% to spare.  The time at which such a streak began is the pending upgrade.

A call without options returns before it looks at the pending upgrade, so it does not end a streak;
an unknown layer is taken to cost `u64::MAX`, the cost of an option that may be there; and the product
behind the 20% saturates.  `Clear` says that a call meets none of the three, and
`select_run_sound` what holds in every run of such calls.

The sort of the options is unstable: a call comes with one of the orders that the sort may return.
-/

namespace Fluvora.CongestionControl

open Sfu

/-- One layer and the bitrate that it takes. -/
structure LayerOption where
  layer : Layer
  minimumBitrateBps : UInt64
deriving DecidableEq

def LayerOption.rate (option : LayerOption) : ℕ := option.minimumBitrateBps.toNat

/-- One call of `select`. -/
structure Selection where
  now : ℕ
  options : List LayerOption
  /-- The options in the order of their rates. -/
  sorted : List LayerOption
  targetBitrateBps : UInt64
  perm : sorted.Perm options
  ordered : sorted.Pairwise fun first second => first.rate ≤ second.rate

def Selection.target (call : Selection) : ℕ := call.targetBitrateBps.toNat

structure LayerSelector where
  current : Option Layer
  /-- The layer of a pending upgrade, and since when. -/
  upgradeCandidate : Option (Layer × ℕ)
  upgradeHold : ℕ
  upgradeHeadroomPercent : ℕ
deriving DecidableEq

def maxU64 : ℕ := 2 ^ 64 - 1

def layerRate (options : List LayerOption) (layer : Layer) : Option ℕ :=
  (options.find? fun option => option.layer = layer).map LayerOption.rate

namespace Selection

/-- The highest option that the target affords, or else the lowest one. -/
def affordable (call : Selection) : Option LayerOption :=
  (call.sorted.reverse.find? fun option => option.rate ≤ call.target).or call.sorted.head?

end Selection

namespace LayerSelector

/-- Two seconds, in nanoseconds. -/
def initial : LayerSelector := ⟨none, none, 2000000000, 120⟩

def select (s : LayerSelector) (call : Selection) : LayerSelector × Option Layer :=
  match call.affordable with
  | none => (s, none)
  | some affordable =>
      match s.current with
      | none => ({ s with current := some affordable.layer }, some affordable.layer)
      | some current =>
          let currentRate := (layerRate call.sorted current).getD maxU64
          if affordable.rate < currentRate then
            ({ s with current := some affordable.layer, upgradeCandidate := none },
              some affordable.layer)
          else if affordable.rate = currentRate then
            ({ s with upgradeCandidate := none }, some current)
          else
            let required := min (affordable.rate * s.upgradeHeadroomPercent) maxU64 / 100
            if call.target < required then ({ s with upgradeCandidate := none }, some current)
            else
              match s.upgradeCandidate with
              | some (layer, since) =>
                  if layer = affordable.layer ∧ s.upgradeHold ≤ call.now - since then
                    ({ s with current := some affordable.layer, upgradeCandidate := none },
                      some affordable.layer)
                  else if layer = affordable.layer then (s, some current)
                  else
                    ({ s with upgradeCandidate := some (affordable.layer, call.now) }, some current)
              | none =>
                  ({ s with upgradeCandidate := some (affordable.layer, call.now) }, some current)

def afterSelect (s : LayerSelector) (call : Selection) : LayerSelector := (s.select call).1

def run (s : LayerSelector) (calls : List Selection) : LayerSelector := calls.foldl afterSelect s

end LayerSelector

/-! ## What a call says -/

/-- The headroom of 20%, in whole bits. -/
def requiredFor (rate : ℕ) : ℕ := rate * 120 / 100

/-- The target of a call affords an option of the layer with headroom. -/
def Affords (call : Selection) (layer : Layer) : Prop :=
  ∃ rate, layerRate call.sorted layer = some rate ∧ requiredFor rate ≤ call.target

/-- The calls whose effect the source does not mean. -/
structure Clear (s : LayerSelector) (call : Selection) : Prop where
  /-- Without options there is no pending upgrade. -/
  pending : call.options = [] → s.upgradeCandidate = none
  /-- If the current layer is not an option, the affordable one is below the rate that stands for it. -/
  known : ∀ current affordable, s.current = some current → call.affordable = some affordable →
    layerRate call.sorted current = none → affordable.rate < maxU64
  /-- The saturated product asks for no less than the headroom. -/
  headroom : ∀ affordable, call.affordable = some affordable →
    min (affordable.rate * 120) maxU64 / 100 ≤ call.target →
      requiredFor affordable.rate ≤ call.target

/-- What a call does with the layer, behind the calls of a run. -/
structure Sound (s : LayerSelector) (earlier : List Selection) (call : Selection) : Prop where
  /-- A layer is returned whenever there is one, and it is the committed one. -/
  returned : (s.select call).2 = none ↔ call.options = []
  committed : ∀ layer, (s.select call).2 = some layer → (s.afterSelect call).current = some layer
  /-- It is an option that the target affords, or the lowest one. -/
  option : ∀ layer, (s.select call).2 = some layer →
    ∃ rate, layerRate call.sorted layer = some rate ∧
      (rate ≤ call.target ∨ ∀ option ∈ call.options, rate ≤ option.rate)
  /-- A layer that the target does not afford is left for a lower one, if there is one. -/
  downgrade : ∀ current rate, s.current = some current →
    layerRate call.sorted current = some rate → call.target < rate →
    (∃ option ∈ call.options, option.rate < rate) →
      ∃ layer lower, (s.afterSelect call).current = some layer ∧
        layerRate call.sorted layer = some lower ∧ lower < rate
  /-- A change to a higher layer ends a window of the hold time in which every call affords it. -/
  upgrade : ∀ current rate layer higher, s.current = some current →
    layerRate call.sorted current = some rate → (s.afterSelect call).current = some layer →
    layerRate call.sorted layer = some higher → rate < higher →
      ∃ before first window, earlier = before ++ first :: window ∧
        first.now + 2000000000 ≤ call.now ∧
        ∀ other ∈ first :: window ++ [call], Affords other layer

/-! ## The affordable option -/

theorem affordable_eq_none {call : Selection} : call.affordable = none ↔ call.options = [] := by
  rw [Selection.affordable, Option.or_eq_none_iff, List.head?_eq_none_iff]
  have hperm := call.perm.length_eq
  constructor
  · rintro ⟨-, hsorted⟩
    rw [hsorted] at hperm
    exact List.length_eq_zero_iff.mp hperm.symm
  · intro hoptions
    rw [hoptions] at hperm
    have hsorted := List.length_eq_zero_iff.mp hperm
    rw [hsorted]
    exact ⟨rfl, rfl⟩

/-- The rate of a layer is that of its lowest option. -/
theorem exists_layerRate (call : Selection) {option : LayerOption} (h : option ∈ call.sorted) :
    ∃ rate, layerRate call.sorted option.layer = some rate ∧ rate ≤ option.rate := by
  have hordered := call.ordered
  generalize call.sorted = sorted at *
  induction sorted with
  | nil => cases h
  | cons first sorted ih =>
    obtain ⟨hfirst, hordered⟩ := List.pairwise_cons.mp hordered
    by_cases hlayer : first.layer = option.layer
    · refine ⟨first.rate, by simp [layerRate, hlayer], ?_⟩
      obtain rfl | hmem := List.mem_cons.mp h
      · exact le_rfl
      · exact hfirst option hmem
    · obtain rfl | hmem := List.mem_cons.mp h
      · exact absurd rfl hlayer
      · obtain ⟨rate, hrate, hle⟩ := ih hmem hordered
        exact ⟨rate, by rw [layerRate, List.find?_cons_of_neg (by simpa using hlayer)]; exact hrate,
          hle⟩

theorem affordable_spec {call : Selection} {option : LayerOption}
    (h : call.affordable = some option) :
    option ∈ call.sorted ∧
      (option.rate ≤ call.target ∨ ∀ other ∈ call.sorted, option.rate ≤ other.rate) := by
  rw [Selection.affordable, Option.or_eq_some_iff] at h
  obtain hfind | ⟨-, hhead⟩ := h
  · exact ⟨List.mem_reverse.mp (List.mem_of_find?_eq_some hfind), .inl (by
      simpa using List.find?_some hfind)⟩
  · refine ⟨List.mem_of_head? hhead, .inr fun other hother => ?_⟩
    obtain ⟨rest, hsorted⟩ := List.head?_eq_some_iff.mp hhead
    have hordered := call.ordered
    rw [hsorted] at hordered hother
    obtain rfl | hmem := List.mem_cons.mp hother
    · exact le_rfl
    · exact (List.pairwise_cons.mp hordered).1 other hmem

/-! ## The branches of a call -/

/-- What a call leaves behind and returns, with the tests on the way there. -/
inductive Selected (s : LayerSelector) (call : Selection) : LayerSelector × Option Layer → Prop
  | idle (h : call.affordable = none) : Selected s call (s, none)
  | first {option : LayerOption} (h : call.affordable = some option) (hcurrent : s.current = none) :
      Selected s call ({ s with current := some option.layer }, some option.layer)
  | lowered {option : LayerOption} {current : Layer} (h : call.affordable = some option)
      (hcurrent : s.current = some current)
      (hrate : option.rate < (layerRate call.sorted current).getD maxU64) :
      Selected s call
        ({ s with current := some option.layer, upgradeCandidate := none }, some option.layer)
  | kept {option : LayerOption} {current : Layer} (h : call.affordable = some option)
      (hcurrent : s.current = some current)
      (hrate : (layerRate call.sorted current).getD maxU64 ≤ option.rate) :
      Selected s call ({ s with upgradeCandidate := none }, some current)
  | raised {option : LayerOption} {current : Layer} {since : ℕ}
      (h : call.affordable = some option) (hcurrent : s.current = some current)
      (hrate : (layerRate call.sorted current).getD maxU64 < option.rate)
      (htarget : min (option.rate * s.upgradeHeadroomPercent) maxU64 / 100 ≤ call.target)
      (hcandidate : s.upgradeCandidate = some (option.layer, since))
      (hhold : s.upgradeHold ≤ call.now - since) :
      Selected s call
        ({ s with current := some option.layer, upgradeCandidate := none }, some option.layer)
  | waiting {option : LayerOption} {current : Layer} {since : ℕ}
      (h : call.affordable = some option) (hcurrent : s.current = some current)
      (hrate : (layerRate call.sorted current).getD maxU64 < option.rate)
      (htarget : min (option.rate * s.upgradeHeadroomPercent) maxU64 / 100 ≤ call.target)
      (hcandidate : s.upgradeCandidate = some (option.layer, since)) :
      Selected s call (s, some current)
  | started {option : LayerOption} {current : Layer} (h : call.affordable = some option)
      (hcurrent : s.current = some current)
      (hrate : (layerRate call.sorted current).getD maxU64 < option.rate)
      (htarget : min (option.rate * s.upgradeHeadroomPercent) maxU64 / 100 ≤ call.target) :
      Selected s call
        ({ s with upgradeCandidate := some (option.layer, call.now) }, some current)

theorem selected_select (s : LayerSelector) (call : Selection) : Selected s call (s.select call) := by
  unfold LayerSelector.select
  split
  next h => exact .idle h
  next option h =>
    split
    next hcurrent => exact .first h hcurrent
    next current hcurrent =>
      dsimp only
      split_ifs with hlower hlevel hblocked
      · exact .lowered h hcurrent hlower
      · exact .kept h hcurrent hlevel.ge
      · exact .kept h hcurrent (by omega)
      · have hrate := lt_of_le_of_ne (not_lt.mp hlower) (Ne.symm hlevel)
        have htarget := not_lt.mp hblocked
        split
        next layer since hcandidate =>
          split_ifs with hhold hsame
          · obtain ⟨rfl, hhold⟩ := hhold
            exact .raised h hcurrent hrate htarget hcandidate hhold
          · subst hsame
            exact .waiting h hcurrent hrate htarget hcandidate
          · exact .started h hcurrent hrate htarget
        next => exact .started h hcurrent hrate htarget

/-! ## The streak in front of an upgrade -/

/-- The pending upgrade began at a call from which on all of them afford its layer. -/
structure Streak (earlier : List Selection) (s : LayerSelector) : Prop where
  hold : s.upgradeHold = 2000000000
  percent : s.upgradeHeadroomPercent = 120
  fresh : s.current = none → s.upgradeCandidate = none
  window : ∀ layer since, s.upgradeCandidate = some (layer, since) →
    ∃ before first window, earlier = before ++ first :: window ∧ first.now = since ∧
      ∀ other ∈ first :: window, Affords other layer

theorem streak_initial : Streak [] .initial where
  hold := rfl
  percent := rfl
  fresh _ := rfl
  window _ _ h := by cases h

theorem affords_of_affordable {s : LayerSelector} {call : Selection} {option : LayerOption}
    (hclear : Clear s call) (hpercent : s.upgradeHeadroomPercent = 120)
    (h : call.affordable = some option)
    (htarget : min (option.rate * s.upgradeHeadroomPercent) maxU64 / 100 ≤ call.target) :
    Affords call option.layer := by
  rw [hpercent] at htarget
  have hrequired := hclear.headroom option h htarget
  obtain ⟨rate, hrate, hle⟩ := exists_layerRate call (affordable_spec h).1
  have hmono : requiredFor rate ≤ requiredFor option.rate :=
    Nat.div_le_div_right (Nat.mul_le_mul_right 120 hle)
  exact ⟨rate, hrate, hmono.trans hrequired⟩

theorem Streak.afterSelect {earlier : List Selection} {s : LayerSelector} {call : Selection}
    (hstreak : Streak earlier s) (hclear : Clear s call) :
    Streak (earlier ++ [call]) (s.afterSelect call) := by
  obtain ⟨hhold, hpercent, hfresh, hwindow⟩ := hstreak
  unfold LayerSelector.afterSelect
  have hselected := selected_select s call
  generalize s.select call = result at *
  cases hselected with
  | idle h =>
    have hnone := hclear.pending (affordable_eq_none.mp h)
    exact ⟨hhold, hpercent, hfresh, fun layer since h => by rw [hnone] at h; cases h⟩
  | first h hcurrent =>
    have hnone := hfresh hcurrent
    exact ⟨hhold, hpercent, nofun, fun layer since h => by rw [hnone] at h; cases h⟩
  | lowered => exact ⟨hhold, hpercent, nofun, nofun⟩
  | kept => exact ⟨hhold, hpercent, fun _ => rfl, nofun⟩
  | raised => exact ⟨hhold, hpercent, nofun, nofun⟩
  | @waiting option current since h hcurrent hrate htarget hcandidate =>
    refine ⟨hhold, hpercent, hfresh, fun layer since' hlayer => ?_⟩
    obtain ⟨before, first, window, hearlier, hfirst, hall⟩ := hwindow layer since' hlayer
    rw [hcandidate, Option.some.injEq, Prod.mk.injEq] at hlayer
    obtain ⟨rfl, -⟩ := hlayer
    have hnow := affords_of_affordable hclear hpercent h htarget
    refine ⟨before, first, window ++ [call], by simp [hearlier], hfirst, ?_⟩
    rw [← List.cons_append]
    exact List.forall_mem_append.mpr ⟨hall, by simpa using hnow⟩
  | @started option current h hcurrent hrate htarget =>
    refine ⟨hhold, hpercent, fun hnone => ?_, fun layer since hlayer => ?_⟩
    · rw [hcurrent] at hnone
      cases hnone
    · cases hlayer
      have hnow := affords_of_affordable hclear hpercent h htarget
      exact ⟨earlier, call, [], rfl, rfl, by simpa using hnow⟩

/-! ## The layer of a call -/

/-- The target affords the rate, or no option is lower. -/
def Sustainable (call : Selection) (rate : ℕ) : Prop :=
  rate ≤ call.target ∨ ∀ option ∈ call.options, rate ≤ option.rate

theorem sustainable_of_le {call : Selection} {option : LayerOption} {rate : ℕ}
    (h : call.affordable = some option) (hle : rate ≤ option.rate) : Sustainable call rate := by
  obtain ⟨-, htarget | hlowest⟩ := affordable_spec h
  · exact .inl (hle.trans htarget)
  · exact .inr fun other hother => hle.trans (hlowest other (call.perm.mem_iff.mpr hother))

theorem affordable_layerRate {call : Selection} {option : LayerOption}
    (h : call.affordable = some option) :
    ∃ rate, layerRate call.sorted option.layer = some rate ∧ Sustainable call rate := by
  obtain ⟨rate, hrate, hle⟩ := exists_layerRate call (affordable_spec h).1
  exact ⟨rate, hrate, sustainable_of_le h hle⟩

/-- A layer that is not lowered is an option. -/
theorem current_layerRate {s : LayerSelector} {call : Selection} {option : LayerOption}
    {current : Layer} (hclear : Clear s call) (h : call.affordable = some option)
    (hcurrent : s.current = some current)
    (hle : (layerRate call.sorted current).getD maxU64 ≤ option.rate) :
    ∃ rate, layerRate call.sorted current = some rate ∧ Sustainable call rate := by
  rcases hrate : layerRate call.sorted current with _ | rate
  · have hlt := hclear.known current option hcurrent h hrate
    rw [hrate, Option.getD_none] at hle
    omega
  · rw [hrate, Option.getD_some] at hle
    exact ⟨rate, rfl, sustainable_of_le h hle⟩

variable {s : LayerSelector} {call : Selection} {result : LayerSelector × Option Layer}

theorem Selected.returned (h : Selected s call result) : result.2 = none ↔ call.options = [] := by
  rw [← affordable_eq_none]
  cases h with
  | idle h => simp [h]
  | first h | lowered h | kept h | raised h | waiting h | started h => simp [h]

theorem Selected.committed (h : Selected s call result) {layer : Layer}
    (hlayer : result.2 = some layer) : result.1.current = some layer := by
  cases h with
  | idle => cases hlayer
  | first | lowered | raised => exact hlayer
  | kept _ hcurrent | waiting _ hcurrent | started _ hcurrent => exact hcurrent.trans hlayer

theorem Selected.option (h : Selected s call result) (hclear : Clear s call) {layer : Layer}
    (hlayer : result.2 = some layer) :
    ∃ rate, layerRate call.sorted layer = some rate ∧ Sustainable call rate := by
  cases h with
  | idle => cases hlayer
  | first h | lowered h | raised h =>
    cases hlayer
    exact affordable_layerRate h
  | kept h hcurrent hrate =>
    cases hlayer
    exact current_layerRate hclear h hcurrent hrate
  | waiting h hcurrent hrate | started h hcurrent hrate =>
    cases hlayer
    exact current_layerRate hclear h hcurrent hrate.le

theorem Selected.downgrade (h : Selected s call result) {current : Layer} {rate : ℕ}
    (hcurrent : s.current = some current) (hrate : layerRate call.sorted current = some rate)
    (htarget : call.target < rate) (hlower : ∃ option ∈ call.options, option.rate < rate) :
    ∃ layer lower, result.1.current = some layer ∧
      layerRate call.sorted layer = some lower ∧ lower < rate := by
  obtain ⟨cheaper, hcheaper, hlt⟩ := hlower
  -- the affordable option is lower, so the call cannot keep the layer
  have hoption {option : LayerOption} (h : call.affordable = some option) : option.rate < rate := by
    obtain ⟨-, hle | hlowest⟩ := affordable_spec h
    · exact hle.trans_lt htarget
    · exact (hlowest cheaper (call.perm.mem_iff.mpr hcheaper)).trans_lt hlt
  cases h with
  | idle h =>
    rw [affordable_eq_none.mp h] at hcheaper
    cases hcheaper
  | first h hnone =>
    rw [hcurrent] at hnone
    cases hnone
  | lowered h hsame =>
    obtain ⟨lower, hlower, hle⟩ := exists_layerRate call (affordable_spec h).1
    exact ⟨_, lower, rfl, hlower, hle.trans_lt (hoption h)⟩
  | kept h hsame hge =>
    rw [hcurrent, Option.some.injEq] at hsame
    subst hsame
    rw [hrate, Option.getD_some] at hge
    exact absurd (hoption h) (not_lt.mpr hge)
  | raised h hsame hge | waiting h hsame hge | started h hsame hge =>
    rw [hcurrent, Option.some.injEq] at hsame
    subst hsame
    rw [hrate, Option.getD_some] at hge
    exact absurd (hoption h) (not_lt.mpr hge.le)

theorem Selected.upgrade (h : Selected s call result) {earlier : List Selection}
    (hstreak : Streak earlier s) (hclear : Clear s call) {current layer : Layer}
    {rate higher : ℕ} (hcurrent : s.current = some current)
    (hrate : layerRate call.sorted current = some rate) (hlayer : result.1.current = some layer)
    (hhigher : layerRate call.sorted layer = some higher) (hlt : rate < higher) :
    ∃ before first window, earlier = before ++ first :: window ∧
      first.now + 2000000000 ≤ call.now ∧
      ∀ other ∈ first :: window ++ [call], Affords other layer := by
  -- a layer that stays has the same rate
  have hstay (h : s.current = some layer) : False := by
    rw [hcurrent, Option.some.injEq] at h
    subst h
    rw [hrate, Option.some.injEq] at hhigher
    omega
  cases h with
  | idle | kept | waiting | started => exact absurd hlayer hstay
  | first h hnone =>
    rw [hcurrent] at hnone
    cases hnone
  | lowered h hsame hlower =>
    cases hlayer
    rw [hcurrent, Option.some.injEq] at hsame
    subst hsame
    obtain ⟨lower, hlower', hle⟩ := exists_layerRate call (affordable_spec h).1
    rw [hrate, Option.getD_some] at hlower
    rw [hhigher, Option.some.injEq] at hlower'
    omega
  | @raised option _ since h hsame hraise htarget hcandidate hhold =>
    cases hlayer
    obtain ⟨before, first, window, hearlier, hfirst, hall⟩ := hstreak.window _ since hcandidate
    have hnow := affords_of_affordable hclear hstreak.percent h htarget
    rw [hstreak.hold] at hhold
    refine ⟨before, first, window, hearlier, by omega, ?_⟩
    exact List.forall_mem_append.mpr ⟨hall, by simpa using hnow⟩

/-! ## Runs -/

theorem sound_of_streak {earlier : List Selection} (hstreak : Streak earlier s)
    (hclear : Clear s call) : Sound s earlier call := by
  have h := selected_select s call
  exact {
    returned := h.returned
    committed := fun _ => h.committed
    option := fun _ => h.option hclear
    downgrade := fun _ _ => h.downgrade
    upgrade := fun _ _ _ _ => h.upgrade hstreak hclear }

theorem sound_of_each {calls : List Selection} {earlier : List Selection} {s : LayerSelector}
    (hstreak : Streak earlier s) (hclear : Runs.Each LayerSelector.afterSelect Clear s calls)
    {before : List Selection} {call : Selection} {later : List Selection}
    (hcalls : calls = before ++ call :: later) :
    Sound (s.run before) (earlier ++ before) call := by
  induction before generalizing earlier s calls with
  | nil =>
    rw [hcalls] at hclear
    rw [List.append_nil]
    exact sound_of_streak hstreak hclear.1
  | cons first before ih =>
    rw [hcalls] at hclear
    have hnext := ih (hstreak.afterSelect hclear.1) hclear.2 rfl
    rwa [List.append_assoc] at hnext

/-- In a run whose calls all mean what they say, every call returns an option that its target affords
or the lowest one, leaves a layer that is not afforded, and goes up only behind a window of two
seconds in which every call affords the new layer with 20% to spare. -/
theorem select_run_sound (calls : List Selection)
    (hclear : Runs.Each LayerSelector.afterSelect Clear .initial calls) :
    ∀ before call later, calls = before ++ call :: later →
      Sound (LayerSelector.initial.run before) before call :=
  fun _ _ _ hcalls => sound_of_each streak_initial hclear hcalls

/-- A call whose options come in the order of their rates. -/
def Selection.inOrder (now : ℕ) (options : List LayerOption) (targetBitrateBps : UInt64)
    (ordered : options.Pairwise fun first second => first.rate ≤ second.rate) : Selection :=
  ⟨now, options, options, targetBitrateBps, .refl _, ordered⟩

def sampleOptions : List LayerOption := [⟨⟨0, 0⟩, 100⟩, ⟨⟨1, 1⟩, 1000⟩]

def sampleCalls : List Selection :=
  [.inOrder 0 sampleOptions 100 (by decide), .inOrder 1000000000 sampleOptions 1200 (by decide),
    .inOrder 3000000000 sampleOptions 1200 (by decide)]

theorem clear_sampleCalls : Runs.Each LayerSelector.afterSelect Clear .initial sampleCalls := by
  have hclear (s : LayerSelector) (call : Selection) (hoptions : call.options ≠ [])
      (hknown : ∀ option ∈ call.sorted, option.rate * 120 ≤ maxU64) : Clear s call := by
    have hrate {option : LayerOption} (h : call.affordable = some option) :=
      hknown option (affordable_spec h).1
    refine ⟨fun h => absurd h hoptions, fun _ option _ h _ => ?_, fun option h htarget => ?_⟩
    · have hle := hrate h
      unfold maxU64 at *
      omega
    · rwa [min_eq_left (hrate h)] at htarget
  exact ⟨hclear _ _ (by decide) (by decide), hclear _ _ (by decide) (by decide),
    hclear _ _ (by decide) (by decide), trivial⟩

theorem select_run_sound_sample :
    Sound
      (LayerSelector.initial.run
        [.inOrder 0 sampleOptions 100 (by decide), .inOrder 1000000000 sampleOptions 1200 (by decide)])
      [.inOrder 0 sampleOptions 100 (by decide), .inOrder 1000000000 sampleOptions 1200 (by decide)]
      (.inOrder 3000000000 sampleOptions 1200 (by decide)) :=
  select_run_sound sampleCalls clear_sampleCalls _ _ [] rfl

/-- A call without options in the two seconds in front of an upgrade does not stop it; a layer that is
no option is kept if the only option costs `u64::MAX`; and of the highest rates the headroom is less
than 20%. -/
theorem select_not_sound :
    ¬ Sound
      (LayerSelector.initial.run
        [.inOrder 0 sampleOptions 100 (by decide), .inOrder 1000000000 sampleOptions 1200 (by decide),
          .inOrder 2000000000 [] 0 (by decide)])
      [.inOrder 0 sampleOptions 100 (by decide), .inOrder 1000000000 sampleOptions 1200 (by decide),
        .inOrder 2000000000 [] 0 (by decide)]
      (.inOrder 3000000000 sampleOptions 1200 (by decide)) ∧
    ¬ Sound
      (LayerSelector.initial.run [.inOrder 0 [⟨⟨0, 0⟩, 100⟩] 100 (by decide)])
      [.inOrder 0 [⟨⟨0, 0⟩, 100⟩] 100 (by decide)]
      (.inOrder 1 [⟨⟨1, 1⟩, 18446744073709551615⟩] 18446744073709551615 (by decide)) ∧
    ¬ Sound
      (LayerSelector.initial.run
        [.inOrder 0 [⟨⟨0, 0⟩, 100⟩, ⟨⟨1, 1⟩, 9223372036854775808⟩] 100 (by decide),
          .inOrder 0 [⟨⟨0, 0⟩, 100⟩, ⟨⟨1, 1⟩, 9223372036854775808⟩] 9223372036854775808 (by decide)])
      [.inOrder 0 [⟨⟨0, 0⟩, 100⟩, ⟨⟨1, 1⟩, 9223372036854775808⟩] 100 (by decide),
        .inOrder 0 [⟨⟨0, 0⟩, 100⟩, ⟨⟨1, 1⟩, 9223372036854775808⟩] 9223372036854775808 (by decide)]
      (.inOrder 2000000000 [⟨⟨0, 0⟩, 100⟩, ⟨⟨1, 1⟩, 9223372036854775808⟩] 9223372036854775808
        (by decide)) := by
  refine ⟨fun h => ?_, fun h => ?_, fun h => ?_⟩
  · obtain ⟨before, first, window, hearlier, -, hall⟩ :=
      h.upgrade ⟨0, 0⟩ 100 ⟨1, 1⟩ 1000 (by decide) (by decide) (by decide) (by decide) (by decide)
    have hlast := congrArg List.getLast? hearlier
    rw [List.getLast?_append_cons] at hlast
    have hmem := List.mem_of_getLast? hlast.symm
    obtain ⟨rate, hrate, -⟩ := hall _ (List.mem_append_left _ hmem)
    cases hrate
  · obtain ⟨rate, hrate, -⟩ := h.option ⟨0, 0⟩ (by decide)
    cases hrate
  · obtain ⟨before, first, window, -, -, hall⟩ :=
      h.upgrade ⟨0, 0⟩ 100 ⟨1, 1⟩ 9223372036854775808 (by decide) (by decide) (by decide)
        (by decide) (by decide)
    obtain ⟨rate, hrate, hle⟩ := hall _ (List.mem_append_right _ List.mem_cons_self)
    cases hrate
    exact absurd hle (by decide)

end Fluvora.CongestionControl

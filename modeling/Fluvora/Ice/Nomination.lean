import Fluvora.Ice.Agent
import Fluvora.Stun.Building

/-!
# Checks and nominations

What a datagram does to an agent (`handleDatagram_outcome`).  It is refused, answered without an
effect, or it is an authenticated check, which records its pair of addresses.  A response to a check
always fits a STUN message (`successResponse_eq_ok`), so a recorded check never fails afterwards.
The selected pair moves exactly when the check nominates (`Nominates`), and then to the addresses of
the datagram.
-/

namespace Fluvora.Ice

open Fallible
open Stun (Message MessageBuilder Digests)

namespace Agent

variable {digests : Digests} {agent : Agent} {now : ℕ} {localAddr remote : SocketAddr}
  {input : Bytes}

/-! ## Responses -/

theorem length_encodeXorAddress_le (address : SocketAddr) (transactionId : Stun.TransactionId) :
    (Stun.encodeXorAddress address transactionId).length ≤ 20 := by
  unfold Stun.encodeXorAddress
  split
  · simp
  · simp [Stun.xorOctets, Stun.addressMask]

theorem length_wires_sealIntegrity_le (digests : Digests) (messageType : Stun.MessageType)
    (transactionId : Stun.TransactionId) (attributes : List (Stun.AttributeType × Bytes))
    (integrity : Option Stun.Integrity) :
    (Stun.wires (Stun.sealIntegrity digests messageType transactionId attributes
      integrity)).length ≤ (Stun.wires attributes).length + 36 := by
  match integrity with
  | none => exact Nat.le_add_right _ _
  | some (.sha1 key) =>
    rw [Stun.sealIntegrity, Stun.length_wires_sealWith fun _ => Vector.length_toList]
    exact Nat.add_le_add_left (by decide) _
  | some (.sha256 key) =>
    rw [Stun.sealIntegrity, Stun.length_wires_sealWith fun _ => Vector.length_toList]
    exact Nat.add_le_add_left (by decide) _

theorem length_wires_sealFingerprint_le (digests : Digests) (messageType : Stun.MessageType)
    (transactionId : Stun.TransactionId) (attributes : List (Stun.AttributeType × Bytes))
    (fingerprint : Bool) :
    (Stun.wires (Stun.sealFingerprint digests messageType transactionId attributes
      fingerprint)).length ≤ (Stun.wires attributes).length + 8 := by
  cases fingerprint with
  | false => exact Nat.le_add_right _ _
  | true =>
    have hvalue : ∀ input,
        (Bytes.ofU32 (digests.crc32 input ^^^ Stun.fingerprintXor)).length = 4 := fun _ => rfl
    rw [Stun.sealFingerprint, if_pos rfl, Stun.length_wires_sealWith hvalue]
    exact Nat.add_le_add_left (by decide) _

/-- The response to a check is always built. -/
theorem successResponse_eq_ok (digests : Digests) (agent : Agent) (message : Message)
    (remote : SocketAddr) (algorithm : IntegrityAlgorithm) :
    ∃ payload, agent.successResponse digests message remote algorithm = .ok payload := by
  have hvalue := length_encodeXorAddress_le remote message.transactionId
  have hpadding : Stun.padding
      (Stun.encodeXorAddress remote message.transactionId).length < 4 := Nat.mod_lt _ (by decide)
  have hbuilder : ∀ builder : MessageBuilder,
      builder.attributes =
        [(.xorMappedAddress, Stun.encodeXorAddress remote message.transactionId)] →
      ∃ payload, builder.build digests = .ok payload := by
    intro builder hattributes
    have hwire := Stun.length_wire .xorMappedAddress
      (Stun.encodeXorAddress remote message.transactionId)
    have hfingerprint := length_wires_sealFingerprint_le digests builder.messageType
      builder.transactionId (Stun.sealIntegrity digests builder.messageType builder.transactionId
        builder.attributes builder.integrity) builder.fingerprint
    have hintegrity := length_wires_sealIntegrity_le digests builder.messageType
      builder.transactionId builder.attributes builder.integrity
    rw [hattributes, Stun.wires_cons, Stun.wires_nil, List.append_nil, hwire, ← hattributes]
      at hintegrity
    refine ⟨_, Stun.build_eq_ok.mpr ⟨?_, ?_, rfl⟩⟩
    · rw [hattributes, List.forall_mem_singleton]
      dsimp only
      omega
    · unfold Stun.sealedAttributes
      omega
  unfold successResponse stunning
  simp only [Results.mapError_eq_ok]
  refine hbuilder _ ?_
  cases algorithm <;> rfl

/-! ## Candidate pairs -/

/-- The pair of the addresses is among the known ones. -/
def Knows (agent : Agent) (localAddr remote : SocketAddr) : Prop :=
  ∃ pair ∈ agent.pairs, pair.localAddr = localAddr ∧ pair.remote = remote

instance : Decidable (agent.Knows localAddr remote) :=
  inferInstanceAs (Decidable (∃ pair ∈ agent.pairs, _ ∧ _))

theorem touch_eq_none {priority : UInt32} {nominated : Bool} {pairs : List CandidatePair} :
    touch now localAddr remote priority nominated pairs = none ↔
      ∀ pair ∈ pairs, ¬(pair.localAddr = localAddr ∧ pair.remote = remote) := by
  induction pairs with
  | nil => simp [touch]
  | cons pair rest ih =>
    rw [touch, List.forall_mem_cons, ← ih]
    split_ifs with h
    · simp [h]
    · rw [Option.map_eq_none_iff]
      exact (and_iff_right h).symm

theorem addresses_of_touch {priority : UInt32} {nominated : Bool} {pairs : List CandidatePair}
    {found : CandidatePair × List CandidatePair}
    (h : touch now localAddr remote priority nominated pairs = some found) :
    found.1.localAddr = localAddr ∧ found.1.remote = remote := by
  induction pairs generalizing found with
  | nil => simp [touch] at h
  | cons pair rest ih =>
    rw [touch] at h
    split_ifs at h with hpair
    · cases h
      exact hpair
    · obtain ⟨inner, hinner, rfl⟩ := Option.map_eq_some_iff.mp h
      have hfound := ih hinner
      exact hfound

/-! ## Datagrams -/

/-- An authenticated check for which the agent has the pair, or room for it. -/
def Admits (digests : Digests) (agent : Agent) (localAddr remote : SocketAddr) (input : Bytes)
    (nominated : Bool) : Prop :=
  (∃ message algorithm priority,
    agent.examine digests localAddr remote input = .ok (.accept message algorithm priority) ∧
      message.useCandidate = nominated) ∧
  (agent.Knows localAddr remote ∨ agent.pairs.length < agent.configuration.maxCandidatePairs)

/-- A check with USE-CANDIDATE that the agent admits. -/
def Nominates (digests : Digests) (agent : Agent) (localAddr remote : SocketAddr)
    (input : Bytes) : Prop :=
  agent.Admits digests localAddr remote input true

/-- What one datagram does. -/
inductive Outcome (digests : Digests) (agent : Agent) (now : ℕ) (localAddr remote : SocketAddr)
    (input : Bytes) : Except IceError HandleOutput × Agent → Prop
  | ignored (result : Except IceError HandleOutput)
      (hevents : ∀ output, result = .ok output → output.events = [])
      (hrefused : ∀ nominated, ¬agent.Admits digests localAddr remote input nominated) :
      Outcome digests agent now localAddr remote input (result, agent)
  | full (hrefused : ∀ nominated, ¬agent.Admits digests localAddr remote input nominated) :
      Outcome digests agent now localAddr remote input
        (.error .candidatePairLimit, { agent with lastAuthenticated := some now })
  | checked (nominated : Bool) (pair : CandidatePair) (events : List Event) (payload : Bytes)
      (recorded : Agent)
      (hadmitted : agent.Admits digests localAddr remote input nominated)
      (hunique : ∀ other, agent.Admits digests localAddr remote input other → other = nominated)
      (haddresses : pair.localAddr = localAddr ∧ pair.remote = remote)
      (hstate : recorded.state = agent.state)
      (hselected : (nominated ∧ agent.selectedPair ≠ some pair) ∧ events = [.selectedPair pair] ∧
          recorded.selectedPair = some pair ∨
        ¬(nominated ∧ agent.selectedPair ≠ some pair) ∧ events = [] ∧
          recorded.selectedPair = agent.selectedPair) :
      Outcome digests agent now localAddr remote input
        (.ok ⟨⟨localAddr, remote, payload⟩, events ++ (recorded.transitionAfterCheck nominated).1⟩,
          (recorded.transitionAfterCheck nominated).2)

theorem findOrAddPair_outcome {priority : UInt32} {nominated : Bool} :
    (¬agent.Knows localAddr remote ∧ ¬agent.pairs.length < agent.configuration.maxCandidatePairs ∧
      (findOrAddPair now localAddr remote priority nominated).run agent =
        (.error .candidatePairLimit, agent)) ∨
    ((agent.Knows localAddr remote ∨
        agent.pairs.length < agent.configuration.maxCandidatePairs) ∧
      ∃ pair pairs, (pair.localAddr = localAddr ∧ pair.remote = remote) ∧
        (findOrAddPair now localAddr remote priority nominated).run agent =
          (.ok pair, { agent with pairs := pairs })) := by
  unfold findOrAddPair
  rw [run_get_bind]
  cases htouch : touch now localAddr remote priority nominated agent.pairs with
  | some found =>
    obtain ⟨pair, pairs⟩ := found
    have hknown : agent.Knows localAddr remote := by
      by_contra hunknown
      have hnone := (@touch_eq_none now localAddr remote priority nominated agent.pairs).mpr
        fun pair hpair haddresses => hunknown ⟨pair, hpair, haddresses⟩
      rw [htouch] at hnone
      cases hnone
    exact .inr ⟨.inl hknown, pair, pairs, addresses_of_touch htouch, rfl⟩
  | none =>
    have hunknown : ¬agent.Knows localAddr remote := by
      rintro ⟨pair, hpair, haddresses⟩
      exact touch_eq_none.mp htouch pair hpair haddresses
    dsimp only
    rw [run_ensure_bind]
    split_ifs with hroom
    · exact .inr ⟨.inr hroom, ⟨localAddr, remote, priority, nominated, now⟩, _, ⟨rfl, rfl⟩, rfl⟩
    · exact .inl ⟨hunknown, hroom, rfl⟩

/-- A check whose pair is found or added selects it if it nominates and another one, or an older
state of it, is selected. -/
theorem recordValidPair_outcome {priority : UInt32} {nominated : Bool} :
    (¬agent.Knows localAddr remote ∧ ¬agent.pairs.length < agent.configuration.maxCandidatePairs ∧
      (recordValidPair now localAddr remote priority nominated).run agent =
        (.error .candidatePairLimit, { agent with lastAuthenticated := some now })) ∨
    ((agent.Knows localAddr remote ∨
        agent.pairs.length < agent.configuration.maxCandidatePairs) ∧
      ∃ pair events recorded, (pair.localAddr = localAddr ∧ pair.remote = remote) ∧
        recorded.state = agent.state ∧
        ((nominated ∧ agent.selectedPair ≠ some pair) ∧ events = [.selectedPair pair] ∧
            recorded.selectedPair = some pair ∨
          ¬(nominated ∧ agent.selectedPair ≠ some pair) ∧ events = [] ∧
            recorded.selectedPair = agent.selectedPair) ∧
        (recordValidPair now localAddr remote priority nominated).run agent =
          (.ok events, recorded)) := by
  unfold recordValidPair
  rw [run_modify_bind]
  rcases @findOrAddPair_outcome { agent with lastAuthenticated := some now } now localAddr remote
    priority nominated with ⟨hunknown, hfull, hrun⟩ | ⟨hroom, pair, pairs, haddresses, hrun⟩
  · refine .inl ⟨hunknown, hfull, ?_⟩
    rw [run_bind, hrun]
  · refine .inr ⟨hroom, pair, ?_⟩
    rw [run_bind, hrun]
    dsimp only
    rw [run_get_bind]
    by_cases hselect : nominated ∧ agent.selectedPair ≠ some pair
    · rw [if_pos hselect]
      exact ⟨[.selectedPair pair],
        { agent with pairs := pairs, selectedPair := some pair, lastAuthenticated := some now },
        haddresses, rfl, .inl ⟨hselect, rfl, rfl⟩, rfl⟩
    · rw [if_neg hselect]
      exact ⟨[], { agent with pairs := pairs, lastAuthenticated := some now }, haddresses, rfl,
        .inr ⟨hselect, rfl, rfl⟩, rfl⟩

theorem events_errorOutput {builder : MessageBuilder} {algorithm : IntegrityAlgorithm}
    {output : HandleOutput}
    (h : agent.errorOutput digests builder algorithm localAddr remote = .ok output) :
    output.events = [] := by
  unfold errorOutput at h
  obtain ⟨payload, -, hreturn⟩ := Results.bind_eq_ok.mp h
  cases hreturn
  rfl

/-- Every branch that answers goes through `errorOutput`. -/
theorem events_semanticErrorResponse {message : Message} {algorithm : IntegrityAlgorithm}
    {output : HandleOutput}
    (h : agent.semanticErrorResponse digests message algorithm localAddr remote =
      .ok (some output)) : output.events = [] := by
  have hlast {builder : MessageBuilder}
      (hreturn : (do
        let output ← agent.errorOutput digests builder algorithm localAddr remote
        return some output) = Except.ok (some output)) : output.events = [] := by
    obtain ⟨answer, hanswer, hpure⟩ := Results.bind_eq_ok.mp hreturn
    cases hpure
    exact events_errorOutput hanswer
  unfold semanticErrorResponse at h
  dsimp only at h
  split_ifs at h with hunknown
  · obtain ⟨builder, -, hreturn⟩ := Results.bind_eq_ok.mp h
    exact hlast hreturn
  · obtain ⟨controlling, -, h⟩ := Results.bind_eq_ok.mp h
    obtain ⟨controlled, -, h⟩ := Results.bind_eq_ok.mp h
    split_ifs at h with hrole
    · obtain ⟨builder, -, hreturn⟩ := Results.bind_eq_ok.mp h
      exact hlast hreturn
    · obtain ⟨priority, -, h⟩ := Results.bind_eq_ok.mp h
      split_ifs at h with hpriority
      · obtain ⟨builder, -, hreturn⟩ := Results.bind_eq_ok.mp h
        exact hlast hreturn
      · cases h

theorem events_of_respond {output : HandleOutput}
    (h : agent.examine digests localAddr remote input = .ok (.respond output)) :
    output.events = [] := by
  unfold examine at h
  rw [Results.ite_error_eq_ok] at h
  obtain ⟨message, -, h⟩ := Results.bind_eq_ok.mp h.2
  obtain ⟨-, -, h⟩ := Results.bind_eq_ok.mp h
  obtain ⟨algorithm, -, h⟩ := Results.bind_eq_ok.mp h
  obtain ⟨answer, hanswer, h⟩ := Results.bind_eq_ok.mp h
  cases answer with
  | some answer =>
    cases h
    exact events_semanticErrorResponse hanswer
  | none =>
    obtain ⟨priority, -, h⟩ := Results.bind_eq_ok.mp h
    cases priority <;> cases h

theorem handleDatagram_outcome (digests : Digests) (agent : Agent) (now : ℕ)
    (localAddr remote : SocketAddr) (input : Bytes) :
    Outcome digests agent now localAddr remote input
      ((handleDatagram digests now localAddr remote input).run agent) := by
  unfold handleDatagram
  rw [run_get_bind, run_ofExcept_bind]
  match hexamine : agent.examine digests localAddr remote input with
  | .error error =>
    refine .ignored _ (by simp) ?_
    rintro nominated ⟨⟨message, algorithm, priority, haccept, -⟩, -⟩
    rw [hexamine] at haccept
    cases haccept
  | .ok (.respond output) =>
    refine .ignored _ ?_ ?_
    · rintro answer ⟨⟩
      exact events_of_respond hexamine
    · rintro nominated ⟨⟨message, algorithm, priority, haccept, -⟩, -⟩
      rw [hexamine] at haccept
      cases haccept
  | .ok (.accept message algorithm priority) =>
    have hunique : ∀ other, agent.Admits digests localAddr remote input other →
        other = message.useCandidate := by
      rintro other ⟨⟨_, _, _, haccept, rfl⟩, -⟩
      rw [hexamine] at haccept
      cases haccept
      rfl
    dsimp only
    rw [run_bind]
    rcases @recordValidPair_outcome agent now localAddr remote priority message.useCandidate with
      ⟨hunknown, hfull, hrun⟩ | ⟨hroom, pair, events, recorded, haddresses, hstate, hselected, hrun⟩
    · rw [hrun]
      refine .full ?_
      rintro nominated ⟨-, hknown | hroom⟩
      · exact hunknown hknown
      · exact hfull hroom
    · obtain ⟨payload, hpayload⟩ :=
        successResponse_eq_ok digests recorded message remote algorithm
      rw [hrun]
      dsimp only
      rw [run_get_bind, hpayload]
      exact .checked message.useCandidate pair events payload recorded
        ⟨⟨message, algorithm, priority, hexamine, rfl⟩, hroom⟩ hunique haddresses hstate hselected

/-! ## What a datagram does to the selection -/

theorem transition_cases (agent : Agent) (target : IceState) :
    agent.state = target ∧ agent.transition target = ([], agent) ∨
      agent.state ≠ target ∧ agent.transition target =
        ([.stateChanged agent.state target], { agent with state := target }) := by
  unfold transition
  split_ifs with h
  · exact .inl ⟨h, rfl⟩
  · exact .inr ⟨h, rfl⟩

@[simp] theorem selectedPair_transition (agent : Agent) (target : IceState) :
    (agent.transition target).2.selectedPair = agent.selectedPair := by
  rcases transition_cases agent target with ⟨-, h⟩ | ⟨-, h⟩ <;> rw [h]

@[simp] theorem selectedPair_transitionAfterCheck (agent : Agent) (nominated : Bool) :
    (agent.transitionAfterCheck nominated).2.selectedPair = agent.selectedPair :=
  selectedPair_transition agent _

/-- A nomination succeeds and selects a pair of the addresses. -/
theorem Nominates.selects (h : agent.Nominates digests localAddr remote input) (now : ℕ) :
    (∃ output, ((handleDatagram digests now localAddr remote input).run agent).1 = .ok output) ∧
      ∃ pair, ((handleDatagram digests now localAddr remote input).run agent).2.selectedPair =
        some pair ∧ pair.remote = remote := by
  have houtcome := handleDatagram_outcome digests agent now localAddr remote input
  generalize (handleDatagram digests now localAddr remote input).run agent = outcome at houtcome
  cases houtcome with
  | ignored result hevents hrefused => exact absurd h (hrefused true)
  | full hrefused => exact absurd h (hrefused true)
  | checked nominated pair events payload recorded hadmitted hunique haddresses hstate hselected =>
    refine ⟨⟨_, rfl⟩, pair, ?_, haddresses.2⟩
    rw [selectedPair_transitionAfterCheck]
    rcases hselected with ⟨-, -, hpair⟩ | ⟨hkept, -, hpair⟩
    · exact hpair
    · rw [hpair]
      by_contra hother
      exact hkept ⟨(hunique true h).symm, hother⟩

/-- Nothing else moves the selection. -/
theorem selectedPair_of_not_nominates (h : ¬agent.Nominates digests localAddr remote input)
    (now : ℕ) :
    ((handleDatagram digests now localAddr remote input).run agent).2.selectedPair =
      agent.selectedPair := by
  have houtcome := handleDatagram_outcome digests agent now localAddr remote input
  generalize (handleDatagram digests now localAddr remote input).run agent = outcome at houtcome
  cases houtcome with
  | ignored result hevents hrefused => rfl
  | full hrefused => rfl
  | checked nominated pair events payload recorded hadmitted hunique haddresses hstate hselected =>
    rw [selectedPair_transitionAfterCheck]
    rcases hselected with ⟨⟨rfl, -⟩, -, -⟩ | ⟨-, -, hpair⟩
    · exact absurd hadmitted h
    · exact hpair

end Agent

end Fluvora.Ice

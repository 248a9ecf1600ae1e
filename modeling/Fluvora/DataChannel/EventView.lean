import Fluvora.DataChannel.Bounds
import Fluvora.DataChannel.Delivery

/-!
# Channels as the events show them

A consumer keeps the set of open channels by the `channelOpened` and `channelClosed` events of the
outputs it receives.  The set is the key set of `channels` in every run in which no INIT is accepted
while a channel is open and no packet is refused once it has opened or closed a channel.  Both
exceptions are real: `handleInit` clears the channels without an event, and the output of a refused
packet is lost together with its events.
-/

open Std (ExtTreeMap)

namespace Fluvora.DataChannel

open Fallible

namespace Association

/-- What one event does to the set of open channels that its consumer keeps. -/
def trackEvent (view : Finset UInt16) : AssociationEvent → Finset UInt16
  | .channelOpened streamId .. => insert streamId view
  | .channelClosed streamId => view.erase streamId
  | _ => view

/-- The set of open channels that a sequence of events shows. -/
def trackEvents (view : Finset UInt16) (events : List AssociationEvent) : Finset UInt16 :=
  events.foldl trackEvent view

/-- The consumer's set is the key set of the channels. -/
def Tracks (view : Finset UInt16) (s : Association) : Prop :=
  ∀ streamId, streamId ∈ view ↔ streamId ∈ s.channels

/-! ## The condition on the packets -/

/-- The chunk completes a DCEP OPEN that is accepted up to the insertion of its channel. -/
def opens (s : Association) (data : DataChunk) : Bool :=
  data.streamId < s.peerOutboundStreams && DataChunk.isEnd data && data.ppid = ppidDcep &&
    (s.assembled data).any fun payload => (ChannelOpen.parse s data.streamId payload).isOk

/-- Some chunk of a batch opens a channel when its turn comes. -/
def batchOpens (now : ℕ) : List DataChunk → Association → Bool
  | [], _ => false
  | data :: rest, s =>
      s.opens data ||
        (s.admits data && batchOpens now rest ((processDataMessage now data).run s).2)

/-- Some chunk that `releasePending` takes opens a channel when its turn comes. -/
def pendingOpens (now : ℕ) : ℕ → UInt32 → Association → Bool
  | 0, _, _ => false
  | fuel + 1, next, s =>
      match s.pendingData[next]? with
      | none => false
      | some data =>
          (unbuffer next s).opens data ||
            ((unbuffer next s).admits data && pendingOpens now fuel (next + 1)
              (advance next ((processDataMessage now data).run (unbuffer next s)).2))

def dataOpens (s : Association) (now : ℕ) (flags : UInt8) (value : Bytes) : Bool :=
  s.dataVerdict flags value = .writes &&
    match DataChunk.parse flags value, s.cumulativePeerTsn with
    | .ok data, some cumulative =>
        batchOpens now (s.released cumulative data).1 (s.released cumulative data).2
    | _, _ => false

def forwardTsnOpens (s : Association) (now : ℕ) (value : Bytes) : Bool :=
  s.forwardTsnVerdict value = .writes &&
    match readU32 value 0 with
    | .ok newCumulativeTsn =>
        pendingOpens now (s.forwarded value newCumulativeTsn).pendingData.size
          (newCumulativeTsn + 1) (s.forwarded value newCumulativeTsn)
    | .error _ => false

/-- A reset request with the expected number names an open channel. -/
def resetCloses (s : Association) (fixedLen : ℕ) (value : Bytes) : Bool :=
  decide (fixedLen ≤ value.length ∧ (value.length - fixedLen) % 2 = 0) &&
    match readU32 value 0, parseStreamNumbers (value.drop fixedLen) s.peerOutboundStreams with
    | .ok requestSequence, .ok streams =>
        s.nextPeerReconfigSequence = some requestSequence &&
          (s.resetStreams streams).any fun streamId => s.channels.contains streamId
    | _, _ => false

/-- Some parameter of a RE-CONFIG closes a channel when its turn comes. -/
def parametersClose : List Parameter → Association → Bool
  | [], _ => false
  | parameter :: rest, s =>
      if parameter.kind = parameterOutgoingReset then
        s.resetCloses 12 parameter.value ||
          (((handleOutgoingReset parameter.value).run s).1.isOk &&
            parametersClose rest ((handleOutgoingReset parameter.value).run s).2)
      else if parameter.kind = parameterIncomingReset then
        s.resetCloses 4 parameter.value ||
          (((handleIncomingReset parameter.value).run s).1.isOk &&
            parametersClose rest ((handleIncomingReset parameter.value).run s).2)
      else if parameter.kind = parameterReconfigResponse then
        decide (parameter.value.length = 8 ∨ parameter.value.length = 16) && parametersClose rest s
      else false

def reconfigurationCloses (s : Association) (value : Bytes) : Bool :=
  match parseParameters value with
  | .ok parameters =>
      decide (s.state = .established ∧ parameters.length ≤ 2) && parametersClose parameters s
  | .error _ => false

/-- The chunk opens or closes a channel. -/
def touches (s : Association) (now : ℕ) (tag : UInt32) (chunk : ParsedChunk) : Bool :=
  tag = s.config.verificationTag &&
    if chunk.kind = typeData then s.dataOpens now chunk.flags chunk.value
    else if chunk.kind = typeForwardTsn then s.forwardTsnOpens now chunk.value
    else if chunk.kind = typeReConfig then s.reconfigurationCloses chunk.value
    else false

/-- The chunk is an INIT that is accepted while a channel is open. -/
def erases (s : Association) (tag : UInt32) (chunk : ParsedChunk) : Bool :=
  chunk.kind = typeInit && (InitChunk.parse tag chunk.value).isOk && !s.channels.isEmpty

/-- No INIT is accepted while a channel is open, and from the first chunk that opens or closes a
channel on, every chunk of the packet is accepted. -/
def reported (now : ℕ) (tag : UInt32) : List ParsedChunk → Association → Bool
  | [], _ => true
  | chunk :: rest, s =>
      !s.erases tag chunk &&
        if s.touches now tag chunk then acceptsAll now tag (chunk :: rest) s
        else !s.accepts now tag chunk || reported now tag rest ((handleChunk now tag chunk).run s).2

/-! ## Accepted chunks report what they do -/

variable {view : Finset UInt16} {s t : Association}

theorem trackEvents_append (view : Finset UInt16) (events more : List AssociationEvent) :
    trackEvents view (events ++ more) = trackEvents (trackEvents view events) more := by
  simp [trackEvents]

theorem Tracks.congr (h : Tracks view s) (hchannels : t.channels = s.channels) : Tracks view t := by
  intro streamId
  rw [hchannels]
  exact h streamId

theorem Tracks.processed (h : Tracks view s) {data : DataChunk} {output : AssociationOutput}
    (hprocessed : Processed s data output t) : Tracks (trackEvents view output.events) t := by
  cases hprocessed with
  | fragment => exact h
  | message => exact h
  | opened =>
    intro streamId
    simp only [trackEvents, List.foldl_cons, List.foldl_nil, trackEvent, Finset.mem_insert]
    rw [Maps.mem_insert_iff, h streamId, eq_comm]

/-- A chunk that is processed without an error reports what it does. -/
theorem Tracks.processDataMessage (now : ℕ) (h : Tracks view s) {data : DataChunk} {tag : UInt32}
    (htag : s.peerVerificationTag = some tag) {output : AssociationOutput}
    (hrun : (Association.processDataMessage now data).run s = (.ok output, t)) :
    Tracks (trackEvents view output.events) t := by
  by_cases hadmits : s.admits data = true
  · obtain ⟨output', t', hrun', hprocessed⟩ := processDataMessage_run_of_admits now htag hadmits
    rw [hrun] at hrun'
    cases hrun'
    exact h.processed hprocessed
  · obtain ⟨error, reassembly, channels, herror⟩ :=
      processDataMessage_run_of_not_admits now htag (by simpa using hadmits)
    rw [hrun] at herror
    cases herror

theorem Tracks.batch (now : ℕ) {batch : List DataChunk} {tag : UInt32}
    {output : AssociationOutput} (h : Tracks view s) (htag : s.peerVerificationTag = some tag)
    (hrun : (processAll now batch).run s = (.ok output, t)) :
    Tracks (trackEvents view output.events) t := by
  induction batch generalizing s view output with
  | nil =>
    cases hrun
    exact h
  | cons data rest ih =>
    have hframe := processDataMessage_frame now data htag
    rw [processAll, run_bind_eq_ok] at hrun
    obtain ⟨first, mid, hfirst, hrun⟩ := hrun
    rw [run_bind_eq_ok] at hrun
    obtain ⟨others, t', hothers, hrun⟩ := hrun
    cases hrun
    rw [hfirst] at hframe
    rw [AssociationOutput.events_append, trackEvents_append]
    exact ih (h.processDataMessage now htag hfirst) (hframe.peerVerificationTag.trans htag) hothers

theorem Tracks.pending (now fuel : ℕ) {next : UInt32} {tag : UInt32} {output : AssociationOutput}
    (h : Tracks view s) (htag : s.peerVerificationTag = some tag)
    (hrun : (releasePending now fuel next).run s = (.ok output, t)) :
    Tracks (trackEvents view output.events) t := by
  induction fuel generalizing next s view output with
  | zero =>
    cases hrun
    exact h
  | succ fuel ih =>
    rw [releasePending, run_get_bind] at hrun
    rcases hfind : s.pendingData[next]? with _ | data
    · rw [hfind] at hrun
      cases hrun
      exact h
    rw [hfind] at hrun
    dsimp only at hrun
    have htag' : (unbuffer next s).peerVerificationTag = some tag := htag
    have hframe := processDataMessage_frame now data htag'
    have htaken : Tracks view (unbuffer next s) := h
    rw [run_modify_bind, run_bind_eq_ok] at hrun
    obtain ⟨first, mid, hfirst, hrun⟩ := hrun
    rw [run_modify_bind, run_bind_eq_ok] at hrun
    obtain ⟨others, t', hothers, hrun⟩ := hrun
    cases hrun
    rw [hfirst] at hframe
    rw [AssociationOutput.events_append, trackEvents_append]
    have hmid := htaken.processDataMessage now htag' hfirst
    have hadvanced : Tracks (trackEvents view first.events) (advance next mid) := hmid
    exact ih hadvanced (hframe.peerVerificationTag.trans htag) hothers

theorem Tracks.closeStreams (h : Tracks view s) (streams : List UInt16) :
    Tracks (trackEvents view (Association.closeStreams streams s).1.events)
      (Association.closeStreams streams s).2 := by
  induction streams generalizing s view with
  | nil => exact h
  | cons streamId rest ih =>
    unfold Association.closeStreams
    split_ifs
    · dsimp only
      rw [AssociationOutput.events_append, trackEvents_append]
      refine ih ?_
      intro other
      simp only [trackEvents, List.foldl_cons, List.foldl_nil, trackEvent, Finset.mem_erase]
      rw [ExtTreeMap.mem_erase, h other, ne_comm, Ne, ← Std.compare_eq_iff_eq (a := streamId)]
    · exact ih h

theorem Tracks.performReset {expected : UInt32} {streamNumbers : Bytes}
    {streams : Option (List UInt16)} {output : AssociationOutput} (h : Tracks view s)
    (hrun : (Association.performReset expected streamNumbers).run s = (.ok (streams, output), t)) :
    Tracks (trackEvents view output.events) t := by
  rw [Association.performReset, run_modify_bind, run_get_bind, run_ofExcept_bind] at hrun
  split at hrun
  · cases hrun
    refine Tracks.closeStreams ?_ _
    exact h
  · cases hrun

/-- A handler of a reset request reports what it closes. -/
def ReportsClosed (action : Action (Bytes × AssociationOutput)) : Prop :=
  ∀ view s response output t, Tracks view s → action.run s = (.ok (response, output), t) →
    Tracks (trackEvents view output.events) t

theorem reportsClosed_handleOutgoingReset (value : Bytes) :
    ReportsClosed (handleOutgoingReset value) := by
  intro view s response output t hs h
  rw [handleOutgoingReset, run_ensure_bind] at h
  split_ifs at h
  swap
  · cases h
  rw [run_ofExcept_bind] at h
  split at h
  swap
  · cases h
  rw [run_get_bind, run_ofOption_bind] at h
  split at h
  swap
  · cases h
  split_ifs at h
  · rw [run_bind_eq_ok] at h
    obtain ⟨⟨streams, closed⟩, mid, hreset, h⟩ := h
    rw [run_ofExcept_bind] at h
    split at h
    · cases h
      exact hs.performReset hreset
    · cases h
  · rw [run_ofExcept_bind] at h
    split at h
    · cases h
      exact hs
    · cases h

theorem reportsClosed_handleIncomingReset (value : Bytes) :
    ReportsClosed (handleIncomingReset value) := by
  intro view s response output t hs h
  rw [handleIncomingReset, run_ensure_bind] at h
  split_ifs at h
  swap
  · cases h
  rw [run_ofExcept_bind] at h
  split at h
  swap
  · cases h
  rw [run_get_bind, run_ofOption_bind] at h
  split at h
  swap
  · cases h
  split_ifs at h
  · rw [run_ofExcept_bind] at h
    split at h
    · cases h
      exact hs
    · cases h
  · rw [run_bind_eq_ok] at h
    obtain ⟨⟨streams, closed⟩, mid, hreset, h⟩ := h
    dsimp only at h
    have hclosed := hs.performReset hreset
    rw [run_get_bind, run_modify_bind, run_ofExcept_bind] at h
    split at h
    · cases h
      exact hclosed
    · cases h

theorem reportsClosed_handleParameters (parameters : List Parameter) :
    ReportsClosed (handleParameters parameters) := by
  induction parameters with
  | nil =>
    intro view s response output t hs h
    cases h
    exact hs
  | cons parameter rest ih =>
    have hreset : ∀ action, ReportsClosed action → ReportsClosed (followedBy action rest) := by
      intro action hreports view s response output t hs h
      rw [followedBy, run_bind_eq_ok] at h
      obtain ⟨⟨first, closed⟩, mid, hfirst, h⟩ := h
      dsimp only at h
      rw [run_bind_eq_ok] at h
      obtain ⟨⟨others, outputs⟩, t', hothers, h⟩ := h
      cases h
      rw [AssociationOutput.events_append, trackEvents_append]
      exact ih _ _ _ _ _ (hreports _ _ _ _ _ hs hfirst) hothers
    unfold handleParameters
    split_ifs
    · exact hreset _ (reportsClosed_handleOutgoingReset parameter.value)
    · exact hreset _ (reportsClosed_handleIncomingReset parameter.value)
    · intro view s response output t hs h
      rw [run_ensure_bind] at h
      split_ifs at h
      · exact ih _ _ _ _ _ hs h
      · cases h
    · intro view s response output t hs h
      cases h
      exact hs

theorem Tracks.reconfiguration {value : Bytes} {output : AssociationOutput} (hs : Tracks view s)
    (h : (handleReconfiguration value).run s = (.ok output, t)) :
    Tracks (trackEvents view output.events) t := by
  rw [handleReconfiguration, run_get_bind, run_ensure_bind] at h
  split_ifs at h
  swap
  · cases h
  rw [run_ofExcept_bind] at h
  split at h
  swap
  · cases h
  rw [run_ensure_bind] at h
  split_ifs at h
  swap
  · cases h
  rw [run_bind_eq_ok] at h
  obtain ⟨⟨response, closed⟩, mid, hparameters, h⟩ := h
  have hclosed := reportsClosed_handleParameters _ _ _ _ _ _ hs hparameters
  dsimp only at h
  split_ifs at h
  · cases h
    exact hclosed
  rw [run_get_bind, run_ofExcept_bind] at h
  split at h
  swap
  · cases h
  rw [run_ofExcept_bind] at h
  split at h
  swap
  · cases h
  cases h
  rw [AssociationOutput.events_append, trackEvents_append]
  exact hclosed

theorem Tracks.data {now : ℕ} {flags : UInt8} {value : Bytes} {output : AssociationOutput}
    (hs : Tracks view s) (hsound : Sound s)
    (hrun : (handleData now flags value).run s = (.ok output, t)) :
    Tracks (trackEvents view output.events) t := by
  by_cases hwrites : s.dataVerdict flags value = .writes
  · obtain ⟨data, cumulative, batch, pending, peer, hpeer, -, -, -, -, hcases⟩ :=
      handleData_writes hsound now hwrites
    rcases hcases with ⟨error, -, hwrong⟩ | ⟨inner, sack, hinner, hok⟩
    · rw [hrun] at hwrong
      cases hwrong
    rcases hall : (processAll now batch).run { s with
        pendingData := pending
        cumulativePeerTsn := some (cumulative + .ofNat batch.length) } with ⟨result, t'⟩
    rw [hall] at hinner hok
    cases hinner
    rw [hrun] at hok
    cases hok
    rw [AssociationOutput.events_append, List.append_nil]
    have hdrained : Tracks view { s with
        pendingData := pending
        cumulativePeerTsn := some (cumulative + .ofNat batch.length) } := hs
    exact hdrained.batch now hpeer hall
  · have hstate := (follows_data hsound now flags value).state_eq hwrites
    rw [hrun] at hstate
    cases hstate
    rw [handleData_events hsound hwrites hrun]
    exact hs

/-- Skipping streams leaves the channels. -/
theorem channels_forwarded (s : Association) (value : Bytes) (newCumulativeTsn : UInt32) :
    (s.forwarded value newCumulativeTsn).channels = s.channels := by
  obtain ⟨reassembly, heq, -⟩ := keepsBuffers_skipStreams value 4 ((value.length - 4) / 4) s
  rw [forwarded, heq]

theorem Tracks.forwardTsn {now : ℕ} {value : Bytes} {output : AssociationOutput}
    (hs : Tracks view s) (hsound : Sound s)
    (hrun : (handleForwardTsn now value).run s = (.ok output, t)) :
    Tracks (trackEvents view output.events) t := by
  by_cases hwrites : s.forwardTsnVerdict value = .writes
  · obtain ⟨newCumulativeTsn, peer, -, hpeer, -, -, hcases⟩ :=
      handleForwardTsn_writes hsound now hwrites
    rcases hcases with ⟨error, -, hwrong⟩ | ⟨inner, sack, hinner, hok⟩
    · rw [hrun] at hwrong
      cases hwrong
    rcases hall : (releasePending now (s.forwarded value newCumulativeTsn).pendingData.size
      (newCumulativeTsn + 1)).run (s.forwarded value newCumulativeTsn) with ⟨result, t'⟩
    rw [hall] at hinner hok
    cases hinner
    rw [hrun] at hok
    cases hok
    rw [AssociationOutput.events_append, List.append_nil]
    have hforwarded := hs.congr (channels_forwarded s value newCumulativeTsn)
    exact hforwarded.pending now _ hpeer hall
  · have hstate := (follows_forwardTsn hsound now value).state_eq hwrites
    rw [hrun] at hstate
    cases hstate
    rw [handleForwardTsn_events hsound hwrites hrun]
    exact hs

theorem events_handleCookieEcho {tag : UInt32} {cookie : Bytes} {output : AssociationOutput}
    (h : (handleCookieEcho tag cookie).run s = (.ok output, t)) :
    output.events = [.established] := by
  rw [handleCookieEcho, run_get_bind, run_ensure_bind] at h
  split_ifs at h
  swap
  · cases h
  rw [run_ofExcept_bind] at h
  split at h
  swap
  · cases h
  rw [run_ensure_bind] at h
  split_ifs at h
  swap
  · cases h
  rw [run_modify_bind, run_ofExcept_bind] at h
  split at h
  swap
  · cases h
  rw [run_ofExcept_bind] at h
  split at h
  · cases h
    rfl
  · cases h

/-- An accepted INIT that erases nothing found no open channel. -/
theorem channels_of_not_erases {tag : UInt32} {chunk : ParsedChunk} {init : InitChunk}
    (hkind : chunk.kind = typeInit) (hparse : InitChunk.parse tag chunk.value = .ok init)
    (h : s.erases tag chunk = false) : s.channels = (restart init s).channels := by
  simp only [erases, hkind, hparse, Except.isOk, Except.toBool, decide_true, Bool.true_and,
    Bool.not_eq_false', ExtTreeMap.isEmpty_iff] at h
  exact h

/-- An accepted chunk that is no INIT over open channels reports what it does. -/
theorem Tracks.chunk {now : ℕ} {tag : UInt32} {chunk : ParsedChunk} {output : AssociationOutput}
    (hs : Tracks view s) (hsound : Sound s) (herases : s.erases tag chunk = false)
    (hrun : (handleChunk now tag chunk).run s = (.ok output, t)) :
    Tracks (trackEvents view output.events) t := by
  have hguarded : ∀ action : Action AssociationOutput,
      (∀ output t, action.run s = (.ok output, t) → Tracks (trackEvents view output.events) t) →
      ∀ output t, (guarded tag action).run s = (.ok output, t) →
        Tracks (trackEvents view output.events) t := by
    intro action haction output t h
    rw [guarded_run] at h
    split_ifs at h
    · exact haction output t h
    · cases h
  revert output t
  refine handleChunk_elim (P := fun action => ∀ {t : Association} {output : AssociationOutput},
    action.run s = (.ok output, t) → Tracks (trackEvents view output.events) t) now tag chunk
    ?_ ?_ ?_ ?_ ?_ ?_ ?_ ?_ ?_ ?_
  · intro hkind t output h
    have hinit := handleInit_run hsound tag chunk.value
    rcases hparse : InitChunk.parse tag chunk.value with error | init
    · rw [hparse, h] at hinit
      cases hinit
    rw [hparse] at hinit
    obtain ⟨output', hrun', hevents⟩ := hinit
    rw [h] at hrun'
    cases hrun'
    rw [hevents]
    exact hs.congr (channels_of_not_erases hkind hparse herases).symm
  · intro _ t output h
    have hstate := handleCookieEcho_state tag chunk.value s
    have hevents := events_handleCookieEcho h
    rw [h] at hstate
    dsimp only at hstate
    rw [hevents]
    obtain hsame | ⟨-, hsame⟩ := hstate
    · exact hs.congr (by rw [hsame])
    · exact hs.congr (by rw [hsame])
  · exact fun _ {t} {output} h => hguarded _ (fun _ _ h => hs.data hsound h) output t h
  · refine fun _ {t} {output} h => hguarded _ ?_ output t h
    intro output t h
    have hrun := handleSack_run chunk.value s
    obtain ⟨⟨⟩, mid, hsack, h⟩ := run_bind_eq_ok.mp h
    cases h
    split at hrun
    next =>
      obtain ⟨error, hrun⟩ := hrun
      rw [hsack] at hrun
      cases hrun
    next cumulative gapCount hheader =>
      obtain ⟨result, hrun, -⟩ := hrun
      rw [hsack] at hrun
      cases hrun
      exact hs
  · refine fun _ {t} {output} h => hguarded _ ?_ output t h
    intro output t h
    rw [handleHeartbeat, run_get_bind, run_ofExcept_bind] at h
    split at h
    swap
    · cases h
    rw [run_ofExcept_bind] at h
    split at h
    · cases h
      exact hs
    · cases h
  · intro _ t output h
    cases h
    exact hs
  · refine fun _ {t} {output} h => hguarded _ ?_ output t h
    intro output t h
    rw [handleShutdown, run_modify_bind, run_get_bind, run_ofExcept_bind] at h
    split at h
    swap
    · cases h
    rw [run_ofExcept_bind] at h
    split at h
    · cases h
      exact hs
    · cases h
  · exact fun _ {t} {output} h => hguarded _ (fun _ _ h => hs.reconfiguration h) output t h
  · exact fun _ {t} {output} h => hguarded _ (fun _ _ h => hs.forwardTsn hsound h) output t h
  · intro _ t output h
    cases h
    exact hs

/-! ## Chunks that leave the channels alone -/

theorem channels_handleDcep (now : ℕ) (streamId : UInt16) {payload : Bytes}
    (h : (ChannelOpen.parse s streamId payload).isOk = false) :
    ((handleDcep now streamId payload).run s).2.channels = s.channels := by
  obtain ⟨error, herror⟩ := exists_error_of_isOk h
  rw [handleDcep, run_get_bind, herror]
  rfl

theorem channels_processDataMessage (now : ℕ) {data : DataChunk} (h : s.opens data = false) :
    ((processDataMessage now data).run s).2.channels = s.channels := by
  rw [processDataMessage, run_get_bind]
  refine run_ensure_bind_invariant (I := fun t : Association => t.channels = s.channels) rfl
    fun hstream => ?_
  have hkeeps := keepsBuffers_assemble data s
  have hassembled : ∀ payload t, (assemble data).run s = (.ok payload, t) →
      DataChunk.isEnd data = true → s.assembled data = some payload := by
    intro payload t hrun hend
    cases hcollected : s.assembled data with
    | none =>
      obtain ⟨error, reassembly, herror⟩ := assemble_run_of_none hcollected
      rw [hrun] at herror
      cases herror
    | some collected =>
      rw [assemble_run_of_some hcollected, if_pos hend] at hrun
      cases hrun
      rfl
  refine run_bind_invariant (I := fun t : Association => t.channels = s.channels) ?_
    fun payload t hrun ht => ?_
  · obtain ⟨reassembly, heq, -⟩ := hkeeps
    rw [heq]
  rw [hrun] at hkeeps
  obtain ⟨reassembly, rfl, -⟩ := hkeeps
  split_ifs with hend hdcep huser
  · rfl
  · refine channels_handleDcep now data.streamId ?_
    have hlast : DataChunk.isEnd data = true := by simpa using hend
    have hcollected := hassembled payload _ hrun hlast
    show (ChannelOpen.parse s data.streamId payload).isOk = false
    simpa [opens, hstream, hdcep, hcollected, hlast] using h
  · rfl
  · rfl

theorem channels_processAll (now : ℕ) (batch : List DataChunk) {tag : UInt32}
    (htag : s.peerVerificationTag = some tag) (h : batchOpens now batch s = false) :
    ((processAll now batch).run s).2.channels = s.channels := by
  induction batch generalizing s with
  | nil => rfl
  | cons data rest ih =>
    simp only [batchOpens, Bool.or_eq_false_iff, Bool.and_eq_false_iff] at h
    have hfirst := channels_processDataMessage now h.1
    have hframe := processDataMessage_frame now data htag
    refine run_bind_invariant (I := fun t : Association => t.channels = s.channels) hfirst
      fun first t hrun ht => ?_
    have hadmits : s.admits data = true := by
      by_contra hadmits
      obtain ⟨error, reassembly, channels, herror⟩ :=
        processDataMessage_run_of_not_admits now htag (by simpa using hadmits)
      rw [hrun] at herror
      cases herror
    rw [hrun] at hframe
    have hrest := h.2.resolve_left (by simp [hadmits])
    rw [hrun] at hrest
    rw [state_run_bind_pure]
    exact (ih (hframe.peerVerificationTag.trans htag) hrest).trans ht

theorem channels_releasePending (now fuel : ℕ) {next : UInt32} {tag : UInt32}
    (htag : s.peerVerificationTag = some tag) (h : pendingOpens now fuel next s = false) :
    ((releasePending now fuel next).run s).2.channels = s.channels := by
  induction fuel generalizing next s with
  | zero => rfl
  | succ fuel ih =>
    rw [pendingOpens] at h
    simp only [releasePending, run_get_bind]
    rcases hfind : s.pendingData[next]? with _ | data
    · rfl
    rw [hfind] at h
    simp only [Bool.or_eq_false_iff, Bool.and_eq_false_iff] at h
    have htag' : (unbuffer next s).peerVerificationTag = some tag := htag
    have hfirst := channels_processDataMessage now h.1
    have hframe := processDataMessage_frame now data htag'
    simp only [run_modify_bind]
    refine run_bind_invariant (I := fun t : Association => t.channels = s.channels) hfirst
      fun first t hrun ht => ?_
    have hadmits : (unbuffer next s).admits data = true := by
      by_contra hadmits
      obtain ⟨error, reassembly, channels, herror⟩ :=
        processDataMessage_run_of_not_admits now htag' (by simpa using hadmits)
      rw [hrun] at herror
      cases herror
    rw [hrun] at hframe
    have hrest := h.2.resolve_left (by simp [hadmits])
    rw [hrun] at hrest
    rw [run_modify_bind, state_run_bind_pure]
    have htag'' : (advance next t).peerVerificationTag = some tag :=
      hframe.peerVerificationTag.trans htag
    exact (ih htag'' hrest).trans ht

theorem channels_closeStreams {streams : List UInt16}
    (h : (streams.any fun streamId => s.channels.contains streamId) = false) :
    (closeStreams streams s).2.channels = s.channels := by
  induction streams with
  | nil => rfl
  | cons streamId rest ih =>
    rw [List.any_cons, Bool.or_eq_false_iff] at h
    rw [closeStreams, h.1, if_neg Bool.false_ne_true]
    exact ih h.2

/-- A reset that names no open channel leaves the channels. -/
theorem channels_performReset {fixedLen : ℕ} {value : Bytes} {expected : UInt32}
    (h : s.resetCloses fixedLen value = false) (hread : readU32 value 0 = .ok expected)
    (hlength : fixedLen ≤ value.length ∧ (value.length - fixedLen) % 2 = 0)
    (hexpected : s.nextPeerReconfigSequence = some expected) :
    ((performReset expected (value.drop fixedLen)).run s).2.channels = s.channels := by
  rw [performReset, run_modify_bind, run_get_bind]
  refine run_ofExcept_bind_invariant (I := fun t : Association => t.channels = s.channels) rfl
    fun streams hstreams => ?_
  refine channels_closeStreams ?_
  have hparse : parseStreamNumbers (value.drop fixedLen) s.peerOutboundStreams = .ok streams :=
    hstreams
  rw [resetCloses, hread, hparse] at h
  show ((s.resetStreams streams).any fun streamId => s.channels.contains streamId) = false
  simpa [hlength, hexpected] using h

theorem channels_handleOutgoingReset {value : Bytes} (h : s.resetCloses 12 value = false) :
    ((handleOutgoingReset value).run s).2.channels = s.channels := by
  rw [handleOutgoingReset]
  refine run_ensure_bind_invariant (I := fun t : Association => t.channels = s.channels) rfl
    fun hlength => ?_
  refine run_ofExcept_bind_invariant (I := fun t : Association => t.channels = s.channels) rfl
    fun requestSequence hread => ?_
  rw [run_get_bind, run_ofOption_bind]
  rcases hexpected : s.nextPeerReconfigSequence with _ | expected
  · rfl
  dsimp only
  split_ifs with hsame
  · subst hsame
    refine run_bind_invariant (I := fun t : Association => t.channels = s.channels)
      (channels_performReset h hread hlength hexpected) fun result t _ ht => ?_
    exact run_ofExcept_bind_invariant (I := fun t : Association => t.channels = s.channels) ht
      fun _ _ => ht
  · exact run_ofExcept_bind_invariant (I := fun t : Association => t.channels = s.channels) rfl
      fun _ _ => rfl

theorem channels_handleIncomingReset {value : Bytes} (h : s.resetCloses 4 value = false) :
    ((handleIncomingReset value).run s).2.channels = s.channels := by
  rw [handleIncomingReset]
  refine run_ensure_bind_invariant (I := fun t : Association => t.channels = s.channels) rfl
    fun hlength => ?_
  refine run_ofExcept_bind_invariant (I := fun t : Association => t.channels = s.channels) rfl
    fun requestSequence hread => ?_
  rw [run_get_bind, run_ofOption_bind]
  rcases hexpected : s.nextPeerReconfigSequence with _ | expected
  · rfl
  dsimp only
  split_ifs with hsame
  · exact run_ofExcept_bind_invariant (I := fun t : Association => t.channels = s.channels) rfl
      fun _ _ => rfl
  · rw [ne_eq, not_not] at hsame
    subst hsame
    refine run_bind_invariant (I := fun t : Association => t.channels = s.channels)
      (channels_performReset h hread hlength hexpected) fun result t _ ht => ?_
    rw [run_get_bind, run_modify_bind]
    exact run_ofExcept_bind_invariant (I := fun t : Association => t.channels = s.channels) ht
      fun _ _ => ht

theorem channels_handleParameters {parameters : List Parameter}
    (h : parametersClose parameters s = false) :
    ((handleParameters parameters).run s).2.channels = s.channels := by
  induction parameters generalizing s with
  | nil => rfl
  | cons parameter rest ih =>
    have hreset : ∀ action : Action (Bytes × AssociationOutput),
        (action.run s).2.channels = s.channels →
        ((action.run s).1.isOk && parametersClose rest (action.run s).2) = false →
        ((followedBy action rest).run s).2.channels = s.channels := by
      intro action haction hrest
      rw [followedBy]
      refine run_bind_invariant (I := fun t : Association => t.channels = s.channels) haction
        fun result t hrun ht => ?_
      rw [hrun] at hrest
      dsimp only
      rw [state_run_bind_pure]
      exact (ih hrest).trans ht
    unfold handleParameters
    rw [parametersClose] at h
    split_ifs at h ⊢
    · rw [Bool.or_eq_false_iff] at h
      exact hreset _ (channels_handleOutgoingReset h.1) h.2
    · rw [Bool.or_eq_false_iff] at h
      exact hreset _ (channels_handleIncomingReset h.1) h.2
    · refine run_ensure_bind_invariant (I := fun t : Association => t.channels = s.channels) rfl
        fun hlength => ?_
      exact ih (by simpa [hlength] using h)
    · rfl

theorem channels_handleReconfiguration {value : Bytes} (h : s.reconfigurationCloses value = false) :
    ((handleReconfiguration value).run s).2.channels = s.channels := by
  rw [handleReconfiguration, run_get_bind]
  refine run_ensure_bind_invariant (I := fun t : Association => t.channels = s.channels) rfl
    fun hstate => ?_
  refine run_ofExcept_bind_invariant (I := fun t : Association => t.channels = s.channels) rfl
    fun parameters hparse => ?_
  refine run_ensure_bind_invariant (I := fun t : Association => t.channels = s.channels) rfl
    fun hcount => ?_
  rw [reconfigurationCloses, hparse] at h
  have hclose : parametersClose parameters s = false := by
    simpa [hstate.1, hcount.2] using h
  refine run_bind_invariant (I := fun t : Association => t.channels = s.channels)
    (channels_handleParameters hclose) fun result t _ ht => ?_
  dsimp only
  split_ifs
  · exact ht
  rw [run_get_bind]
  refine run_ofExcept_bind_invariant (I := fun t : Association => t.channels = s.channels) ht
    fun peer _ => ?_
  exact run_ofExcept_bind_invariant (I := fun t : Association => t.channels = s.channels) ht
    fun _ _ => ht

theorem channels_handleData (hsound : Sound s) (now : ℕ) {flags : UInt8} {value : Bytes}
    (h : s.dataOpens now flags value = false) :
    ((handleData now flags value).run s).2.channels = s.channels := by
  by_cases hwrites : s.dataVerdict flags value = .writes
  · obtain ⟨data, cumulative, batch, pending, peer, hpeer, hdata, hcum, hreleased, -, hcases⟩ :=
      handleData_writes hsound now hwrites
    rw [dataOpens, hdata, hcum] at h
    dsimp only at h
    rw [hreleased] at h
    have hbatch := channels_processAll now batch (s := { s with
      pendingData := pending
      cumulativePeerTsn := some (cumulative + .ofNat batch.length) }) hpeer (by simpa [hwrites] using h)
    rcases hcases with ⟨error, -, hrun⟩ | ⟨output, sack, -, hrun⟩
    · rw [hrun]
      exact hbatch
    · rw [hrun]
      exact hbatch
  · rw [(follows_data hsound now flags value).state_eq hwrites]

theorem channels_handleForwardTsn (hsound : Sound s) (now : ℕ) {value : Bytes}
    (h : s.forwardTsnOpens now value = false) :
    ((handleForwardTsn now value).run s).2.channels = s.channels := by
  by_cases hwrites : s.forwardTsnVerdict value = .writes
  · obtain ⟨newCumulativeTsn, peer, hread, hpeer, -, -, hcases⟩ :=
      handleForwardTsn_writes hsound now hwrites
    rw [forwardTsnOpens, hread] at h
    have hreleased := (channels_releasePending now _ hpeer (by simpa [hwrites] using h)).trans
      (channels_forwarded s value newCumulativeTsn)
    rcases hcases with ⟨error, -, hrun⟩ | ⟨output, sack, -, hrun⟩
    · rw [hrun]
      exact hreleased
    · rw [hrun]
      exact hreleased
  · rw [(follows_forwardTsn hsound now value).state_eq hwrites]

theorem Tracks.of_not_touches {now : ℕ} {tag : UInt32} {chunk : ParsedChunk} (hs : Tracks view s)
    (hsound : Sound s) (herases : s.erases tag chunk = false)
    (htouches : s.touches now tag chunk = false) :
    Tracks view ((handleChunk now tag chunk).run s).2 := by
  have hguarded : ∀ action : Action AssociationOutput,
      (tag = s.config.verificationTag → Tracks view (action.run s).2) →
        Tracks view ((guarded tag action).run s).2 := by
    intro action haction
    rw [guarded_run]
    split_ifs with htag
    · exact haction htag
    · exact hs
  refine handleChunk_elim (P := fun action => Tracks view (action.run s).2) now tag chunk
    ?_ ?_ ?_ ?_ ?_ ?_ ?_ ?_ ?_ ?_
  · intro hkind
    have hinit := handleInit_run hsound tag chunk.value
    rcases hparse : InitChunk.parse tag chunk.value with error | init
    · rw [hparse] at hinit
      rw [hinit]
      exact hs
    rw [hparse] at hinit
    obtain ⟨output, hrun, -⟩ := hinit
    rw [hrun]
    exact hs.congr (channels_of_not_erases hkind hparse herases).symm
  · intro _
    obtain hsame | ⟨-, hsame⟩ := handleCookieEcho_state tag chunk.value s
    · rw [hsame]
      exact hs
    · rw [hsame]
      exact hs
  · refine fun hkind => hguarded _ fun htag => hs.congr (channels_handleData hsound now ?_)
    simpa [touches, htag, hkind] using htouches
  · refine fun _ => hguarded _ fun _ => ?_
    rw [state_run_bind_pure]
    have hrun := handleSack_run chunk.value s
    split at hrun
    next =>
      obtain ⟨error, hrun⟩ := hrun
      rw [hrun]
      exact hs
    next cumulative gapCount hheader =>
      obtain ⟨result, hrun, -⟩ := hrun
      rw [hrun]
      exact hs
  · refine fun _ => hguarded _ fun _ => ?_
    rw [handleHeartbeat_state]
    exact hs
  · exact fun _ => hs
  · refine fun _ => hguarded _ fun _ => ?_
    rw [handleShutdown_state]
    exact hs
  · refine fun hkind => hguarded _ fun htag => hs.congr (channels_handleReconfiguration ?_)
    have hdata : typeReConfig ≠ typeData := by decide
    have hforward : typeReConfig ≠ typeForwardTsn := by decide
    simpa [touches, htag, hkind, hdata, hforward] using htouches
  · refine fun hkind => hguarded _ fun htag => hs.congr (channels_handleForwardTsn hsound now ?_)
    have hdata : typeForwardTsn ≠ typeData := by decide
    simpa [touches, htag, hkind, hdata] using htouches
  · exact fun _ => hs

/-! ## Packets and runs -/

/-- A chunk that touches a channel carries the tag of the association, an accepted INIT the tag zero. -/
theorem tag_ne_zero_of_touches (hsound : Sound s) {now : ℕ} {tag : UInt32} {chunk : ParsedChunk}
    (h : s.touches now tag chunk = true) : tag ≠ 0 := by
  have htag : tag = s.config.verificationTag := by
    simp only [touches, Bool.and_eq_true, decide_eq_true_eq] at h
    exact h.1
  have hvalid := hsound.valid
  intro hzero
  have hconfig : s.config.verificationTag = 0 := htag.symm.trans hzero
  simp [AssociationConfig.validate, hconfig] at hvalid

theorem not_erases_of_tag {tag : UInt32} (htag : tag ≠ 0) (chunk : ParsedChunk) (s : Association) :
    s.erases tag chunk = false := by
  simp [erases, InitChunk.parse, htag, Except.isOk, Except.toBool]

/-- A packet that is accepted under a tag other than zero reports what it does. -/
theorem Tracks.acceptsAll {now : ℕ} {tag : UInt32} {chunks : List ParsedChunk} (hs : Tracks view s)
    (hsound : Sound s) (htag : tag ≠ 0)
    (haccepts : Association.acceptsAll now tag chunks s = true) :
    ∃ output t, (handleChunks now tag chunks).run s = (.ok output, t) ∧
      Tracks (trackEvents view output.events) t := by
  induction chunks generalizing s view with
  | nil => exact ⟨{}, s, rfl, hs⟩
  | cons chunk rest ih =>
    rw [Association.acceptsAll, Bool.and_eq_true] at haccepts
    obtain ⟨first, mid, hfirst, hmid⟩ := exists_of_accepts hsound haccepts.1
    rw [hfirst] at haccepts
    have htracks := hs.chunk hsound (not_erases_of_tag htag chunk s) hfirst
    obtain ⟨others, t, hothers, hrest⟩ := ih htracks hmid haccepts.2
    refine ⟨first ++ others, t, ?_, ?_⟩
    · rw [handleChunks, run_bind, hfirst]
      dsimp only
      rw [run_bind, hothers]
      rfl
    · rw [AssociationOutput.events_append, trackEvents_append]
      exact hrest

/-- A packet that meets the condition is accepted with its events, or refused with the channels as
they were. -/
theorem Tracks.reported {now : ℕ} {tag : UInt32} {chunks : List ParsedChunk} (hs : Tracks view s)
    (hsound : Sound s) (hreported : Association.reported now tag chunks s = true) :
    match (handleChunks now tag chunks).run s with
    | (.ok output, t) => Tracks (trackEvents view output.events) t
    | (.error _, t) => Tracks view t := by
  induction chunks generalizing s view with
  | nil => exact hs
  | cons chunk rest ih =>
    unfold Association.reported at hreported
    rw [Bool.and_eq_true, Bool.not_eq_true'] at hreported
    obtain ⟨herases, hreported⟩ := hreported
    by_cases htouches : s.touches now tag chunk = true
    · rw [if_pos htouches] at hreported
      obtain ⟨output, t, hrun, htracks⟩ :=
        hs.acceptsAll hsound (tag_ne_zero_of_touches hsound htouches) hreported
      rw [hrun]
      exact htracks
    rw [if_neg htouches] at hreported
    rw [Bool.not_eq_true] at htouches
    have hkept := hs.of_not_touches hsound herases htouches
    rw [handleChunks, run_bind]
    rcases hrun : (handleChunk now tag chunk).run s with ⟨error | first, mid⟩
    · rw [hrun] at hkept
      exact hkept
    have haccepts := isOk_handleChunk hsound now tag chunk
    have hmid := (handleChunk_effect now tag chunk hsound).sound hsound
    rw [hrun] at haccepts hkept hmid hreported
    rw [← haccepts] at hreported
    have hrest := ih hkept hmid (by simpa [Except.isOk, Except.toBool] using hreported)
    -- the events of this chunk leave the view alone: both views have the same members
    have hfirst : trackEvents view first.events = view := by
      ext streamId
      rw [hs.chunk hsound herases hrun streamId, hkept streamId]
    dsimp only
    rw [run_bind]
    rcases hothers : (handleChunks now tag rest).run mid with ⟨error | others, t⟩
    · rw [hothers] at hrest
      exact hrest
    · rw [hothers] at hrest
      show Tracks (trackEvents view (first ++ others).events) t
      rw [AssociationOutput.events_append, trackEvents_append, hfirst]
      exact hrest

theorem channels_sendMessage (now : ℕ) (streamId : UInt16) (kind : MessageKind) (payload : Bytes)
    (hsound : Sound s) (hs : Tracks view s) :
    Tracks view ((sendMessage now streamId kind payload).run s).2 := by
  obtain ⟨error, hrun⟩ | ⟨hstate, channel, message, wire, hchannel, hrun⟩ :=
    sendMessage_run now streamId kind payload s
  · rw [hrun]
    exact hs
  obtain ⟨peer, hpeer⟩ := hsound.known (.inr hstate)
  have hnumbered : ∀ other, other ∈ view ↔ other ∈ s.channels.insert streamId
      { channel with nextOutgoingSequence := channel.nextOutgoingSequence + 1 } := by
    intro other
    rw [hs other, Maps.mem_insert_iff]
    constructor
    · exact .inr
    · rintro (rfl | hother)
      · exact Maps.mem_of_getElem? hchannel
      · exact hother
  rw [hrun]
  obtain ⟨-, hqueue⟩ | ⟨-, packets, outstanding, hqueue, -⟩ :=
    enqueueMessage_run now message wire { s with
      channels := s.channels.insert streamId
        { channel with nextOutgoingSequence := channel.nextOutgoingSequence + 1 } } hpeer
  · rw [hqueue]
    exact hnumbered
  · rw [hqueue]
    exact hnumbered

theorem Tracks.step (hs : Tracks view s) (hsound : Sound s) {input : Input}
    (hmeets : input.meets Association.reported s = true) :
    Tracks (trackEvents view (input.delivered s)) (s.step input) := by
  cases input with
  | packet now bytes =>
    rw [Input.delivered, Association.step]
    rw [Input.meets] at hmeets
    rcases hparse : ParsedPacket.parse bytes with error | parsed
    · rw [handlePacket, hparse, run_ofExcept_bind]
      exact hs
    rw [hparse] at hmeets
    dsimp only at hmeets
    rw [handlePacket, hparse, run_ofExcept_bind]
    dsimp only
    rw [run_get_bind, run_ensure_bind]
    by_cases hports : parsed.sourcePort = s.config.remotePort ∧
        parsed.destinationPort = s.config.localPort
    swap
    · rw [if_neg hports]
      exact hs
    rw [decide_eq_true hports, Bool.not_true, Bool.false_or] at hmeets
    have htracks := hs.reported hsound hmeets
    rw [if_pos hports]
    rcases hrun : (handleChunks now parsed.verificationTag parsed.chunks).run s with
      ⟨error | output, t⟩
    · rw [hrun] at htracks
      exact htracks
    · rw [hrun] at htracks
      exact htracks
  | send now streamId kind payload => exact channels_sendMessage now streamId kind payload hsound hs
  | tick now =>
    obtain ⟨state, outstanding, abandoned, pendingForwardTsn, hrun, -⟩ := tick_run now s
    refine hs.congr ?_
    rw [Association.step, hrun]

theorem Tracks.run (hs : Tracks view s) (hsound : Sound s) {inputs : List Input}
    (hreported : allMeet Association.reported inputs s = true) :
    Tracks (trackEvents view (runDelivered inputs s)) (runInputs inputs s) := by
  induction inputs generalizing s view with
  | nil => exact hs
  | cons input rest ih =>
    rw [allMeet, Bool.and_eq_true] at hreported
    rw [runDelivered, trackEvents_append]
    exact ih (hs.step hsound hreported.1) (sound_step hsound input) hreported.2

/-- In every run that meets the condition, the events of the successful outputs show exactly the
open channels. -/
theorem tracks_of_reported {config : AssociationConfig} {start : Association}
    (hnew : new config = .ok start) (inputs : List Input)
    (hreported : allMeet Association.reported inputs start = true) (streamId : UInt16) :
    streamId ∈ trackEvents ∅ (runDelivered inputs start) ↔
      streamId ∈ (runInputs inputs start).channels := by
  have hstart : Tracks ∅ start := by
    intro streamId
    unfold new at hnew
    rcases hvalid : config.validate with error | ⟨⟩
    · rw [hvalid] at hnew
      cases hnew
    rw [hvalid] at hnew
    cases hnew
    simp
  exact hstart.run (sound_new hnew) hreported streamId

/-- Two channels are opened and one is closed. -/
theorem sample_tracks_of_reported :
    ∃ start, new Sample.config = .ok start ∧
      let inputs := Sample.establish false ++
        [.packet 2000000 (Sample.data 3 500 0 0 ppidDcep Sample.dcepOpenPayload),
          .packet 3000000 (Sample.data 3 501 2 0 ppidDcep Sample.dcepOpenPayload),
          .packet 4000000 (Sample.reset 500 0)]
      (runInputs inputs start).channels.keys = [2] ∧
        2 ∈ trackEvents ∅ (runDelivered inputs start) := by
  refine ⟨_, rfl, by decide +kernel, ?_⟩
  rw [@tracks_of_reported Sample.config _ rfl _ (by decide +kernel)]
  decide +kernel

/-- An INIT in an association with an open channel: the channel is gone, and no event says so. -/
theorem restart_not_tracked :
    ∃ start, new Sample.config = .ok start ∧
      let inputs := Sample.establish false ++
        [.packet 2000000 (Sample.data 3 500 0 0 ppidDcep Sample.dcepOpenPayload),
          .packet 3000000 (Sample.peerPacket 0 typeInit 0 (Sample.init false))]
      ¬∀ streamId, streamId ∈ trackEvents ∅ (runDelivered inputs start) ↔
        streamId ∈ (runInputs inputs start).channels := by
  refine ⟨_, rfl, ?_⟩
  intro inputs h
  have hzero := h 0
  revert hzero
  decide +kernel

end Association

end Fluvora.DataChannel

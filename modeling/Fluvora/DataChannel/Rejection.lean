import Fluvora.DataChannel.Reachable

/-!
# What a rejected packet leaves behind

`handlePacket` does not undo anything: when a chunk is refused, what the chunks before it and the
chunk itself have written stays.  `verdict` reads off the state before a chunk whether the chunk is
refused without an effect, passes without an effect, or writes.  A rejected packet leaves the state
alone if no chunk up to the refused one writes.
-/

open Std (ExtTreeMap)

namespace Fluvora.DataChannel

open Fallible

namespace Association

/-- What a chunk does to a state. -/
inductive Verdict
  | refused
  | passed
  | writes
deriving DecidableEq

/-- The verdict on two parts in sequence. -/
def Verdict.andThen : Verdict → Verdict → Verdict
  | .passed, rest => rest
  | verdict, _ => verdict

/-- Every INIT that parses starts the association over. -/
def initVerdict (s : Association) (tag : UInt32) (value : Bytes) : Verdict :=
  match InitChunk.parse tag value with
  | .error _ => .refused
  | .ok init => if restart init s = s then .passed else .writes

def cookieVerdict (s : Association) (tag : UInt32) (cookie : Bytes) : Verdict :=
  if s.state = .cookieWait ∧ tag = s.config.verificationTag ∧
      constantTimeEqual cookie s.config.cookie = true then .writes
  else .refused

/-- A new chunk inside the window is buffered, and moves the cumulative TSN if it is the next one,
before anything in it is looked at. -/
def dataVerdict (s : Association) (flags : UInt8) (value : Bytes) : Verdict :=
  if s.state = .established ∧ dataFixedLen - 4 ≤ value.length then
    match DataChunk.parse flags value, s.cumulativePeerTsn with
    | .ok data, some cumulative =>
        if s.duplicate cumulative data.tsn then .passed
        else if maxPendingTsn < (data.tsn - cumulative).toNat then .refused
        else .writes
    | _, _ => .refused
  else .refused

/-- A gap block covers the TSN. -/
def gapCovers (cumulative : UInt32) (blocks : List (UInt16 × UInt16)) (tsn : UInt32) : Bool :=
  blocks.any fun block => decide (block.1.toNat ≤ (tsn - cumulative).toNat) &&
    decide ((tsn - cumulative).toNat ≤ block.2.toNat)

/-- A SACK has something to acknowledge, by its cumulative TSN or by the gap blocks before the
first malformed one. -/
def acknowledges (s : Association) (cumulative : UInt32) (blocks : List (UInt16 × UInt16)) : Bool :=
  !sequenceLessOrEqual cumulative s.outboundCumulativeTsn ||
    s.outstanding.keys.any (fun tsn =>
      sequenceLessOrEqual tsn cumulative || gapCovers cumulative blocks tsn) ||
    s.abandoned.keys.any (fun tsn => sequenceLessOrEqual tsn cumulative) ||
    s.pendingForwardTsn.any fun pending => sequenceLessOrEqual pending.newCumulativeTsn cumulative

def sackVerdict (s : Association) (value : Bytes) : Verdict :=
  match sackHeader value with
  | none => .refused
  | some (cumulative, gapCount) =>
      if s.acknowledges cumulative (appliedGaps value 0 gapCount) then .writes
      else if (appliedGaps value 0 gapCount).length = gapCount then .passed
      else .refused

def heartbeatVerdict (s : Association) (value : Bytes) : Verdict :=
  match s.peerVerificationTag with
  | none => .refused
  | some peer =>
      if (s.packetWithChunk peer typeHeartbeatAck 0 value).isOk then .passed else .refused

def abortVerdict (s : Association) : Verdict :=
  if s.state = .closed then .passed else .writes

def shutdownVerdict (s : Association) : Verdict :=
  if s.state ≠ .closed then .writes
  else if s.peerVerificationTag.isSome then .passed
  else .refused

/-- A reset request with the expected sequence number takes it before its streams are checked. -/
def resetVerdict (s : Association) (fixedLen : ℕ) (value : Bytes) : Verdict :=
  if fixedLen ≤ value.length ∧ (value.length - fixedLen) % 2 = 0 then
    match readU32 value 0, s.nextPeerReconfigSequence with
    | .ok requestSequence, some expected =>
        if requestSequence = expected then .writes else .passed
    | _, _ => .refused
  else .refused

def parametersVerdict (s : Association) : List Parameter → Verdict
  | [] => .passed
  | parameter :: rest =>
      if parameter.kind = parameterOutgoingReset then
        (s.resetVerdict 12 parameter.value).andThen (parametersVerdict s rest)
      else if parameter.kind = parameterIncomingReset then
        (s.resetVerdict 4 parameter.value).andThen (parametersVerdict s rest)
      else if parameter.kind = parameterReconfigResponse then
        if parameter.value.length = 8 ∨ parameter.value.length = 16 then parametersVerdict s rest
        else .refused
      else .passed

def reconfigVerdict (s : Association) (value : Bytes) : Verdict :=
  match parseParameters value with
  | .error _ => .refused
  | .ok parameters =>
      if s.state = .established ∧ value ≠ [] ∧ parameters ≠ [] ∧ parameters.length ≤ 2 then
        s.parametersVerdict parameters
      else .refused

def forwardTsnVerdict (s : Association) (value : Bytes) : Verdict :=
  if s.forwardTsnAllowed value then
    match readU32 value 0, s.cumulativePeerTsn with
    | .ok newCumulativeTsn, some current =>
        if sequenceLessOrEqual newCumulativeTsn current then .passed else .writes
    | _, _ => .refused
  else .refused

/-- A handler behind the verification tag. -/
def guardedVerdict (s : Association) (tag : UInt32) (verdict : Verdict) : Verdict :=
  if tag = s.config.verificationTag then verdict else .refused

/-- What a chunk under a verification tag does to a state. -/
def verdict (s : Association) (tag : UInt32) (chunk : ParsedChunk) : Verdict :=
  if chunk.kind = typeInit then s.initVerdict tag chunk.value
  else if chunk.kind = typeCookieEcho then s.cookieVerdict tag chunk.value
  else if chunk.kind = typeData then
    s.guardedVerdict tag (s.dataVerdict chunk.flags chunk.value)
  else if chunk.kind = typeSack then s.guardedVerdict tag (s.sackVerdict chunk.value)
  else if chunk.kind = typeHeartbeat then s.guardedVerdict tag (s.heartbeatVerdict chunk.value)
  else if chunk.kind = typeAbort then s.abortVerdict
  else if chunk.kind = typeShutdown then s.guardedVerdict tag s.shutdownVerdict
  else if chunk.kind = typeReConfig then s.guardedVerdict tag (s.reconfigVerdict chunk.value)
  else if chunk.kind = typeForwardTsn then s.guardedVerdict tag (s.forwardTsnVerdict chunk.value)
  else .passed

/-- An action does what a verdict says. -/
def Follows (s : Association) (action : Action AssociationOutput) : Verdict → Prop
  | .refused => ∃ error, action.run s = (.error error, s)
  | .passed => ∃ output, action.run s = (.ok output, s)
  | .writes => (action.run s).2 ≠ s

theorem Follows.guarded {s : Association} {action : Action AssociationOutput} {verdict : Verdict}
    (tag : UInt32) (h : Follows s action verdict) :
    Follows s (guarded tag action) (s.guardedVerdict tag verdict) := by
  unfold guardedVerdict
  by_cases htag : tag = s.config.verificationTag
  · rw [if_pos htag]
    cases verdict with
    | refused =>
      obtain ⟨error, hrun⟩ := h
      exact ⟨error, by rw [guarded_run, if_pos htag, hrun]⟩
    | passed =>
      obtain ⟨output, hrun⟩ := h
      exact ⟨output, by rw [guarded_run, if_pos htag, hrun]⟩
    | writes =>
      show ((Association.guarded tag action).run s).2 ≠ s
      rw [guarded_run, if_pos htag]
      exact h
  · rw [if_neg htag]
    exact ⟨_, by rw [guarded_run, if_neg htag]⟩

/-! ## The handshake -/

theorem initAck_ok {config : AssociationConfig} (hvalid : config.validate = .ok ())
    (init : InitChunk) : ∃ ack, initAck config init = .ok ack ∧ ack.length ≤ 65516 := by
  have hcookie : config.cookie.length ≤ 256 := by
    unfold AssociationConfig.validate at hvalid
    split_ifs at hvalid with hinvalid
    simp only [not_or, not_not] at hinvalid
    exact hinvalid.2.2.2.1.2
  have hpush : ∀ kind : UInt16, ∀ value : Bytes, value.length ≤ 256 →
      ∃ parameter, pushParameter kind value = .ok parameter ∧ parameter.length ≤ 264 := by
    intro kind value hlen
    unfold pushParameter
    rw [if_neg (by omega)]
    refine ⟨_, rfl, ?_⟩
    simp only [List.length_append, Bytes.length_ofU16, List.length_replicate]
    omega
  obtain ⟨cookie, hpushed, hlen⟩ := hpush parameterStateCookie config.cookie hcookie
  obtain ⟨forward, hforward, hlen'⟩ := hpush parameterForwardTsnSupported [] (by simp)
  unfold initAck
  rw [hpushed, hforward]
  by_cases hsupported : init.forwardTsnSupported = true
  · simp only [hsupported, if_true]
    refine ⟨_, rfl, ?_⟩
    simp only [List.length_append, Bytes.length_ofU32, Bytes.length_ofU16]
    omega
  · simp only [hsupported, Bool.false_eq_true, if_false]
    refine ⟨_, rfl, ?_⟩
    simp only [List.length_append, Bytes.length_ofU32, Bytes.length_ofU16, List.length_nil]
    omega

/-- An INIT that parses starts over, any other one does nothing. -/
theorem handleInit_run {s : Association} (hs : Sound s) (tag : UInt32) (value : Bytes) :
    match InitChunk.parse tag value with
    | .error error => (handleInit tag value).run s = (.error error, s)
    | .ok init => ∃ output, (handleInit tag value).run s = (.ok output, restart init s) ∧
        output.events = [] := by
  rw [handleInit, run_ofExcept_bind]
  rcases InitChunk.parse tag value with error | init
  · rfl
  obtain ⟨ack, hack, hlen⟩ := initAck_ok hs.valid init
  obtain ⟨packet, hpacket⟩ := (restart init s).packetWithChunk_ok init.peerTag typeInitAck 0 hlen
  have hconfig : (restart init s).config = s.config := rfl
  dsimp only
  rw [run_modify_bind, run_get_bind, hconfig, hack, run_ofExcept_bind]
  dsimp only
  rw [hpacket]
  exact ⟨_, rfl, rfl⟩

theorem follows_init {s : Association} (hs : Sound s) (tag : UInt32) (value : Bytes) :
    Follows s (handleInit tag value) (s.initVerdict tag value) := by
  have hinit := handleInit_run hs tag value
  unfold initVerdict
  rcases hparse : InitChunk.parse tag value with error | init
  · rw [hparse] at hinit
    exact ⟨error, hinit⟩
  rw [hparse] at hinit
  obtain ⟨output, hrun, -⟩ := hinit
  dsimp only
  by_cases hsame : restart init s = s
  · rw [if_pos hsame]
    exact ⟨output, by rw [hrun, hsame]⟩
  · rw [if_neg hsame]
    show ((handleInit tag value).run s).2 ≠ s
    rw [hrun]
    exact hsame

theorem follows_cookieEcho (s : Association) (tag : UInt32) (cookie : Bytes) :
    Follows s (handleCookieEcho tag cookie) (s.cookieVerdict tag cookie) := by
  generalize haction : handleCookieEcho tag cookie = action
  have hrun : (handleCookieEcho tag cookie).run s = action.run s := by rw [haction]
  rw [handleCookieEcho, run_get_bind, run_ensure_bind] at hrun
  unfold cookieVerdict
  by_cases hstate : s.state = .cookieWait
  swap
  · rw [if_neg hstate] at hrun
    rw [if_neg fun h => hstate h.1]
    exact ⟨_, hrun.symm⟩
  rw [if_pos hstate, run_ofExcept_bind, requireVerificationTag] at hrun
  by_cases htag : tag = s.config.verificationTag
  swap
  · rw [if_neg htag] at hrun
    rw [if_neg fun h => htag h.2.1]
    exact ⟨_, hrun.symm⟩
  rw [if_pos htag] at hrun
  dsimp only at hrun
  rw [run_ensure_bind] at hrun
  by_cases hcookie : constantTimeEqual cookie s.config.cookie = true
  swap
  · rw [if_neg hcookie] at hrun
    rw [if_neg fun h => hcookie h.2.2]
    exact ⟨_, hrun.symm⟩
  rw [if_pos hcookie, run_modify_bind, run_ofExcept_bind] at hrun
  rw [if_pos ⟨hstate, htag, hcookie⟩]
  have hestablished : (action.run s).2.state = .established := by
    rw [← hrun]
    rcases s.peerTag with error | peer
    · rfl
    dsimp only
    rw [run_ofExcept_bind]
    rcases s.packetWithChunk peer typeCookieAck 0 [] with error | packet
    · rfl
    · rfl
  intro hsame
  rw [hsame, hstate] at hestablished
  cases hestablished

/-! ## Data -/

/-- A moved cumulative TSN is a changed state. -/
theorem ne_of_cumulativePeerTsn {s t : Association} {cumulative : UInt32} {n : ℕ}
    (hs : s.cumulativePeerTsn = some cumulative)
    (ht : t.cumulativePeerTsn = some (cumulative + .ofNat n)) (hpos : 0 < n) (hlt : n < 2 ^ 32) :
    t ≠ s := by
  rintro rfl
  rw [hs, Option.some.injEq] at ht
  have hdistance := Serial.toNat_add_ofNat_sub cumulative hlt
  rw [← ht] at hdistance
  simp at hdistance
  omega

theorem follows_data {s : Association} (hs : Sound s) (now : ℕ) (flags : UInt8) (value : Bytes) :
    Follows s (handleData now flags value) (s.dataVerdict flags value) := by
  unfold dataVerdict
  by_cases hguard : s.state = .established ∧ dataFixedLen - 4 ≤ value.length
  swap
  · rw [if_neg hguard]
    refine ⟨.unexpectedState, ?_⟩
    rw [handleData, run_get_bind, run_ensure_bind, if_neg hguard]
  rw [if_pos hguard]
  obtain ⟨peer, hpeer⟩ := hs.known (.inr hguard.1)
  obtain ⟨⟨cumulative, hcum⟩, -⟩ := hs.started peer hpeer
  have hbuf := hs.buffered cumulative hcum
  obtain ⟨hwrong, -⟩ | ⟨data, -, hdata, hcases⟩ := handleData_run now flags value hpeer hcum hbuf
  · exact absurd hguard hwrong
  rw [hdata, hcum]
  dsimp only
  obtain ⟨hdup, sack, hrun⟩ | ⟨hnew, hwindow, hrun⟩ | ⟨hnew, hwindow, hrun⟩ := hcases
  · rw [if_pos hdup]
    exact ⟨_, hrun⟩
  · rw [hnew, if_neg Bool.false_ne_true, if_pos hwindow]
    exact ⟨_, hrun⟩
  · rw [hnew, if_neg Bool.false_ne_true, if_neg (by omega)]
    obtain ⟨batch, pending, hdrain, hlen, hbatch, hpending, -⟩ := drain_buffered
      (s := s.buffer data) hcum (buffered_buffer hbuf hnew hwindow)
    rw [hdrain] at hrun
    have hframe := processAll_frame now batch (s := { s.buffer data with
      pendingData := pending
      cumulativePeerTsn := some (cumulative + .ofNat batch.length) }) hpeer
    have hstate : ((handleData now flags value).run s).2 = ((processAll now batch).run
        { s.buffer data with
          pendingData := pending
          cumulativePeerTsn := some (cumulative + .ofNat batch.length) }).2 := by
      rcases hrun with ⟨error, -, hrun⟩ | ⟨output, sack, -, hrun⟩
      · rw [hrun]
      · rw [hrun]
    show ((handleData now flags value).run s).2 ≠ s
    rw [hstate]
    by_cases hempty : batch.length = 0
    · -- nothing is released: the chunk is in the buffer now
      intro hsame
      have hafter : pending[data.tsn]? = some data := by
        have hpos : data.tsn - cumulative ≠ 0 := by
          intro hzero
          simp [duplicate, hzero] at hnew
        have hne : (data.tsn - cumulative).toNat ≠ 0 := fun hzero =>
          hpos (UInt32.toNat_inj.mp hzero)
        rw [hpending, if_neg (by omega), buffer, ExtTreeMap.getElem?_insert_self]
      have hbuffered : s.pendingData = pending := by
        rw [← hsame]
        exact hframe.pendingData
      have hmem : s.pendingData.contains data.tsn = true := by
        rw [hbuffered]
        exact ExtTreeMap.contains_iff_mem.mpr (Maps.mem_of_getElem? hafter)
      simp [duplicate, hmem] at hnew
    · exact ne_of_cumulativePeerTsn hcum hframe.cumulativePeerTsn (by omega)
        (by unfold maxPendingTsn at hlen; omega)

theorem follows_forwardTsn {s : Association} (hs : Sound s) (now : ℕ) (value : Bytes) :
    Follows s (handleForwardTsn now value) (s.forwardTsnVerdict value) := by
  unfold forwardTsnVerdict
  by_cases hallowed : s.forwardTsnAllowed value = true
  swap
  · rw [if_neg hallowed]
    refine ⟨.malformedChunk, ?_⟩
    rw [handleForwardTsn, run_get_bind, run_ensure_bind, if_neg]
    simpa [forwardTsnAllowed, and_assoc] using hallowed
  rw [if_pos hallowed]
  have hguard : s.state = .established ∧ 4 ≤ value.length := by
    simp only [forwardTsnAllowed, Bool.and_eq_true, decide_eq_true_eq] at hallowed
    exact ⟨hallowed.1.1.1, hallowed.1.2⟩
  obtain ⟨peer, hpeer⟩ := hs.known (.inr hguard.1)
  obtain ⟨⟨current, hcum⟩, -⟩ := hs.started peer hpeer
  have hbuf := hs.buffered current hcum
  obtain ⟨hwrong, -⟩ | ⟨newCumulativeTsn, -, hread, hcases⟩ :=
    handleForwardTsn_run now value hpeer hcum hbuf
  · rw [hallowed] at hwrong
    cases hwrong
  rw [hread, hcum]
  dsimp only
  obtain ⟨hle, sack, hrun⟩ | ⟨hnew, hrun⟩ := hcases
  · rw [if_pos hle]
    exact ⟨_, hrun⟩
  · rw [hnew, if_neg Bool.false_ne_true]
    obtain ⟨reassembly, -, hstart⟩ := forwarded_eq (s := s) newCumulativeTsn hguard.2
    obtain ⟨-, count, hcount, hcum', -⟩ := releasePending_run now
      (s.forwarded value newCumulativeTsn).pendingData.size newCumulativeTsn
      (s := s.forwarded value newCumulativeTsn) (by rw [hstart, hpeer]) (by rw [hstart]) le_rfl
      (buffered_forwarded hbuf hnew)
    have hsize : (s.forwarded value newCumulativeTsn).pendingData.size < maxPendingTsn := by
      rw [hstart]
      exact ExtTreeMap.size_filter_le_size.trans_lt hbuf.size_lt
    have hjump : current + UInt32.ofNat ((newCumulativeTsn - current).toNat + count) =
        newCumulativeTsn + UInt32.ofNat count := by
      rw [UInt32.ofNat_add, ← UInt32.add_assoc, Serial.add_ofNat_toNat_sub]
    rw [not_sequenceLessOrEqual] at hnew
    rw [← hjump] at hcum'
    unfold maxPendingTsn at hsize
    show ((handleForwardTsn now value).run s).2 ≠ s
    rcases hrun with ⟨error, -, hrun⟩ | ⟨output, sack, -, hrun⟩
    · rw [hrun]
      exact ne_of_cumulativePeerTsn hcum hcum' (by omega) (by omega)
    · rw [hrun]
      exact ne_of_cumulativePeerTsn hcum hcum' (by omega) (by omega)

/-! ## Acknowledgements -/

theorem gapCovers_iff {cumulative tsn : UInt32} {blocks : List (UInt16 × UInt16)} :
    gapCovers cumulative blocks tsn = true ↔ ∃ block ∈ blocks, ∃ delta,
      block.1.toNat ≤ delta ∧ delta ≤ block.2.toNat ∧ tsn = cumulative + .ofNat delta := by
  simp only [gapCovers, List.any_eq_true, Bool.and_eq_true, decide_eq_true_eq]
  constructor
  · rintro ⟨block, hblock, hlo, hhi⟩
    exact ⟨block, hblock, _, hlo, hhi, (Serial.add_ofNat_toNat_sub cumulative tsn).symm⟩
  · rintro ⟨block, hblock, delta, hlo, hhi, rfl⟩
    have := block.2.toNat_lt
    rw [Serial.toNat_add_ofNat_sub _ (by omega)]
    exact ⟨block, hblock, hlo, hhi⟩

/-- Gap blocks that cover nothing outstanding acknowledge nothing. -/
theorem ackBlocks_eq_self {cumulative : UInt32} {blocks : List (UInt16 × UInt16)}
    {outstanding : ExtTreeMap UInt32 Outstanding}
    (h : ∀ tsn ∈ outstanding, gapCovers cumulative blocks tsn = false) :
    ackBlocks cumulative blocks outstanding = outstanding := by
  have hrange : ∀ deltas : List ℕ,
      (∀ delta ∈ deltas, cumulative + UInt32.ofNat delta ∉ outstanding) →
      deltas.foldl (fun o delta => o.erase (cumulative + .ofNat delta)) outstanding =
        outstanding := by
    intro deltas hfree
    induction deltas with
    | nil => rfl
    | cons delta rest ih =>
      rw [List.foldl_cons, Maps.erase_of_not_mem (hfree delta List.mem_cons_self)]
      exact ih fun delta hmem => hfree delta (List.mem_cons_of_mem _ hmem)
  induction blocks with
  | nil => rfl
  | cons block rest ih =>
    have hfree : ackRange cumulative block.1.toNat block.2.toNat outstanding = outstanding := by
      refine hrange _ fun delta hmem hout => ?_
      rw [List.mem_range'_1] at hmem
      have hcovers : gapCovers cumulative (block :: rest) (cumulative + .ofNat delta) = true :=
        gapCovers_iff.mpr ⟨block, List.mem_cons_self, delta, hmem.1, by omega, rfl⟩
      rw [h _ hout] at hcovers
      cases hcovers
    rw [ackBlocks, List.foldl_cons, hfree]
    refine ih fun tsn hmem => ?_
    have := h tsn hmem
    rw [gapCovers, List.any_cons, Bool.or_eq_false_iff] at this
    exact this.2

/-- What a SACK with a good header leaves. -/
def acknowledged (s : Association) (cumulative : UInt32) (blocks : List (UInt16 × UInt16)) :
    Association :=
  { ackCumulative cumulative s with
    outstanding := ackBlocks cumulative blocks (ackCumulative cumulative s).outstanding }

theorem acknowledged_eq_self {s : Association} {cumulative : UInt32}
    {blocks : List (UInt16 × UInt16)} (h : s.acknowledges cumulative blocks = false) :
    s.acknowledged cumulative blocks = s := by
  simp only [acknowledges, Bool.or_eq_false_iff, Bool.not_eq_false', List.any_eq_false,
    ExtTreeMap.mem_keys, Bool.not_eq_true] at h
  obtain ⟨⟨⟨hcum, hout⟩, haband⟩, hpending⟩ := h
  have hkept : (ackCumulative cumulative s).outstanding = s.outstanding := by
    refine ExtTreeMap.filter_eq_self_iff.mpr fun tsn hmem => ?_
    simp [(hout tsn hmem).1]
  have hkept' : (ackCumulative cumulative s).abandoned = s.abandoned := by
    refine ExtTreeMap.filter_eq_self_iff.mpr fun tsn hmem => ?_
    simp [haband tsn hmem]
  have hblocks : ackBlocks cumulative blocks (ackCumulative cumulative s).outstanding =
      s.outstanding := by
    rw [hkept]
    exact ackBlocks_eq_self fun tsn hmem => (hout tsn hmem).2
  unfold acknowledged
  rw [hblocks]
  unfold ackCumulative at hkept' ⊢
  dsimp only at hkept' ⊢
  rw [hkept', hcum, hpending]
  rfl

theorem acknowledged_ne_self {s : Association} {cumulative : UInt32}
    {blocks : List (UInt16 × UInt16)} (h : s.acknowledges cumulative blocks = true) :
    s.acknowledged cumulative blocks ≠ s := by
  simp only [acknowledges, Bool.or_eq_true, Bool.not_eq_true', List.any_eq_true,
    ExtTreeMap.mem_keys] at h
  intro hsame
  rcases h with ((hcum | ⟨tsn, hmem, hcovered⟩) | ⟨tsn, hmem, hcovered⟩) | hpending
  · have hmoved : (s.acknowledged cumulative blocks).outboundCumulativeTsn = cumulative := by
      simp [acknowledged, ackCumulative, hcum]
    rw [hsame] at hmoved
    rw [hmoved] at hcum
    simp [sequenceLessOrEqual] at hcum
  · rw [← hsame] at hmem
    obtain ⟨hkept, hgaps⟩ := mem_ackBlocks.mp hmem
    rcases hcovered with hle | hgap
    · obtain ⟨_, hfilter⟩ := ExtTreeMap.mem_filter.mp hkept
      simp [hle] at hfilter
    · obtain ⟨block, hblock, delta, hlo, hhi, heq⟩ := gapCovers_iff.mp hgap
      exact hgaps block hblock delta hlo hhi heq
  · rw [← hsame] at hmem
    obtain ⟨_, hfilter⟩ := ExtTreeMap.mem_filter.mp hmem
    simp [hcovered] at hfilter
  · have hcleared : (s.acknowledged cumulative blocks).pendingForwardTsn = none := by
      simp [acknowledged, ackCumulative, hpending]
    rw [hsame] at hcleared
    rw [hcleared] at hpending
    cases hpending

theorem follows_sack (s : Association) (value : Bytes) :
    Follows s (do handleSack value; return {}) (s.sackVerdict value) := by
  have hsack := handleSack_run value s
  unfold sackVerdict
  generalize sackHeader value = header at hsack ⊢
  rcases header with - | ⟨cumulative, gapCount⟩
  · obtain ⟨error, hrun⟩ := hsack
    exact ⟨error, by rw [run_bind, hrun]⟩
  · obtain ⟨result, hrun, hok⟩ := hsack
    dsimp only
    by_cases hack : s.acknowledges cumulative (appliedGaps value 0 gapCount) = true
    · rw [if_pos hack]
      show ((do handleSack value; return {} : Action AssociationOutput).run s).2 ≠ s
      rw [state_run_bind_pure, hrun]
      exact acknowledged_ne_self hack
    rw [if_neg hack]
    rw [Bool.not_eq_true] at hack
    have hsame := acknowledged_eq_self hack
    unfold acknowledged at hsame
    rw [hsame] at hrun
    by_cases hcomplete : (appliedGaps value 0 gapCount).length = gapCount
    · rw [if_pos hcomplete]
      obtain ⟨result', rfl⟩ := exists_ok_of_isOk (hok.mpr hcomplete)
      exact ⟨{}, by rw [run_bind, hrun]; rfl⟩
    · rw [if_neg hcomplete]
      obtain ⟨error, rfl⟩ := exists_error_of_isOk (Bool.eq_false_iff.mpr fun h =>
        hcomplete (hok.mp h))
      exact ⟨error, by rw [run_bind, hrun]⟩

/-! ## Heartbeat, abort and shutdown -/

theorem follows_heartbeat (s : Association) (value : Bytes) :
    Follows s (handleHeartbeat value) (s.heartbeatVerdict value) := by
  unfold heartbeatVerdict
  rcases hpeer : s.peerVerificationTag with _ | peer
  · refine ⟨.unexpectedState, ?_⟩
    rw [handleHeartbeat, run_get_bind, run_ofExcept_bind, peerTag, hpeer]
    rfl
  dsimp only
  rcases hpacket : s.packetWithChunk peer typeHeartbeatAck 0 value with error | packet
  · refine ⟨error, ?_⟩
    rw [handleHeartbeat, run_get_bind, run_ofExcept_bind, peerTag_eq hpeer]
    dsimp only
    rw [run_ofExcept_bind, hpacket]
  · refine ⟨{ packets := [packet] }, ?_⟩
    rw [handleHeartbeat, run_get_bind, run_ofExcept_bind, peerTag_eq hpeer]
    dsimp only
    rw [run_ofExcept_bind, hpacket]
    rfl

theorem follows_abort (s : Association) : Follows s handleAbort s.abortVerdict := by
  unfold abortVerdict
  by_cases hclosed : s.state = .closed
  · rw [if_pos hclosed]
    have hself : ({ s with state := .closed } : Association) = s := by rw [← hclosed]
    exact ⟨{ events := [.closed] }, by rw [handleAbort, run_modify_bind, hself]; rfl⟩
  · rw [if_neg hclosed]
    intro hsame
    have hstate : (handleAbort.run s).2.state = .closed := rfl
    rw [hsame] at hstate
    exact hclosed hstate

theorem follows_shutdown (s : Association) : Follows s handleShutdown s.shutdownVerdict := by
  unfold shutdownVerdict
  by_cases hclosed : s.state = .closed
  swap
  · rw [if_pos hclosed]
    show (handleShutdown.run s).2 ≠ s
    intro hsame
    rw [handleShutdown_state] at hsame
    rw [← hsame] at hclosed
    exact hclosed rfl
  rw [if_neg (not_not.mpr hclosed)]
  have hself : ({ s with state := .closed } : Association) = s := by rw [← hclosed]
  rcases hpeer : s.peerVerificationTag with _ | peer
  · refine ⟨.unexpectedState, ?_⟩
    rw [handleShutdown, run_modify_bind, hself, run_get_bind, run_ofExcept_bind, peerTag, hpeer]
    rfl
  · obtain ⟨packet, hpacket⟩ := s.packetWithChunk_ok peer typeShutdownAck 0
      (show ([] : Bytes).length ≤ 65516 by simp)
    refine ⟨{ packets := [packet], events := [.closed] }, ?_⟩
    rw [handleShutdown, run_modify_bind, hself, run_get_bind, run_ofExcept_bind, peerTag_eq hpeer]
    dsimp only
    rw [run_ofExcept_bind, hpacket]
    rfl

/-! ## Stream resets -/

theorem reconfigResponse_ok (requestSequence result : UInt32) :
    ∃ response, reconfigResponse requestSequence result = .ok response ∧ response.length = 12 := by
  refine ⟨_, rfl, ?_⟩
  simp only [List.length_append, Bytes.length_ofU16, Bytes.length_ofU32, List.length_replicate]

/-- Whatever becomes of a reset, its sequence number is taken. -/
theorem performReset_sequence (expected : UInt32) (streamNumbers : Bytes) (s : Association) :
    ((performReset expected streamNumbers).run s).2.nextPeerReconfigSequence =
      some (expected + 1) := by
  rw [performReset, run_modify_bind, run_get_bind, run_ofExcept_bind]
  rcases parseStreamNumbers streamNumbers s.peerOutboundStreams with error | streams
  · rfl
  obtain ⟨channels, reassembly, hclose, -⟩ := closeStreams_run
    (resetStreams { s with nextPeerReconfigSequence := some (expected + 1) } streams)
    { s with nextPeerReconfigSequence := some (expected + 1) }
  dsimp only
  rw [hclose]
  rfl

/-- What one reset request does, by its verdict. -/
def ResetFollows (s : Association) (expected : UInt32)
    (action : Action (Bytes × AssociationOutput)) : Verdict → Prop
  | .refused => ∃ error, action.run s = (.error error, s)
  | .passed => ∃ response, action.run s = (.ok (response, {}), s) ∧ response.length = 12
  | .writes => (action.run s).2.nextPeerReconfigSequence = some (expected + 1)

theorem resetFollows_outgoing {s : Association} {expected : UInt32} (value : Bytes)
    (h : s.nextPeerReconfigSequence = some expected) :
    ResetFollows s expected (handleOutgoingReset value) (s.resetVerdict 12 value) := by
  generalize haction : handleOutgoingReset value = action
  have hrun : (handleOutgoingReset value).run s = action.run s := by rw [haction]
  rw [handleOutgoingReset, run_ensure_bind] at hrun
  unfold resetVerdict
  by_cases hlen : 12 ≤ value.length ∧ (value.length - 12) % 2 = 0
  swap
  · rw [if_neg hlen] at hrun
    rw [if_neg hlen]
    exact ⟨_, hrun.symm⟩
  rw [if_pos hlen, run_ofExcept_bind] at hrun
  rw [if_pos hlen]
  rcases hread : readU32 value 0 with error | requestSequence
  · rw [hread] at hrun
    exact ⟨_, hrun.symm⟩
  rw [hread] at hrun
  dsimp only at hrun
  rw [run_get_bind, run_ofOption_bind, h] at hrun
  rw [h]
  dsimp only at hrun ⊢
  by_cases hexpected : requestSequence = expected
  · rw [if_pos hexpected] at hrun
    rw [if_pos hexpected]
    show (action.run s).2.nextPeerReconfigSequence = some (expected + 1)
    rw [← hrun]
    refine run_bind_invariant (I := fun t : Association => t.nextPeerReconfigSequence = some (expected + 1))
      (performReset_sequence expected _ s) fun _ t _ ht => ?_
    obtain ⟨response, hresponse, -⟩ := reconfigResponse_ok requestSequence reconfigSuccessPerformed
    rw [run_ofExcept_bind, hresponse]
    exact ht
  · obtain ⟨response, hresponse, hlen⟩ :=
      reconfigResponse_ok requestSequence reconfigErrorBadSequence
    rw [if_neg hexpected, run_ofExcept_bind, hresponse] at hrun
    rw [if_neg hexpected]
    exact ⟨response, hrun.symm, hlen⟩

theorem resetFollows_incoming {s : Association} {expected : UInt32} (value : Bytes)
    (h : s.nextPeerReconfigSequence = some expected) :
    ResetFollows s expected (handleIncomingReset value) (s.resetVerdict 4 value) := by
  generalize haction : handleIncomingReset value = action
  have hrun : (handleIncomingReset value).run s = action.run s := by rw [haction]
  rw [handleIncomingReset, run_ensure_bind] at hrun
  unfold resetVerdict
  by_cases hlen : 4 ≤ value.length ∧ (value.length - 4) % 2 = 0
  swap
  · rw [if_neg hlen] at hrun
    rw [if_neg hlen]
    exact ⟨_, hrun.symm⟩
  rw [if_pos hlen, run_ofExcept_bind] at hrun
  rw [if_pos hlen]
  rcases hread : readU32 value 0 with error | requestSequence
  · rw [hread] at hrun
    exact ⟨_, hrun.symm⟩
  rw [hread] at hrun
  dsimp only at hrun
  rw [run_get_bind, run_ofOption_bind, h] at hrun
  rw [h]
  dsimp only at hrun ⊢
  by_cases hexpected : requestSequence = expected
  · rw [if_neg (not_not.mpr hexpected)] at hrun
    rw [if_pos hexpected]
    show (action.run s).2.nextPeerReconfigSequence = some (expected + 1)
    rw [← hrun]
    refine run_bind_invariant (I := fun t : Association => t.nextPeerReconfigSequence = some (expected + 1))
      (performReset_sequence expected _ s) fun result t _ ht => ?_
    obtain ⟨streams, output⟩ := result
    dsimp only
    rw [run_get_bind, run_modify_bind, run_ofExcept_bind]
    split
    · exact ht
    · exact ht
  · obtain ⟨response, hresponse, hlen⟩ :=
      reconfigResponse_ok requestSequence reconfigErrorBadSequence
    rw [if_pos hexpected, run_ofExcept_bind, hresponse] at hrun
    rw [if_neg hexpected]
    exact ⟨response, hrun.symm, hlen⟩

/-- Every parameter takes at most one sequence number. -/
theorem handleParameters_sequence (parameters : List Parameter) {s : Association}
    {expected : UInt32} (h : s.nextPeerReconfigSequence = some expected) :
    ∃ count ≤ parameters.length,
      ((handleParameters parameters).run s).2.nextPeerReconfigSequence =
        some (expected + .ofNat count) := by
  induction parameters generalizing s expected with
  | nil => exact ⟨0, le_rfl, by simpa [handleParameters] using h⟩
  | cons parameter rest ih =>
    have hreset : ∀ (action : Action (Bytes × AssociationOutput)) (verdict : Verdict)
        (next : Bytes × AssociationOutput → Bytes × AssociationOutput →
          Bytes × AssociationOutput),
        ResetFollows s expected action verdict →
        ∃ count ≤ rest.length + 1, ((do
            let first ← action
            let others ← handleParameters rest
            return next first others).run s).2.nextPeerReconfigSequence =
          some (expected + .ofNat count) := by
      intro action verdict next hfollows
      rw [run_bind]
      have hafter : ∃ taken ≤ 1, (action.run s).2.nextPeerReconfigSequence =
          some (expected + .ofNat taken) := by
        cases verdict with
        | refused =>
          obtain ⟨error, hrun⟩ := hfollows
          exact ⟨0, by omega, by rw [hrun]; simpa using h⟩
        | passed =>
          obtain ⟨response, hrun, -⟩ := hfollows
          exact ⟨0, by omega, by rw [hrun]; simpa using h⟩
        | writes => exact ⟨1, le_rfl, hfollows⟩
      obtain ⟨taken, htaken, hafter⟩ := hafter
      rcases hrun : action.run s with ⟨error | first, t⟩
      · rw [hrun] at hafter
        exact ⟨taken, by omega, hafter⟩
      · rw [hrun] at hafter
        obtain ⟨count, hcount, hrest⟩ := ih hafter
        refine ⟨taken + count, by omega, ?_⟩
        dsimp only
        rw [state_run_bind_pure, hrest, UInt32.ofNat_add, UInt32.add_assoc]
    rw [handleParameters]
    split_ifs
    · exact hreset _ _ _ (resetFollows_outgoing parameter.value h)
    · exact hreset _ _ _ (resetFollows_incoming parameter.value h)
    · rw [run_ensure_bind]
      split_ifs
      · obtain ⟨count, hcount, hrest⟩ := ih h
        exact ⟨count, Nat.le_succ_of_le hcount, hrest⟩
      · exact ⟨0, Nat.zero_le _, by simpa using h⟩
    · exact ⟨0, Nat.zero_le _, by simpa using h⟩

/-- What a list of parameters does, by its verdict. -/
def ParametersFollow (s : Association) (expected : UInt32) (parameters : List Parameter) :
    Verdict → Prop
  | .refused => ∃ error, (handleParameters parameters).run s = (.error error, s)
  | .passed => ∃ response output, (handleParameters parameters).run s =
      (.ok (response, output), s) ∧ response.length ≤ 12 * parameters.length
  | .writes => ∃ count, 0 < count ∧ count ≤ parameters.length ∧
      ((handleParameters parameters).run s).2.nextPeerReconfigSequence =
        some (expected + .ofNat count)

/-- A reset request, and what follows it. -/
theorem parametersFollow_reset {s : Association} {expected : UInt32} {parameter : Parameter}
    {rest : List Parameter} {action : Action (Bytes × AssociationOutput)} {verdict : Verdict}
    (haction : handleParameters (parameter :: rest) = do
      let (response, output) ← action
      let (responses, outputs) ← handleParameters rest
      return (response ++ responses, output ++ outputs))
    (hreset : ResetFollows s expected action verdict)
    (hrest : ParametersFollow s expected rest (s.parametersVerdict rest)) :
    ParametersFollow s expected (parameter :: rest)
      (verdict.andThen (s.parametersVerdict rest)) := by
  cases verdict with
  | refused =>
    obtain ⟨error, hrun⟩ := hreset
    exact ⟨error, by rw [haction, run_bind, hrun]⟩
  | passed =>
    obtain ⟨response, hrun, hlen⟩ := hreset
    rw [Verdict.andThen]
    cases hverdict : s.parametersVerdict rest with
    | refused =>
      rw [hverdict] at hrest
      obtain ⟨error, hrun'⟩ := hrest
      refine ⟨error, ?_⟩
      rw [haction, run_bind, hrun]
      dsimp only
      rw [run_bind, hrun']
    | passed =>
      rw [hverdict] at hrest
      obtain ⟨responses, outputs, hrun', hlen'⟩ := hrest
      refine ⟨response ++ responses, {} ++ outputs, ?_, ?_⟩
      · rw [haction, run_bind, hrun]
        dsimp only
        rw [run_bind, hrun']
        rfl
      · rw [List.length_append, List.length_cons]
        omega
    | writes =>
      rw [hverdict] at hrest
      obtain ⟨count, hpos, hle, hsequence⟩ := hrest
      refine ⟨count, hpos, Nat.le_succ_of_le hle, ?_⟩
      rw [haction, run_bind, hrun]
      dsimp only
      rw [state_run_bind_pure]
      exact hsequence
  | writes =>
    -- the sequence number is taken, and the rest can only take more
    have hreset : (action.run s).2.nextPeerReconfigSequence = some (expected + 1) := hreset
    show ∃ count, 0 < count ∧ count ≤ rest.length + 1 ∧ _
    rw [haction, run_bind]
    rcases hrun : action.run s with ⟨error | first, t⟩
    · rw [hrun] at hreset
      exact ⟨1, Nat.one_pos, by omega, hreset⟩
    · rw [hrun] at hreset
      obtain ⟨count, hcount, hsequence⟩ := handleParameters_sequence rest hreset
      refine ⟨1 + count, by omega, by omega, ?_⟩
      dsimp only
      rw [state_run_bind_pure, hsequence, UInt32.ofNat_add, UInt32.add_assoc]
      rfl

theorem parametersFollow (parameters : List Parameter) {s : Association} {expected : UInt32}
    (h : s.nextPeerReconfigSequence = some expected) :
    ParametersFollow s expected parameters (s.parametersVerdict parameters) := by
  induction parameters with
  | nil => exact ⟨[], {}, rfl, Nat.zero_le _⟩
  | cons parameter rest ih =>
    unfold parametersVerdict
    by_cases hkind : parameter.kind = parameterOutgoingReset
    · rw [if_pos hkind]
      refine parametersFollow_reset ?_ (resetFollows_outgoing parameter.value h) ih
      rw [handleParameters, if_pos hkind]
    rw [if_neg hkind]
    by_cases hkind' : parameter.kind = parameterIncomingReset
    · rw [if_pos hkind']
      refine parametersFollow_reset ?_ (resetFollows_incoming parameter.value h) ih
      rw [handleParameters, if_neg hkind, if_pos hkind']
    rw [if_neg hkind']
    by_cases hkind'' : parameter.kind = parameterReconfigResponse
    swap
    · rw [if_neg hkind'']
      refine ⟨[], {}, ?_, Nat.zero_le _⟩
      rw [handleParameters, if_neg hkind, if_neg hkind', if_neg hkind'']
      rfl
    rw [if_pos hkind'']
    have hrun : (handleParameters (parameter :: rest)).run s =
        if parameter.value.length = 8 ∨ parameter.value.length = 16 then
          (handleParameters rest).run s
        else (.error .malformedChunk, s) := by
      rw [handleParameters, if_neg hkind, if_neg hkind', if_pos hkind'', run_ensure_bind]
    by_cases hlen : parameter.value.length = 8 ∨ parameter.value.length = 16
    swap
    · rw [if_neg hlen] at hrun ⊢
      exact ⟨_, hrun⟩
    rw [if_pos hlen] at hrun ⊢
    cases hverdict : s.parametersVerdict rest with
    | refused =>
      rw [hverdict] at ih
      obtain ⟨error, hrest⟩ := ih
      exact ⟨error, hrun.trans hrest⟩
    | passed =>
      rw [hverdict] at ih
      obtain ⟨response, output, hrest, hle⟩ := ih
      refine ⟨response, output, hrun.trans hrest, ?_⟩
      rw [List.length_cons]
      omega
    | writes =>
      rw [hverdict] at ih
      obtain ⟨count, hpos, hle, hsequence⟩ := ih
      exact ⟨count, hpos, Nat.le_succ_of_le hle, by rw [hrun, hsequence]⟩

theorem follows_reconfiguration {s : Association} (hs : Sound s) (value : Bytes) :
    Follows s (handleReconfiguration value) (s.reconfigVerdict value) := by
  generalize haction : handleReconfiguration value = action
  have hrun : (handleReconfiguration value).run s = action.run s := by rw [haction]
  rw [handleReconfiguration, run_get_bind, run_ensure_bind] at hrun
  unfold reconfigVerdict
  by_cases hstate : s.state = .established ∧ value ≠ []
  swap
  · rw [if_neg hstate] at hrun
    rcases parseParameters value with error | parameters
    · exact ⟨_, hrun.symm⟩
    · dsimp only
      rw [if_neg fun h => hstate ⟨h.1, h.2.1⟩]
      exact ⟨_, hrun.symm⟩
  rw [if_pos hstate, run_ofExcept_bind] at hrun
  rcases hparse : parseParameters value with error | parameters
  · rw [hparse] at hrun
    exact ⟨_, hrun.symm⟩
  rw [hparse] at hrun
  dsimp only at hrun ⊢
  rw [run_ensure_bind] at hrun
  by_cases hcount : parameters ≠ [] ∧ parameters.length ≤ 2
  swap
  · rw [if_neg hcount] at hrun
    rw [if_neg fun h => hcount h.2.2]
    exact ⟨_, hrun.symm⟩
  rw [if_pos hcount, run_bind] at hrun
  rw [if_pos ⟨hstate.1, hstate.2, hcount⟩]
  obtain ⟨peer, hpeer⟩ := hs.known (.inr hstate.1)
  obtain ⟨expected, hexpected⟩ := Option.isSome_iff_exists.mp (hs.started peer hpeer).2
  have hfollow := parametersFollow parameters hexpected
  cases hverdict : s.parametersVerdict parameters with
  | refused =>
    rw [hverdict] at hfollow
    obtain ⟨error, hparameters⟩ := hfollow
    rw [hparameters] at hrun
    exact ⟨error, hrun.symm⟩
  | passed =>
    rw [hverdict] at hfollow
    obtain ⟨response, output, hparameters, hlen⟩ := hfollow
    rw [hparameters] at hrun
    dsimp only at hrun
    by_cases hempty : response.isEmpty = true
    · rw [if_pos hempty] at hrun
      exact ⟨output, hrun.symm⟩
    · obtain ⟨packet, hpacket⟩ := s.packetWithChunk_ok peer typeReConfig 0
        (show response.length ≤ 65516 by omega)
      rw [if_neg hempty, run_get_bind, run_ofExcept_bind, peerTag_eq hpeer] at hrun
      dsimp only at hrun
      rw [run_ofExcept_bind, hpacket] at hrun
      exact ⟨_, hrun.symm⟩
  | writes =>
    rw [hverdict] at hfollow
    obtain ⟨count, hpos, hle, hsequence⟩ := hfollow
    have hafter : (action.run s).2.nextPeerReconfigSequence =
        some (expected + UInt32.ofNat count) := by
      rw [← hrun]
      rcases hparameters : (handleParameters parameters).run s with ⟨error | ⟨response, output⟩, t⟩
      · rw [hparameters] at hsequence
        exact hsequence
      rw [hparameters] at hsequence
      dsimp only
      split_ifs
      · exact hsequence
      rw [run_get_bind, run_ofExcept_bind]
      rcases t.peerTag with error | tag
      · exact hsequence
      dsimp only
      rw [run_ofExcept_bind]
      rcases t.packetWithChunk tag typeReConfig 0 response with error | packet
      · exact hsequence
      · exact hsequence
    intro hsame
    rw [hsame, hexpected, Option.some.injEq] at hafter
    have hdistance := Serial.toNat_add_ofNat_sub expected (n := count) (by omega)
    rw [← hafter] at hdistance
    simp at hdistance
    omega

/-! ## Packets -/

/-- A chunk does to a sound state what its verdict says. -/
theorem follows_verdict {s : Association} (hs : Sound s) (now : ℕ) (tag : UInt32)
    (chunk : ParsedChunk) : Follows s (handleChunk now tag chunk) (s.verdict tag chunk) := by
  refine handleChunk_elim (P := fun action => Follows s action (s.verdict tag chunk)) now tag chunk
    ?_ ?_ ?_ ?_ ?_ ?_ ?_ ?_ ?_ ?_
  · intro hkind
    rw [verdict, if_pos hkind]
    exact follows_init hs tag chunk.value
  · intro hkind
    rw [verdict, hkind]
    exact follows_cookieEcho s tag chunk.value
  · intro hkind
    rw [verdict, hkind]
    exact (follows_data hs now chunk.flags chunk.value).guarded tag
  · intro hkind
    rw [verdict, hkind]
    exact (follows_sack s chunk.value).guarded tag
  · intro hkind
    rw [verdict, hkind]
    exact (follows_heartbeat s chunk.value).guarded tag
  · intro hkind
    rw [verdict, hkind]
    exact follows_abort s
  · intro hkind
    rw [verdict, hkind]
    exact (follows_shutdown s).guarded tag
  · intro hkind
    rw [verdict, hkind]
    exact (follows_reconfiguration hs chunk.value).guarded tag
  · intro hkind
    rw [verdict, hkind]
    exact (follows_forwardTsn hs now chunk.value).guarded tag
  · intro hkind
    have hpassed : s.verdict tag chunk = .passed := by
      simp only [List.mem_cons, List.not_mem_nil, or_false, not_or] at hkind
      simp [verdict, hkind]
    rw [hpassed]
    exact ⟨{}, rfl⟩

/-- No chunk up to the first refused one writes. -/
def quiet (s : Association) (tag : UInt32) : List ParsedChunk → Bool
  | [] => true
  | chunk :: rest =>
      match s.verdict tag chunk with
      | .refused => true
      | .passed => quiet s tag rest
      | .writes => false

/-- A packet that is malformed or for other ports, or whose chunks are quiet. -/
def quietPacket (s : Association) (packet : Bytes) : Bool :=
  match ParsedPacket.parse packet with
  | .error _ => true
  | .ok parsed =>
      !(parsed.sourcePort = s.config.remotePort ∧ parsed.destinationPort = s.config.localPort) ||
        s.quiet parsed.verificationTag parsed.chunks

theorem handleChunks_of_quiet {s : Association} (hs : Sound s) (now : ℕ) (tag : UInt32)
    {chunks : List ParsedChunk} (h : s.quiet tag chunks = true) :
    ((handleChunks now tag chunks).run s).2 = s := by
  induction chunks with
  | nil => rfl
  | cons chunk rest ih =>
    have hfollows := follows_verdict hs now tag chunk
    rw [quiet] at h
    rw [handleChunks, run_bind]
    cases hverdict : s.verdict tag chunk with
    | refused =>
      rw [hverdict] at hfollows
      obtain ⟨error, hrun⟩ := hfollows
      rw [hrun]
    | passed =>
      rw [hverdict] at h hfollows
      obtain ⟨output, hrun⟩ := hfollows
      rw [hrun]
      dsimp only
      rw [state_run_bind_pure]
      exact ih h
    | writes =>
      rw [hverdict] at h
      cases h

/-- A chunk that changes the state, after chunks that have not; if it is the last one handled, the
change stays. -/
def ChangedBy (s t : Association) (now : ℕ) (tag : UInt32) (chunks : List ParsedChunk) : Prop :=
  ∃ first chunk rest output, chunks = first ++ chunk :: rest ∧
    (handleChunks now tag first).run s = (.ok output, s) ∧
    ((handleChunk now tag chunk).run s).2 ≠ s ∧
    (t = s → rest ≠ [] ∧ ((handleChunk now tag chunk).run s).1.isOk = true)

theorem changedBy_of_not_quiet {s t : Association} (hs : Sound s) {now : ℕ} {tag : UInt32}
    {chunks : List ParsedChunk} {error : DataChannelError} (h : s.quiet tag chunks = false)
    (hrun : (handleChunks now tag chunks).run s = (.error error, t)) :
    ChangedBy s t now tag chunks := by
  induction chunks with
  | nil => cases h
  | cons chunk rest ih =>
    have hfollows := follows_verdict hs now tag chunk
    rw [quiet] at h
    rw [handleChunks, run_bind] at hrun
    cases hverdict : s.verdict tag chunk with
    | refused =>
      rw [hverdict] at h
      cases h
    | passed =>
      rw [hverdict] at h hfollows
      obtain ⟨output, hfirst⟩ := hfollows
      rw [hfirst] at hrun
      dsimp only at hrun
      obtain hrest | ⟨others, u, hrest, hpure⟩ := run_bind_eq_error.mp hrun
      swap
      · cases hpure
      obtain ⟨first, chunk', rest', output', rfl, hquiet, hchanged, hstays⟩ := ih h hrest
      refine ⟨chunk :: first, chunk', rest', output ++ output', rfl, ?_, hchanged, hstays⟩
      rw [handleChunks, run_bind, hfirst]
      dsimp only
      rw [run_bind, hquiet]
      rfl
    | writes =>
      rw [hverdict] at hfollows
      have hfollows : ((handleChunk now tag chunk).run s).2 ≠ s := hfollows
      refine ⟨[], chunk, rest, {}, rfl, rfl, hfollows, ?_⟩
      rintro rfl
      rcases hchunk : (handleChunk now tag chunk).run t with ⟨error' | output, u⟩
      · rw [hchunk] at hrun hfollows
        cases hrun
        exact absurd rfl hfollows
      · refine ⟨?_, rfl⟩
        rintro rfl
        rw [hchunk] at hrun
        cases hrun

/-- A rejected packet leaves the state as it was if no chunk up to the refused one writes.  In any
other rejected packet some chunk has changed the state, and unless a later chunk of the packet
happens to write the old values back the change stays. -/
theorem rejected_unchanged_of_quiet {s t : Association} (hreachable : Reachable s) (now : ℕ)
    (packet : Bytes) {error : DataChannelError}
    (hrun : (handlePacket now packet).run s = (.error error, t)) :
    (s.quietPacket packet = true → t = s) ∧
    (s.quietPacket packet = false → ∃ parsed, ParsedPacket.parse packet = .ok parsed ∧
      ChangedBy s t now parsed.verificationTag parsed.chunks) := by
  have hs := hreachable.sound
  rw [handlePacket, run_ofExcept_bind] at hrun
  unfold quietPacket
  rcases hparse : ParsedPacket.parse packet with error' | parsed
  · rw [hparse] at hrun
    cases hrun
    exact ⟨fun _ => rfl, fun h => by cases h⟩
  rw [hparse] at hrun
  dsimp only at hrun ⊢
  rw [run_get_bind, run_ensure_bind] at hrun
  by_cases hports : parsed.sourcePort = s.config.remotePort ∧
      parsed.destinationPort = s.config.localPort
  swap
  · rw [if_neg hports] at hrun
    cases hrun
    rw [decide_eq_false hports]
    exact ⟨fun _ => rfl, fun h => by cases h⟩
  rw [if_pos hports] at hrun
  rw [decide_eq_true hports, Bool.not_true, Bool.false_or]
  refine ⟨fun hquiet => ?_, fun hnot => ⟨parsed, rfl, changedBy_of_not_quiet hs hnot hrun⟩⟩
  have hstate := handleChunks_of_quiet hs now parsed.verificationTag hquiet
  rw [hrun] at hstate
  exact hstate

namespace Sample

/-- A RE-CONFIG packet with an outgoing reset of one stream. -/
def reset (sequence : UInt32) (stream : UInt16) : Bytes :=
  peerPacket 0x11223344 typeReConfig 0 (Bytes.ofU16 parameterOutgoingReset ++ Bytes.ofU16 18 ++
    Bytes.ofU32 sequence ++ Bytes.ofU32 0 ++ Bytes.ofU32 0 ++ Bytes.ofU16 stream)

end Sample

/-- A DATA chunk beyond the receive window is refused and leaves the state alone. -/
theorem rejected_unchanged_of_quiet_sample :
    ∃ start, new Sample.config = .ok start ∧
      ((handlePacket 2000000 (Sample.data 3 1600 0 0 ppidBinary [1])).run
        (runInputs (Sample.establish false) start)) =
          (.error .receiveWindowExceeded, runInputs (Sample.establish false) start) := by
  obtain ⟨start, hnew⟩ : ∃ start, new Sample.config = .ok start := ⟨_, rfl⟩
  have herror : ((handlePacket 2000000 (Sample.data 3 1600 0 0 ppidBinary [1])).run
      (runInputs (Sample.establish false) start)).1 = .error .receiveWindowExceeded := by
    cases hnew
    decide +kernel
  rcases hrun : (handlePacket 2000000 (Sample.data 3 1600 0 0 ppidBinary [1])).run
    (runInputs (Sample.establish false) start) with ⟨result, t⟩
  rw [hrun] at herror
  cases herror
  have hsame := (@rejected_unchanged_of_quiet (runInputs (Sample.establish false) start) t
    ⟨Sample.config, start, _, hnew, rfl⟩ 2000000 _ _ hrun).1 (by cases hnew; decide +kernel)
  refine ⟨start, hnew, ?_⟩
  rw [hrun, hsame]

/-- A reset of stream 100, which the peer does not have, is rejected, but its sequence number is
taken: the peer's next attempt under it will be answered with a bad sequence. -/
theorem rejected_reset_changes_state :
    ¬∀ s : Association, Reachable s → ∀ (now : ℕ) (packet : Bytes) (error : DataChannelError)
      (t : Association), (handlePacket now packet).run s = (.error error, t) → t = s := by
  intro hall
  obtain ⟨start, hnew⟩ : ∃ start, new Sample.config = .ok start := ⟨_, rfl⟩
  have herror : ((handlePacket 2000000 (Sample.reset 500 100)).run
      (runInputs (Sample.establish false) start)).1 = .error .malformedChunk := by
    cases hnew
    decide +kernel
  have hbefore : (runInputs (Sample.establish false) start).nextPeerReconfigSequence =
      some 500 := by
    cases hnew
    decide +kernel
  have hafter : ((handlePacket 2000000 (Sample.reset 500 100)).run
      (runInputs (Sample.establish false) start)).2.nextPeerReconfigSequence = some 501 := by
    cases hnew
    decide +kernel
  rcases hrun : (handlePacket 2000000 (Sample.reset 500 100)).run
    (runInputs (Sample.establish false) start) with ⟨result, t⟩
  rw [hrun] at herror hafter
  cases herror
  have hsame := hall _ ⟨Sample.config, start, _, hnew, rfl⟩ _ _ _ t hrun
  dsimp only at hafter
  rw [hsame, hbefore] at hafter
  cases hafter

end Association

end Fluvora.DataChannel

import Fluvora.Lib.Runs
import Fluvora.MediaGateway.Assets
import Fluvora.MediaStore.Objects

/-!
# Uploads

`upload_source_chunk` of the media gateway, for a client that has some content and always sends the next
part of it from the offset that the server reports.  A chunk is appended to the source file first and
counted afterwards, and nothing ever takes bytes out of the file again.

`uploaded_iff` tells when a client that has sent everything finds its content in the file: no request has
failed between the two steps, and no restart has gone back to an older count.
-/

namespace Fluvora.MediaGateway

open ApiServer (ApiError)
open Domain Fallible MediaPipeline
open MediaStore (checkedAdd)

def maxUploadChunkBytes : ℕ := 8 * 1024 * 1024

def uploadOffsetMismatch (expected : UInt64) : ApiError :=
  ⟨409, "upload_offset_mismatch", s!"expected byte offset {expected}"⟩

/-- What a chunk meets on disk: whether the file can be opened, how much of the chunk is appended if
not all of it is, and whether the file can be synchronised. -/
structure ChunkIo where
  opens : Bool
  cut : Option ℕ
  syncs : Bool
  persist : PersistIo

/-- The offset that the next chunk is to have. -/
def expectedOffset : AssetState → Option UInt64
  | .created => some 0
  | .uploading receivedBytes => some receivedBytes
  | _ => none

def appendSource (bytes : List UInt8) : Fallible AssetSlot ApiError Unit :=
  modify fun slot => { slot with source := slot.source ++ bytes }

def uploadSourceChunk (offset : UInt64) (bytes : List UInt8) (now : UInt64) (io : ChunkIo) :
    Fallible AssetSlot ApiError Unit := do
  ensure (bytes.length ≤ maxUploadChunkBytes) (payloadTooLarge maxUploadChunkBytes)
  ensure (bytes ≠ []) (unprocessable "upload chunk cannot be empty")
  let managed ← getAsset
  let expected ← ofOption (expectedOffset managed.asset.state)
    (conflict "asset is not accepting upload bytes")
  ensure (offset = expected) (uploadOffsetMismatch expected)
  ensure io.opens storageError
  match io.cut with
  | some length => do
      appendSource (bytes.take length)
      fail storageError
  | none => do
      appendSource bytes
      ensure io.syncs storageError
      let received ← ofOption (checkedAdd expected (.ofNat bytes.length))
        (unprocessable "source size overflow")
      applyOperation (.uploadProgress received)
      persistRevision id now io.persist

/-- The checks of `publish_source_object` in front of the upload to the object store. -/
def checkSource (sourceBytes : UInt64) : Fallible AssetSlot ApiError Unit := do
  let managed ← getAsset
  match managed.asset.state with
  | .uploading receivedBytes => do
      ensure (receivedBytes = sourceBytes ∧ sourceBytes ≠ 0)
        (unprocessable "declared source size does not match uploaded bytes")
      let slot ← get
      ensure (slot.source.length = sourceBytes.toNat)
        (conflict "staged source file does not match the recorded upload")
  | _ => fail (conflict "asset upload is not ready to complete")

section

variable {slot : AssetSlot} {managed : ManagedAsset}

theorem checkSource_eq_ok_iff (hmemory : slot.memory = some managed) (sourceBytes : UInt64) :
    ((checkSource sourceBytes).run slot).1 = .ok () ↔
      managed.asset.state = .uploading sourceBytes ∧ sourceBytes ≠ 0 ∧
        slot.source.length = sourceBytes.toNat := by
  unfold checkSource
  rw [getAsset_bind hmemory]
  cases hstate : managed.asset.state with
  | uploading receivedBytes =>
    dsimp only
    rw [run_ensure_bind]
    split_ifs with hbytes
    · obtain ⟨rfl, hbytes⟩ := hbytes
      rw [run_get_bind, run_ensure]
      split_ifs with hlength
      · exact iff_of_true rfl ⟨rfl, hbytes, hlength⟩
      · refine iff_of_false (fun h => ?_) fun h => hlength h.2.2
        cases h
    · refine iff_of_false (fun h => ?_) ?_
      · cases h
      · rintro ⟨hsame, hnonzero, -⟩
        cases hsame
        exact hbytes ⟨rfl, hnonzero⟩
  | _ =>
    refine iff_of_false (fun h => ?_) ?_
    · cases h
    · rintro ⟨h, -⟩
      cases h

theorem checkSource_state (slot : AssetSlot) (sourceBytes : UInt64) :
    ((checkSource sourceBytes).run slot).2 = slot := by
  unfold checkSource getAsset
  rw [run_bind, run_get_bind]
  cases slot.memory with
  | none => rfl
  | some managed =>
    change ((match managed.asset.state with
      | .uploading receivedBytes => (do
          ensure (receivedBytes = sourceBytes ∧ sourceBytes ≠ 0)
            (unprocessable "declared source size does not match uploaded bytes")
          let slot ← get
          ensure (slot.source.length = sourceBytes.toNat)
            (conflict "staged source file does not match the recorded upload"))
      | _ => Fallible.fail (conflict "asset upload is not ready to complete") :
        Fallible AssetSlot ApiError Unit).run slot).2 = slot
    cases managed.asset.state with
    | uploading receivedBytes =>
      dsimp only
      rw [run_ensure_bind]
      split_ifs
      · rw [run_get_bind, run_ensure]
      · rfl
    | _ => rfl

end

/-! ## A client that resumes -/

inductive UploadAction
  | send (length : ℕ) (now : UInt64) (io : ChunkIo)
  | restart

namespace AssetSlot

variable (normalizeHttpOrigin : String → Option String) (content : List UInt8)

/-- What the client sends from an offset. -/
def partAt (offset : UInt64) (length : ℕ) : List UInt8 := (content.drop offset.toNat).take length

/-- The offset that the server reports. -/
def reported (slot : AssetSlot) : Option UInt64 :=
  slot.memory.bind fun managed => expectedOffset managed.asset.state

def step (slot : AssetSlot) : UploadAction → AssetSlot
  | .send length now io =>
      match slot.reported with
      | some offset =>
          ((uploadSourceChunk offset (partAt content offset length) now io).run slot).2
      | none => slot
  | .restart => { slot with memory := restoreAsset normalizeHttpOrigin slot.snapshots }

/-- A request that appends anything counts it, and a restart reports the same offset as before. -/
def InStep (slot : AssetSlot) : UploadAction → Prop
  | .send length _ io => ∀ managed offset, slot.memory = some managed →
      slot.reported = some offset →
        let bytes := partAt content offset length
        bytes = [] ∨ maxUploadChunkBytes < bytes.length ∨ io.opens = false ∨
          match io.cut with
          | some cut => bytes.take cut = []
          | none => io.syncs = true ∧ offset.toNat + bytes.length < 2 ^ 64 ∧
              managed.asset.version.toNat + 1 < 2 ^ 64
  | .restart =>
      (restoreAsset normalizeHttpOrigin slot.snapshots).bind (expectedOffset ·.asset.state) =
        slot.reported

/-! ### A request -/

variable {normalizeHttpOrigin content}

theorem moves_uploadProgress {state : AssetState} {previous received : UInt64}
    (hstate : expectedOffset state = some previous) (hprevious : previous ≤ received) :
    Moves state (.uploadProgress received) (.uploading received) := by
  cases state with
  | created => exact .upload
  | uploading receivedBytes =>
    cases hstate
    exact .resume hprevious
  | _ => cases hstate

theorem inStep_send_iff {slot : AssetSlot} {managed : ManagedAsset} {offset : UInt64}
    (hmemory : slot.memory = some managed) (hreported : slot.reported = some offset) (length : ℕ)
    (now : UInt64) (io : ChunkIo) :
    InStep normalizeHttpOrigin content slot (.send length now io) ↔
      (partAt content offset length = [] ∨
        maxUploadChunkBytes < (partAt content offset length).length ∨ io.opens = false ∨
        match io.cut with
        | some cut => (partAt content offset length).take cut = []
        | none => io.syncs = true ∧
            offset.toNat + (partAt content offset length).length < 2 ^ 64 ∧
            managed.asset.version.toNat + 1 < 2 ^ 64) := by
  constructor
  · exact fun h => h managed offset hmemory hreported
  · intro h managed' offset' hmemory' hreported'
    cases hmemory.symm.trans hmemory'
    cases hreported.symm.trans hreported'
    exact h

/-- Counting what has been appended. -/
theorem count_run {slot : AssetSlot} {managed : ManagedAsset} {offset received : UInt64}
    (hmemory : slot.memory = some managed) (hreported : slot.reported = some offset)
    (hreceived : offset ≤ received) (hversion : managed.asset.version.toNat + 1 < 2 ^ 64)
    (now : UInt64) (io : PersistIo) :
    ∃ managed' snapshots,
      ((do
        applyOperation (.uploadProgress received)
        persistRevision id now io : Fallible AssetSlot ApiError Unit).run slot).2 =
          { slot with memory := some managed', snapshots } ∧
        managed'.asset.state = .uploading received ∧
        snapshots.Sublist (managed' :: slot.snapshots) := by
  have hstate : expectedOffset managed.asset.state = some offset := by
    unfold reported at hreported
    rw [hmemory] at hreported
    exact hreported
  let counted : ManagedAsset := { managed with
    asset := { managed.asset with
      version := managed.asset.version + 1, state := .uploading received } }
  have happly : (applyOperation (.uploadProgress received)).run slot =
      (.ok (), { slot with memory := some counted }) := by
    rw [applyOperation_run hmemory, run_of_moves (moves_uploadProgress hstate hreceived),
      run_transition_eq, if_pos hversion]
    rfl
  rw [run_bind, happly]
  obtain ⟨managed', snapshots, hrun, hasset, hsublist⟩ := @persistRevision_run
    { slot with memory := some counted } counted rfl now io
  exact ⟨managed', snapshots, hrun, by rw [hasset], hsublist⟩

/-- An asset without a next version stays as it is. -/
theorem count_run_exhausted {slot : AssetSlot} {managed : ManagedAsset} {offset received : UInt64}
    (hmemory : slot.memory = some managed) (hreported : slot.reported = some offset)
    (hreceived : offset ≤ received) (hversion : ¬ managed.asset.version.toNat + 1 < 2 ^ 64)
    (now : UInt64) (io : PersistIo) :
    ((do
      applyOperation (.uploadProgress received)
      persistRevision id now io : Fallible AssetSlot ApiError Unit).run slot).2 = slot := by
  have hstate : expectedOffset managed.asset.state = some offset := by
    unfold reported at hreported
    rw [hmemory] at hreported
    exact hreported
  have happly : (applyOperation (.uploadProgress received)).run slot =
      (.error (pipelineError .versionExhausted), { slot with memory := some managed }) := by
    rw [applyOperation_run hmemory, run_of_moves (moves_uploadProgress hstate hreceived),
      run_transition_eq, if_neg hversion]
    rfl
  rw [run_bind, happly, ← hmemory]

/-- A request is in step if it appends nothing, or if it counts what it appends. -/
theorem send_cases {slot : AssetSlot} {managed : ManagedAsset} {offset : UInt64}
    (hmemory : slot.memory = some managed) (hreported : slot.reported = some offset)
    (length : ℕ) (now : UInt64) (io : ChunkIo) {bytes : List UInt8} {after : AssetSlot}
    (hbytes : bytes = partAt content offset length)
    (hafter : after = step normalizeHttpOrigin content slot (.send length now io)) :
    (InStep normalizeHttpOrigin content slot (.send length now io) ∧
      (after = slot ∨ ∃ managed' received snapshots,
        after = ⟨some managed', snapshots, slot.source ++ bytes⟩ ∧
          managed'.asset.state = .uploading received ∧
          received.toNat = offset.toNat + bytes.length ∧
          snapshots.Sublist (managed' :: slot.snapshots))) ∨
      (¬ InStep normalizeHttpOrigin content slot (.send length now io) ∧
        ∃ extra, extra ≠ [] ∧ after = { slot with source := slot.source ++ extra }) := by
  have hrun : after = ((uploadSourceChunk offset bytes now io).run slot).2 := by
    rw [hafter, hbytes]
    change (match slot.reported with
      | some offset => ((uploadSourceChunk offset (partAt content offset length) now io).run slot).2
      | none => slot) = _
    rw [hreported]
  have hstate : expectedOffset managed.asset.state = some offset := by
    unfold reported at hreported
    rw [hmemory] at hreported
    exact hreported
  rw [inStep_send_iff hmemory hreported, ← hbytes]
  clear hafter
  unfold uploadSourceChunk at hrun
  rw [run_ensure_bind] at hrun
  split_ifs at hrun with hlarge
  swap
  · exact .inl ⟨.inr (.inl (Nat.lt_of_not_le hlarge)), .inl hrun⟩
  rw [run_ensure_bind] at hrun
  split_ifs at hrun with hempty
  swap
  · exact .inl ⟨.inl (by simpa using hempty), .inl hrun⟩
  have hget : (getAsset.run slot : Except ApiError ManagedAsset × AssetSlot) =
      (.ok managed, slot) := by
    unfold getAsset
    rw [run_get_bind, hmemory]
    rfl
  rw [run_bind, hget] at hrun
  dsimp only at hrun
  rw [hstate, run_ofOption_bind] at hrun
  dsimp only at hrun
  rw [run_ensure_bind, if_pos rfl, run_ensure_bind] at hrun
  split_ifs at hrun with hopens
  swap
  · exact .inl ⟨.inr (.inr (.inl (by simpa using hopens))), .inl hrun⟩
  have hshort : ¬ maxUploadChunkBytes < bytes.length := Nat.not_lt.mpr hlarge
  simp only [hempty, hshort, hopens, false_or, Bool.true_eq_false]
  cases hcut : io.cut with
  | some cut =>
    rw [hcut] at hrun
    dsimp only at hrun ⊢
    have hcutoff : after = { slot with source := slot.source ++ bytes.take cut } := hrun
    by_cases htake : bytes.take cut = []
    · rw [htake, List.append_nil] at hcutoff
      exact .inl ⟨htake, .inl hcutoff⟩
    · exact .inr ⟨htake, _, htake, hcutoff⟩
  | none =>
    rw [hcut] at hrun
    dsimp only at hrun ⊢
    unfold appendSource at hrun
    rw [run_modify_bind, run_ensure_bind] at hrun
    split_ifs at hrun with hsyncs
    swap
    · exact .inr ⟨fun h => hsyncs h.1, bytes, hempty, hrun⟩
    rw [run_ofOption_bind] at hrun
    have hlength : (UInt64.ofNat bytes.length).toNat = bytes.length := by
      rw [UInt64.toNat_ofNat', Nat.mod_eq_of_lt]
      exact Nat.lt_of_le_of_lt hlarge (by decide)
    unfold checkedAdd at hrun
    rw [hlength] at hrun
    by_cases hsum : offset.toNat + bytes.length < 2 ^ 64
    swap
    · rw [if_neg hsum] at hrun
      exact .inr ⟨fun h => hsum h.2.1, bytes, hempty, hrun⟩
    rw [if_pos hsum] at hrun
    dsimp only at hrun
    have hreceived : (offset + UInt64.ofNat bytes.length).toNat = offset.toNat + bytes.length := by
      rw [UInt64.toNat_add, hlength, Nat.mod_eq_of_lt hsum]
    by_cases hversion : managed.asset.version.toNat + 1 < 2 ^ 64
    · refine .inl ⟨⟨hsyncs, hsum, hversion⟩, .inr ?_⟩
      obtain ⟨managed', snapshots, hcount, hcounted, hsublist⟩ := @count_run
        { slot with source := slot.source ++ bytes } managed offset _ hmemory hreported
        (by rw [UInt64.le_iff_toNat_le, hreceived]; exact Nat.le_add_right _ _) hversion now io.persist
      exact ⟨managed', _, snapshots, hrun.trans hcount, hcounted, hreceived, hsublist⟩
    · refine .inr ⟨fun h => hversion h.2.2, bytes, hempty, hrun.trans ?_⟩
      exact @count_run_exhausted { slot with source := slot.source ++ bytes } managed offset _
        hmemory hreported (by rw [UInt64.le_iff_toNat_le, hreceived]; exact Nat.le_add_right _ _)
        hversion now io.persist

/-! ### A run -/

/-- The count of an asset in upload. -/
def countOf (managed : ManagedAsset) : ℕ := ((expectedOffset managed.asset.state).getD 0).toNat

variable (normalizeHttpOrigin content) in
/-- The asset is in upload, and the snapshots that would be accepted have smaller counts the older
they are. -/
structure Uploads (slot : AssetSlot) (managed : ManagedAsset) : Prop where
  memory : slot.memory = some managed
  uploading : (expectedOffset managed.asset.state).isSome
  inside : countOf managed ≤ content.length
  snapshots : ∀ snapshot ∈ slot.snapshots, (expectedOffset snapshot.asset.state).isSome
  below : ∀ snapshot ∈ slot.snapshots, (validateLoadedAsset normalizeHttpOrigin snapshot).isSome →
    countOf snapshot ≤ countOf managed
  ordered : slot.snapshots.Pairwise fun newer older =>
    (validateLoadedAsset normalizeHttpOrigin newer).isSome →
      (validateLoadedAsset normalizeHttpOrigin older).isSome → countOf older ≤ countOf newer

theorem Uploads.reported {slot : AssetSlot} {managed : ManagedAsset}
    (h : Uploads normalizeHttpOrigin content slot managed) :
    ∃ offset, slot.reported = some offset ∧ offset.toNat = countOf managed := by
  obtain ⟨offset, hoffset⟩ := Option.isSome_iff_exists.mp h.uploading
  refine ⟨offset, ?_, ?_⟩
  · unfold AssetSlot.reported
    rw [h.memory]
    exact hoffset
  · unfold countOf
    rw [hoffset]
    rfl

/-- A restart finds nothing, or an asset that is not ahead of the one in memory. -/
theorem Uploads.restart {slot : AssetSlot} {managed : ManagedAsset}
    (h : Uploads normalizeHttpOrigin content slot managed) :
    restoreAsset normalizeHttpOrigin slot.snapshots = none ∨
      ∃ loaded, countOf loaded ≤ countOf managed ∧ Uploads normalizeHttpOrigin content
        { slot with memory := restoreAsset normalizeHttpOrigin slot.snapshots } loaded := by
  cases hrestore : restoreAsset normalizeHttpOrigin slot.snapshots with
  | none => exact .inl rfl
  | some loaded =>
    refine .inr ⟨loaded, ?_⟩
    obtain ⟨newer, snapshot, older, hsplit, haccepted, hrejected⟩ :=
      List.findSome?_eq_some_iff.mp hrestore
    have hasset := asset_of_validateLoadedAsset haccepted
    have hcount : countOf loaded = countOf snapshot := by
      unfold countOf
      rw [hasset]
    have hmem : snapshot ∈ slot.snapshots := by
      rw [hsplit]
      exact List.mem_append_right _ List.mem_cons_self
    have hsome : (validateLoadedAsset normalizeHttpOrigin snapshot).isSome := by
      rw [haccepted]
      rfl
    have hle : countOf loaded ≤ countOf managed := hcount ▸ h.below snapshot hmem hsome
    refine ⟨hle, rfl, ?_, hle.trans h.inside, h.snapshots, ?_, h.ordered⟩
    · rw [hasset]
      exact h.snapshots snapshot hmem
    · intro other hother haccept
      rw [hcount]
      have hordered := h.ordered
      rw [hsplit, List.pairwise_append, List.pairwise_cons] at hordered
      change other ∈ slot.snapshots at hother
      rw [hsplit, List.mem_append, List.mem_cons] at hother
      rcases hother with hother | rfl | hother
      · rw [hrejected other hother] at haccept
        cases haccept
      · exact le_rfl
      · exact hordered.2.1.1 other hother hsome haccept

/-- A count keeps the order of the snapshots. -/
theorem Uploads.count {slot : AssetSlot} {managed managed' : ManagedAsset} {received : UInt64}
    {snapshots : List ManagedAsset} {source : List UInt8}
    (h : Uploads normalizeHttpOrigin content slot managed)
    (hstate : managed'.asset.state = .uploading received)
    (hreceived : countOf managed ≤ received.toNat) (hinside : received.toNat ≤ content.length)
    (hsublist : snapshots.Sublist (managed' :: slot.snapshots)) :
    Uploads normalizeHttpOrigin content ⟨some managed', snapshots, source⟩ managed' := by
  have hcount : countOf managed' = received.toNat := by
    unfold countOf
    rw [hstate]
    rfl
  have hbelow : ∀ snapshot ∈ slot.snapshots,
      (validateLoadedAsset normalizeHttpOrigin snapshot).isSome →
        countOf snapshot ≤ countOf managed' := fun snapshot hsnapshot haccept =>
    (h.below snapshot hsnapshot haccept).trans (hreceived.trans hcount.ge)
  refine ⟨rfl, by rw [hstate]; rfl, hcount.le.trans hinside, ?_, ?_, ?_⟩
  · intro snapshot hsnapshot
    rcases List.mem_cons.mp (hsublist.mem hsnapshot) with rfl | hsnapshot
    · rw [hstate]
      rfl
    · exact h.snapshots snapshot hsnapshot
  · intro snapshot hsnapshot haccept
    rcases List.mem_cons.mp (hsublist.mem hsnapshot) with rfl | hsnapshot
    · exact le_rfl
    · exact hbelow snapshot hsnapshot haccept
  · refine List.Pairwise.sublist hsublist (List.pairwise_cons.mpr ⟨?_, h.ordered⟩)
    exact fun snapshot hsnapshot _ haccept => hbelow snapshot hsnapshot haccept

variable (normalizeHttpOrigin content) in
/-- The source file has what has been counted. -/
def InSync (slot : AssetSlot) : Prop :=
  ∃ managed, Uploads normalizeHttpOrigin content slot managed ∧
    slot.source = content.take (countOf managed)

variable (normalizeHttpOrigin content) in
/-- The source file has more than what has been counted, or the asset is gone. -/
def Spoiled (slot : AssetSlot) : Prop :=
  (slot.memory = none ∧ restoreAsset normalizeHttpOrigin slot.snapshots = none) ∨
    ∃ managed, Uploads normalizeHttpOrigin content slot managed ∧
      countOf managed < slot.source.length

theorem length_partAt_le (offset : UInt64) (length : ℕ) (hoffset : offset.toNat ≤ content.length) :
    offset.toNat + (partAt content offset length).length ≤ content.length := by
  unfold partAt
  rw [List.length_take, List.length_drop]
  omega

theorem take_append_partAt (offset : UInt64) (length : ℕ) :
    content.take offset.toNat ++ partAt content offset length =
      content.take (offset.toNat + (partAt content offset length).length) := by
  rw [List.take_add]
  congr 1
  unfold partAt
  rw [List.length_take, List.take_eq_take_iff]
  omega

theorem spoiled_step {slot : AssetSlot} (h : Spoiled normalizeHttpOrigin content slot)
    (action : UploadAction) :
    Spoiled normalizeHttpOrigin content (step normalizeHttpOrigin content slot action) := by
  rcases h with ⟨hmemory, hrestore⟩ | ⟨managed, huploads, hlonger⟩
  · refine .inl ?_
    cases action with
    | send length now io =>
      have hreported : slot.reported = none := by
        unfold reported
        rw [hmemory]
        rfl
      unfold step
      dsimp only
      rw [hreported]
      exact ⟨hmemory, hrestore⟩
    | restart => exact ⟨hrestore, hrestore⟩
  · cases action with
    | send length now io =>
      refine .inr ?_
      obtain ⟨offset, hreported, hoffset⟩ := huploads.reported
      rcases @send_cases normalizeHttpOrigin content slot managed offset huploads.memory hreported
        length now io _ _ rfl rfl with ⟨-, hsame | hcounted⟩ | ⟨-, extra, -, hextra⟩
      · rw [hsame]
        exact ⟨managed, huploads, hlonger⟩
      · obtain ⟨managed', received, snapshots, hafter, hstate, hreceived, hsublist⟩ := hcounted
        have hinside := @length_partAt_le content offset length
          (hoffset.le.trans huploads.inside)
        rw [hafter]
        refine ⟨managed', huploads.count hstate (by omega) (by omega) hsublist, ?_⟩
        have hcount : countOf managed' = received.toNat := by
          unfold countOf
          rw [hstate]
          rfl
        rw [hcount, List.length_append]
        omega
      · rw [hextra]
        refine ⟨managed, ⟨huploads.memory, huploads.uploading, huploads.inside, huploads.snapshots,
          huploads.below, huploads.ordered⟩, ?_⟩
        rw [List.length_append]
        omega
    | restart =>
      rcases huploads.restart with hnone | ⟨loaded, hle, hloaded⟩
      · exact .inl ⟨hnone, hnone⟩
      · exact .inr ⟨loaded, hloaded, hle.trans_lt hlonger⟩

theorem inSync_step {slot : AssetSlot} (h : InSync normalizeHttpOrigin content slot)
    (action : UploadAction) :
    (InStep normalizeHttpOrigin content slot action ∧
        InSync normalizeHttpOrigin content (step normalizeHttpOrigin content slot action)) ∨
      (¬ InStep normalizeHttpOrigin content slot action ∧
        Spoiled normalizeHttpOrigin content (step normalizeHttpOrigin content slot action)) := by
  obtain ⟨managed, huploads, hsource⟩ := h
  obtain ⟨offset, hreported, hoffset⟩ := huploads.reported
  have hlength : slot.source.length = countOf managed := by
    rw [hsource, List.length_take, Nat.min_eq_left huploads.inside]
  cases action with
  | send length now io =>
    rcases @send_cases normalizeHttpOrigin content slot managed offset huploads.memory hreported
      length now io _ _ rfl rfl with ⟨hin, hsame | hcounted⟩ | ⟨hout, extra, hne, hextra⟩
    · rw [hsame]
      exact .inl ⟨hin, managed, huploads, hsource⟩
    · obtain ⟨managed', received, snapshots, hafter, hstate, hreceived, hsublist⟩ := hcounted
      have hinside := @length_partAt_le content offset length
        (hoffset.le.trans huploads.inside)
      rw [hafter]
      refine .inl ⟨hin, managed', huploads.count hstate (by omega) (by omega) hsublist, ?_⟩
      have hcount : countOf managed' = received.toNat := by
        unfold countOf
        rw [hstate]
        rfl
      dsimp only
      rw [hsource, hcount, hreceived, ← hoffset]
      exact take_append_partAt offset length
    · rw [hextra]
      refine .inr ⟨hout, .inr ⟨managed, ⟨huploads.memory, huploads.uploading, huploads.inside,
        huploads.snapshots, huploads.below, huploads.ordered⟩, ?_⟩⟩
      have hpos := List.length_pos_of_ne_nil hne
      rw [List.length_append]
      omega
  | restart =>
    rcases huploads.restart with hnone | ⟨loaded, hle, hloaded⟩
    · refine .inr ⟨?_, .inl ⟨hnone, hnone⟩⟩
      unfold InStep
      rw [hnone, hreported]
      exact nofun
    · obtain ⟨offset', hreported', hoffset'⟩ := hloaded.reported
      by_cases hsame : countOf loaded = countOf managed
      · refine .inl ⟨?_, loaded, hloaded, ?_⟩
        · have heq : offset' = offset := UInt64.toNat_inj.mp (by omega)
          exact hreported'.trans (by rw [heq, hreported])
        · rw [hsame]
          exact hsource
      · refine .inr ⟨fun hin => hsame ?_, .inr ⟨loaded, hloaded, ?_⟩⟩
        · have hboth := hreported'.symm.trans (hin.trans hreported)
          cases hboth
          exact hoffset'.symm.trans hoffset
        · change countOf loaded < slot.source.length
          omega

/-- A run is in step and the file with it, or the file is spoiled. -/
theorem inSync_foldl {slot : AssetSlot} (h : InSync normalizeHttpOrigin content slot)
    (actions : List UploadAction) :
    let final := actions.foldl (step normalizeHttpOrigin content) slot
    let each := Runs.Each (step normalizeHttpOrigin content) (InStep normalizeHttpOrigin content)
      slot actions
    (each ∧ InSync normalizeHttpOrigin content final) ∨
      (¬ each ∧ Spoiled normalizeHttpOrigin content final) := by
  induction actions generalizing slot with
  | nil => exact .inl ⟨trivial, h⟩
  | cons action actions ih =>
    rcases inSync_step h action with ⟨hin, hsync⟩ | ⟨hout, hspoiled⟩
    · rcases ih hsync with ⟨heach, hfinal⟩ | ⟨hnot, hfinal⟩
      · exact .inl ⟨⟨hin, heach⟩, hfinal⟩
      · exact .inr ⟨fun heach => hnot heach.2, hfinal⟩
    · refine .inr ⟨fun heach => hout heach.1, ?_⟩
      exact (Runs.always_of_step (I := Spoiled normalizeHttpOrigin content)
        (s := step normalizeHttpOrigin content slot action)
        (fun _ action h => spoiled_step h action) hspoiled actions).foldl

/-- A client that has sent all of its content finds it in the source file, and completion accepts its
length, exactly if every request and every restart was in step. -/
theorem uploaded_iff (normalizeHttpOrigin : String → Option String) {content : List UInt8}
    (hcontent : content ≠ []) {managed : ManagedAsset} (hcreated : managed.asset.state = .created)
    (actions : List UploadAction) {sourceBytes : UInt64}
    (hend : (actions.foldl (step normalizeHttpOrigin content)
      ⟨some managed, [managed], []⟩).reported = some sourceBytes)
    (hall : sourceBytes.toNat = content.length) :
    ((actions.foldl (step normalizeHttpOrigin content) ⟨some managed, [managed], []⟩).source =
          content ∧
        ((checkSource sourceBytes).run (actions.foldl (step normalizeHttpOrigin content)
          ⟨some managed, [managed], []⟩)).1 = .ok ()) ↔
      Runs.Each (step normalizeHttpOrigin content) (InStep normalizeHttpOrigin content)
        ⟨some managed, [managed], []⟩ actions := by
  have hcount : countOf managed = 0 := by
    unfold countOf
    rw [hcreated]
    rfl
  have huploading : (expectedOffset managed.asset.state).isSome := by
    rw [hcreated]
    rfl
  have hstart : InSync normalizeHttpOrigin content ⟨some managed, [managed], []⟩ := by
    refine ⟨managed, ⟨rfl, huploading, by omega, ?_, ?_, List.pairwise_singleton _ _⟩, ?_⟩
    · simpa using huploading
    · simp
    · rw [hcount, List.take_zero]
  have hrun := inSync_foldl hstart actions
  dsimp only at hrun
  generalize actions.foldl (step normalizeHttpOrigin content) ⟨some managed, [managed], []⟩ =
    final at hend hrun ⊢
  rcases hrun with ⟨heach, managed', huploads, hsource⟩ | ⟨hnot, hspoiled⟩
  · obtain ⟨offset, hreported, hoffset⟩ := huploads.reported
    cases hreported.symm.trans hend
    have hwhole : final.source = content := by
      rw [hsource, ← hoffset, hall, List.take_length]
    refine iff_of_true ⟨hwhole, ?_⟩ heach
    have hpos := List.length_pos_of_ne_nil hcontent
    have hstate : expectedOffset managed'.asset.state = some sourceBytes := by
      unfold reported at hend
      rw [huploads.memory] at hend
      exact hend
    have hnonzero : sourceBytes ≠ 0 := by
      rintro rfl
      rw [← hall] at hpos
      exact absurd hpos (by decide)
    refine (checkSource_eq_ok_iff huploads.memory sourceBytes).mpr
      ⟨?_, hnonzero, by rw [hwhole, hall]⟩
    cases hasset : managed'.asset.state with
    | uploading receivedBytes =>
      rw [hasset] at hstate
      cases hstate
      rfl
    | created =>
      rw [hasset] at hstate
      cases hstate
      exact absurd rfl hnonzero
    | _ =>
      rw [hasset] at hstate
      cases hstate
  · refine iff_of_false ?_ hnot
    rintro ⟨hsource, -⟩
    rcases hspoiled with ⟨hmemory, -⟩ | ⟨managed', huploads, hlonger⟩
    · unfold reported at hend
      rw [hmemory] at hend
      cases hend
    · obtain ⟨offset, hreported, hoffset⟩ := huploads.reported
      cases hreported.symm.trans hend
      rw [hsource] at hlonger
      omega

end AssetSlot

/-! ## Uploads of two bytes -/

namespace MovieUpload

open AssetSlot

def start : AssetSlot :=
  let managed : ManagedAsset :=
    ⟨⟨"movie", "tenant", 1, .created⟩, none, 1, 1000, 1000, none, none, none⟩
  ⟨some managed, [managed], []⟩

def send (length : ℕ) (now : UInt64) (syncs : Bool) : UploadAction :=
  .send length now ⟨true, none, syncs, ⟨true, 0⟩⟩

/-- Two chunks, with a restart between them. -/
theorem uploaded_movie :
    (([send 1 2000 true, .restart, send 1 3000 true].foldl (step some [1, 2]) start).source = [1, 2] ∧
        ((checkSource 2).run ([send 1 2000 true, .restart, send 1 3000 true].foldl (step some [1, 2])
          start)).1 = .ok ()) ↔
      Runs.Each (step some [1, 2]) (InStep some [1, 2]) start
        [send 1 2000 true, .restart, send 1 3000 true] :=
  uploaded_iff some (by decide) rfl _ (by decide) rfl

/-- The file cannot be synchronised after the chunk is appended, and the chunk is sent again. -/
def repeated : List UploadAction := [send 2 2000 false, send 2 3000 true]

/-- The chunk is in the file twice, and completion rejects the upload. -/
theorem not_uploaded_repeated :
    (repeated.foldl (step some [1, 2]) start).reported = some 2 ∧
      ¬ ((repeated.foldl (step some [1, 2]) start).source = [1, 2] ∧
        ((checkSource 2).run (repeated.foldl (step some [1, 2]) start)).1 = .ok ()) := by
  have hsource : (repeated.foldl (step some [1, 2]) start).source = [1, 2, 1, 2] := by
    decide
  refine ⟨by decide, ?_⟩
  rintro ⟨hsame, -⟩
  rw [hsource] at hsame
  cases hsame

end MovieUpload

end Fluvora.MediaGateway

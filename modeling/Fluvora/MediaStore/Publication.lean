import Fluvora.Lib.Runs
import Fluvora.MediaStore.Objects

/-!
# Publishing a directory

`publish_directory` of `crates/media/media-store`: the files of a directory are uploaded one by one, and
a marker that lists them last.  Runs on one prefix follow one another; each may fail or be interrupted
at any step, and the files may be different every time.

A marker stays where it is while the next run uploads, so it may list what has been overwritten.
`always_marked_of_each` has the condition under which it does not.
-/

namespace Fluvora.MediaStore

open Fallible

structure Publication where
  schemaVersion : UInt16
  objects : List PublishedObject
  totalBytes : UInt64
deriving DecidableEq, Encodable

def markerName : String := "_fluvora.complete.json"

/-- What `collect_files` finds: the paths are joined from their components, so they have no slash at
either end, and no two are the same. -/
structure LocalFiles where
  keys : List String
  distinct : (keys.map trimSlashes).Nodup

structure PublishRun where
  pending : List String
  publication : Publication
  limits : PublishLimits

/-! ## A run -/

def beginPublication (files : Except StoreError LocalFiles) (limits : PublishLimits) :
    Except StoreError PublishRun := do
  let files ← files
  let pending := files.keys.mergeSort fun left right => decide (left ≤ right)
  if limits.maxObjects < pending.length then
    .error (.limit
      s!"directory contains {pending.length} objects, above limit {limits.maxObjects}")
  else return ⟨pending, ⟨1, [], 0⟩, limits⟩

section

variable (crates : Crates) (marker : ByteCodec Publication) (keyPrefix : String)

/-- One round of the loop. -/
def publishFile (relativeKey : String) (rest : List String) (file : FileIo) (run : PublishRun) :
    Fallible Objects StoreError PublishRun := do
  let key ← ofExcept (joinKey crates keyPrefix relativeKey)
  let object ← putFile crates key file run.limits.maxObjectBytes
  let totalBytes ← ofOption (checkedAdd run.publication.totalBytes object.size)
    (.limit "publication size overflow")
  ensure (totalBytes ≤ run.limits.maxTotalBytes)
    (.limit s!"directory exceeds {run.limits.maxTotalBytes}-byte publication limit")
  return { run with
    pending := rest
    publication := { run.publication with
      objects := run.publication.objects ++ [{ object with key := relativeKey }]
      totalBytes } }

def completePublication (run : PublishRun) (outcome : PutOutcome) (answers : Bool) :
    Fallible Objects StoreError Publication := do
  let markerKey ← ofExcept (joinKey crates keyPrefix markerName)
  put crates markerKey (marker.write run.publication) outcome answers
  return run.publication

end

/-! ## Runs, one after the other -/

structure PublishSystem where
  objects : Objects
  run : Option PublishRun

inductive PublishAction
  | start (files : Except StoreError LocalFiles) (limits : PublishLimits)
  | upload (file : FileIo)
  | complete (outcome : PutOutcome) (answers : Bool)
  | crash

namespace PublishSystem

variable (crates : Crates) (marker : ByteCodec Publication) (keyPrefix : String)

/-- A run that fails is over. -/
def step (system : PublishSystem) : PublishAction → PublishSystem
  | .start files limits =>
      match system.run, beginPublication files limits with
      | none, .ok run => { system with run := some run }
      | _, _ => system
  | .upload file =>
      match system.run with
      | none => system
      | some run =>
          match run.pending with
          | [] => system
          | relativeKey :: rest =>
              match (publishFile crates keyPrefix relativeKey rest file run).run system.objects with
              | (.ok run, objects) => ⟨objects, some run⟩
              | (.error _, objects) => ⟨objects, none⟩
  | .complete outcome answers =>
      match system.run with
      | none => system
      | some run =>
          match run.pending with
          | [] => ⟨((completePublication crates marker keyPrefix run outcome answers).run
              system.objects).2, none⟩
          | _ => system
  | .crash => { system with run := none }

/-- What a marker that is present lists. -/
def Lists (objects : Objects) (object : PublishedObject) : Prop :=
  ∃ text publication, objects (joined keyPrefix markerName) = some text ∧
    marker.read text = some publication ∧ object ∈ publication.objects

/-- Everything that a marker lists is present as it is listed. -/
def Marked (objects : Objects) : Prop :=
  ∀ object, Lists marker keyPrefix objects object →
    IsStored crates objects (joined keyPrefix object.key) object

/-- No file has the name of the marker, and no upload replaces what a marker lists by other bytes. -/
def Careful (system : PublishSystem) : PublishAction → Prop
  | .start files _ => ∀ present, files = .ok present →
      joined keyPrefix markerName ∉ present.keys.map (joined keyPrefix)
  | .upload file => ∀ run relativeKey rest, system.run = some run →
      run.pending = relativeKey :: rest → ∀ object, Lists marker keyPrefix system.objects object →
        joined keyPrefix object.key = joined keyPrefix relativeKey →
          file.upload.length = object.size.toNat ∧
            hexDigest (crates.sha256 file.upload) = object.sha256
  | _ => True

/-- The keys that a run has uploaded or is to upload. -/
def keys (run : PublishRun) : List String :=
  (run.publication.objects.map (·.key) ++ run.pending).map (joined keyPrefix)

/-- What a run has uploaded is present until its marker is written. -/
structure Known (system : PublishSystem) : Prop where
  marked : Marked crates marker keyPrefix system.objects
  uploaded : ∀ run, system.run = some run → ∀ object ∈ run.publication.objects,
    IsStored crates system.objects (joined keyPrefix object.key) object
  distinct : ∀ run, system.run = some run → (keys keyPrefix run).Nodup
  unmarked : ∀ run, system.run = some run → joined keyPrefix markerName ∉ keys keyPrefix run

variable {crates marker keyPrefix}

/-! ### The steps of a run -/

theorem isStored_update_of_ne {objects : Objects} {key key' : String} {bytes : List UInt8}
    {object : PublishedObject} (hne : key ≠ key') (h : IsStored crates objects key object) :
    IsStored crates (Function.update objects key' (some bytes)) key object := by
  obtain ⟨stored, hstored, hsize, hdigest⟩ := h
  exact ⟨stored, by rw [Function.update_of_ne hne, hstored], hsize, hdigest⟩

theorem beginPublication_keys {files : Except StoreError LocalFiles} {limits : PublishLimits}
    {run : PublishRun} (h : beginPublication files limits = .ok run) :
    ∃ present, files = .ok present ∧ run.publication.objects = [] ∧
      run.pending.Perm present.keys := by
  unfold beginPublication at h
  cases files with
  | error error => cases h
  | ok present =>
    change (if _ then _ else _) = _ at h
    split_ifs at h
    cases h
    exact ⟨present, rfl, rfl, List.mergeSort_perm _ _⟩

theorem publishFile_stores (objects : Objects) (relativeKey : String) (rest : List String)
    (file : FileIo) (run : PublishRun) :
    Stores objects (joined keyPrefix relativeKey) file.upload
      (fun next : PublishRun => ∃ object : PublishedObject,
        next.publication.objects = run.publication.objects ++ [object] ∧ next.pending = rest ∧
        object.key = relativeKey ∧ file.upload.length = object.size.toNat ∧
        hexDigest (crates.sha256 file.upload) = object.sha256)
      ((publishFile crates keyPrefix relativeKey rest file run).run objects) := by
  unfold publishFile
  rw [run_ofExcept_bind]
  cases hkey : joinKey crates keyPrefix relativeKey with
  | error error => exact .refused error
  | ok key =>
    obtain rfl := eq_of_joinKey crates hkey
    refine (putFile_stores objects _ file _).bind ?_
    rintro object ⟨-, hsize, hdigest⟩
    rw [run_ofOption_bind]
    cases checkedAdd run.publication.totalBytes object.size with
    | none => exact ⟨.error _, rfl, nofun⟩
    | some totalBytes =>
      dsimp only
      rw [run_ensure_bind]
      split_ifs
      · refine ⟨.ok _, rfl, ?_⟩
        rintro next hnext
        cases hnext
        exact ⟨{ object with key := relativeKey }, rfl, rfl, rfl, hsize, hdigest⟩
      · exact ⟨.error _, rfl, nofun⟩

theorem completePublication_stores (objects : Objects) (run : PublishRun) (outcome : PutOutcome)
    (answers : Bool) :
    Stores objects (joined keyPrefix markerName) (marker.write run.publication) (fun _ => True)
      ((completePublication crates marker keyPrefix run outcome answers).run objects) := by
  unfold completePublication
  rw [run_ofExcept_bind]
  cases hkey : joinKey crates keyPrefix markerName with
  | error error => exact .refused error
  | ok key =>
    obtain rfl := eq_of_joinKey crates hkey
    exact (put_stores objects _ _ outcome answers).bind fun _ _ => ⟨.ok _, rfl, fun _ _ => trivial⟩

/-- Storing the marker keeps what has been uploaded. -/
theorem marked_of_complete {objects : Objects} {run : PublishRun}
    (huploaded : ∀ object ∈ run.publication.objects,
      IsStored crates objects (joined keyPrefix object.key) object)
    (hunmarked : joined keyPrefix markerName ∉ keys keyPrefix run) :
    Marked crates marker keyPrefix (Function.update objects (joined keyPrefix markerName)
      (some (marker.write run.publication))) := by
  rintro object ⟨text, publication, htext, hread, hobject⟩
  rw [Function.update_self] at htext
  cases htext
  rw [marker.read_write] at hread
  cases hread
  refine isStored_update_of_ne ?_ (huploaded object hobject)
  intro hkey
  refine hunmarked (List.mem_map.mpr ⟨object.key, ?_, hkey⟩)
  exact List.mem_append_left _ (List.mem_map_of_mem hobject)

/-- An upload keeps what a marker lists, if it stores what is listed for its key. -/
theorem marked_of_upload {objects : Objects} {key : String} {bytes : List UInt8}
    (hmarked : Marked crates marker keyPrefix objects) (hkey : joined keyPrefix markerName ≠ key)
    (hsame : ∀ object, Lists marker keyPrefix objects object →
      joined keyPrefix object.key = key →
        bytes.length = object.size.toNat ∧ hexDigest (crates.sha256 bytes) = object.sha256) :
    Marked crates marker keyPrefix (Function.update objects key (some bytes)) := by
  rintro object ⟨text, publication, htext, hread, hobject⟩
  rw [Function.update_of_ne hkey] at htext
  have hlists : Lists marker keyPrefix objects object :=
    ⟨text, publication, htext, hread, hobject⟩
  by_cases hobjectKey : joined keyPrefix object.key = key
  · obtain ⟨hsize, hdigest⟩ := hsame object hlists hobjectKey
    exact ⟨bytes, by rw [hobjectKey, Function.update_self], hsize, hdigest⟩
  · exact isStored_update_of_ne hobjectKey (hmarked object hlists)

theorem known_idle {objects : Objects} (h : Marked crates marker keyPrefix objects) :
    Known crates marker keyPrefix ⟨objects, none⟩ :=
  ⟨h, nofun, nofun, nofun⟩

theorem known_upload {system : PublishSystem} (h : Known crates marker keyPrefix system)
    {file : FileIo} (hcareful : Careful crates marker keyPrefix system (.upload file)) :
    Known crates marker keyPrefix (step crates marker keyPrefix system (.upload file)) := by
  obtain ⟨objects, run⟩ := system
  unfold step
  cases run with
  | none => exact h
  | some run =>
    dsimp only
    cases hpending : run.pending with
    | nil => exact h
    | cons relativeKey rest =>
      dsimp only
      have hkeys : joined keyPrefix relativeKey ∈ keys keyPrefix run := by
        refine List.mem_map_of_mem (List.mem_append_right _ ?_)
        rw [hpending]
        exact List.mem_cons_self
      have hmarker : joined keyPrefix markerName ≠ joined keyPrefix relativeKey := by
        intro heq
        rw [← heq] at hkeys
        exact h.unmarked run rfl hkeys
      have hmarked := marked_of_upload h.marked hmarker
        (hcareful run relativeKey rest rfl hpending)
      have hstores := @publishFile_stores crates keyPrefix objects relativeKey rest file run
      generalize (publishFile crates keyPrefix relativeKey rest file run).run objects = result
        at hstores
      cases hstores with
      | refused error => exact known_idle h.marked
      | failed error => exact known_idle hmarked
      | stored next hnext =>
        obtain ⟨object, hobjects, hrest, hkey, hsize, hdigest⟩ := hnext
        have hsame : keys keyPrefix next = keys keyPrefix run := by
          have hpublished : next.publication.objects.map (·.key) ++ next.pending =
              run.publication.objects.map (·.key) ++ run.pending := by
            rw [hobjects, hrest, hpending, List.map_append, List.append_assoc, ← hkey]
            rfl
          unfold keys
          rw [hpublished]
        refine ⟨hmarked, ?_, ?_, ?_⟩
        · rintro run' hrun object' hobject'
          cases hrun
          rw [hobjects, List.mem_append, List.mem_singleton] at hobject'
          rcases hobject' with hobject' | rfl
          · refine isStored_update_of_ne ?_ (h.uploaded run rfl object' hobject')
            intro heq
            have hdistinct := h.distinct run rfl
            unfold keys at hdistinct
            rw [hpending, List.map_append, List.nodup_append] at hdistinct
            refine hdistinct.2.2 _ (List.mem_map_of_mem (List.mem_map_of_mem hobject')) _ ?_ heq
            exact List.mem_cons_self
          · rw [hkey]
            exact ⟨_, Function.update_self .., hsize, hdigest⟩
        · rintro run' hrun
          cases hrun
          rw [hsame]
          exact h.distinct run rfl
        · rintro run' hrun
          cases hrun
          rw [hsame]
          exact h.unmarked run rfl

theorem known_start {system : PublishSystem} (h : Known crates marker keyPrefix system)
    {files : Except StoreError LocalFiles} {limits : PublishLimits}
    (hcareful : Careful crates marker keyPrefix system (.start files limits)) :
    Known crates marker keyPrefix (step crates marker keyPrefix system (.start files limits)) := by
  obtain ⟨objects, run⟩ := system
  unfold step
  cases run with
  | some run => exact h
  | none =>
    dsimp only
    cases hbegin : beginPublication files limits with
    | error error => exact h
    | ok run =>
      obtain ⟨present, hfiles, hobjects, hpending⟩ := beginPublication_keys hbegin
      have hperm : (keys keyPrefix run).Perm (present.keys.map (joined keyPrefix)) := by
        unfold keys
        rw [hobjects]
        exact hpending.map _
      have hdistinct : (present.keys.map (joined keyPrefix)).Nodup := by
        have hmap : present.keys.map (joined keyPrefix) = (present.keys.map trimSlashes).map
            fun key => trimSlashes keyPrefix ++ "/" ++ key := by
          rw [List.map_map]
          rfl
        rw [hmap]
        refine present.distinct.map fun key key' heq => ?_
        simpa [← String.toList_inj] using heq
      refine ⟨h.marked, ?_, ?_, ?_⟩
      · rintro run' hrun object hobject
        cases hrun
        rw [hobjects] at hobject
        cases hobject
      · rintro run' hrun
        cases hrun
        exact hperm.nodup_iff.mpr hdistinct
      · rintro run' hrun
        cases hrun
        rw [hperm.mem_iff]
        exact hcareful present hfiles

theorem known_step {system : PublishSystem} (h : Known crates marker keyPrefix system)
    {action : PublishAction} (hcareful : Careful crates marker keyPrefix system action) :
    Known crates marker keyPrefix (step crates marker keyPrefix system action) := by
  cases action with
  | start files limits => exact known_start h hcareful
  | upload file => exact known_upload h hcareful
  | complete outcome answers =>
    obtain ⟨objects, run⟩ := system
    unfold step
    cases run with
    | none => exact h
    | some run =>
      dsimp only
      cases run.pending with
      | cons relativeKey rest => exact h
      | nil =>
        dsimp only
        have hcomplete := @marked_of_complete crates marker keyPrefix objects run
          (h.uploaded run rfl) (h.unmarked run rfl)
        have hstores := @completePublication_stores crates marker keyPrefix objects run outcome
          answers
        generalize (completePublication crates marker keyPrefix run outcome answers).run objects =
          result at hstores
        cases hstores with
        | refused error => exact known_idle h.marked
        | failed error => exact known_idle hcomplete
        | stored publication => exact known_idle hcomplete
  | crash => exact known_idle h.marked

/-- A marker that is present lists only what is present as it is listed, as long as no run has a file
of the marker's name, or stores other bytes under a key that the marker lists. -/
theorem always_marked_of_each {objects : Objects}
    (hmarked : Marked crates marker keyPrefix objects) {actions : List PublishAction}
    (hcareful : Runs.Each (step crates marker keyPrefix) (Careful crates marker keyPrefix)
      ⟨objects, none⟩ actions) :
    Runs.Always (step crates marker keyPrefix)
      (fun system => Marked crates marker keyPrefix system.objects) ⟨objects, none⟩ actions := by
  have hstart : Known crates marker keyPrefix ⟨objects, none⟩ := known_idle hmarked
  have hknown := Runs.always_of_each (I := Known crates marker keyPrefix)
    (fun _ _ h hcareful => known_step h hcareful) hstart hcareful
  exact hknown.imp fun _ h => h.marked

end PublishSystem

/-! ## A run over an earlier one -/

namespace Rerun

open PublishSystem

def first : Publication :=
  ⟨1, [⟨"a.m4s", 1, "4bf5122f344554c53bde2ebb8cd2b7e3d1600ad631c385a5d7cce23c7785459a"⟩], 1⟩

def firstText : String :=
  "\x7b\"schema_version\":1,\"objects\":[\x7b\"key\":\"a.m4s\",\"size\":1,\"sha256\":" ++
    "\"4bf5122f344554c53bde2ebb8cd2b7e3d1600ad631c385a5d7cce23c7785459a\"\x7d],\"total_bytes\":1\x7d"

def marker : ByteCodec Publication :=
  .ofSample first firstText.toUTF8.data.toList (by decide)

/-- The digests of the bytes in the example. -/
def crates : Crates where
  isPath _ := true
  sha256 bytes :=
    if bytes = [1] then
      [75, 245, 18, 47, 52, 69, 84, 197, 59, 222, 46, 187, 140, 210, 183, 227, 209, 96, 10, 214, 49,
        195, 133, 165, 215, 204, 226, 60, 119, 133, 69, 154]
    else if bytes = [2] then
      [219, 193, 180, 201, 0, 255, 228, 141, 87, 91, 93, 165, 198, 56, 4, 1, 37, 246, 93, 176, 254,
        62, 36, 73, 75, 118, 234, 152, 100, 87, 217, 134]
    else []

def start : PublishAction := .start (.ok ⟨["a.m4s"], by decide⟩) ⟨10, 1000, 1000⟩

def upload (bytes : List UInt8) : PublishAction :=
  .upload ⟨"out/a.m4s", some ⟨true, 1⟩, some bytes, true, true, .stored, true⟩

/-- The segment is encoded again, and the second run is interrupted after it. -/
def actions : List PublishAction :=
  [start, upload [1], .complete .stored true, start, upload [2], .crash]

/-- The first run alone. -/
theorem always_marked_same :
    Runs.Always (step crates marker "vod/movie")
      (fun system => Marked crates marker "vod/movie" system.objects) ⟨fun _ => none, none⟩
      [start, upload [1], .complete .stored true] := by
  refine @always_marked_of_each crates marker "vod/movie" (fun _ => none) nofun _ ?_
  refine ⟨?_, ?_, trivial, trivial⟩
  · rintro present hpresent
    cases hpresent
    decide
  · rintro run relativeKey rest - - object ⟨text, publication, htext, -⟩
    have hnone : (step crates marker "vod/movie" ⟨fun _ => none, none⟩ start).objects
      (joined "vod/movie" markerName) = none := by decide +kernel
    cases hnone.symm.trans htext

/-- The marker of the first run has the digest of a segment that is no longer there. -/
theorem not_always_marked :
    ¬ Runs.Always (step crates marker "vod/movie")
      (fun system => Marked crates marker "vod/movie" system.objects) ⟨fun _ => none, none⟩
      actions := by
  intro h
  have hmarked : Marked crates marker "vod/movie"
      (actions.foldl (step crates marker "vod/movie") ⟨fun _ => none, none⟩).objects := h.foldl
  have hmarker : (actions.foldl (step crates marker "vod/movie") ⟨fun _ => none, none⟩).objects
      (joined "vod/movie" markerName) = some (marker.write first) := by decide +kernel
  have hobject : (actions.foldl (step crates marker "vod/movie") ⟨fun _ => none, none⟩).objects
      (joined "vod/movie" "a.m4s") = some [2] := by decide +kernel
  obtain ⟨bytes, hbytes, -, hdigest⟩ :=
    hmarked _ ⟨_, first, hmarker, marker.read_write first, List.mem_cons_self⟩
  cases hobject.symm.trans hbytes
  revert hdigest
  decide

end Rerun

end Fluvora.MediaStore

import Fluvora.Lib.Results
import Fluvora.Lib.Runs
import Fluvora.MediaStore.Objects

/-!
# Synchronising an HLS directory

`sync_hls_directory` of `crates/media/media-store`, any number of runs at once, each one file system or
object store operation at a time, while an encoder writes to the directory.  The walk through the
directory is not atomic, so its listing is an input.

`closed_iff` tells when no playlist that is stored names an object that is not.
-/

namespace Fluvora.MediaStore

open Fallible

/-! ## Files -/

/-- What stands behind the last dot of a file's name. -/
def extension (key : String) : Option String :=
  let name := (key.toList.splitOn '/').getLastD []
  let suffix := (name.reverse.takeWhile (· ≠ '.')).reverse
  if suffix.length + 1 < name.length then some (String.ofList suffix) else none

def isHlsObject (key : String) : Bool :=
  match extension key with
  | some suffix => ["m3u8", "m4s", "mp4", "aac", "vtt"].contains suffix
  | none => false

def isMutableHlsObject (key : String) : Bool := extension key = some "m3u8"

/-- Playlists come last. -/
def uploadsBefore (left right : String) : Bool :=
  if isMutableHlsObject left = isMutableHlsObject right then left ≤ right
  else isMutableHlsObject right

/-- The paths that `collect_files` returns are joined from components, so no slash is at either end. -/
structure Listing where
  keys : List String
  trimmed : ∀ key ∈ keys, trimSlashes key = key

/-- The local files, under their keys. -/
abbrev Directory := List (String × List UInt8)

def contentsOf (files : Directory) (key : String) : Option (List UInt8) :=
  (files.find? fun file => file.1 = key).map (·.2)

def lengthOf (files : Directory) (key : String) : Option UInt64 :=
  (contentsOf files key).map fun contents => UInt64.ofNat contents.length

/-! ## One run -/

structure SyncReport where
  uploadedObjects : UInt64
  skippedObjects : UInt64
  totalBytes : UInt64

/-- What is to be done next with the first pending file. -/
inductive SyncStage
  | examining
  | comparing (length : UInt64)
  | opening
  | reading (length : UInt64)
  | storing (length : UInt64) (contents : List UInt8)
  | verifying (length : UInt64)

structure SyncRun where
  pending : List String
  processed : List String
  limits : PublishLimits
  stage : SyncStage
  report : SyncReport

/-- What the object store answers. -/
structure SyncIo where
  answers : Bool
  starts : Bool
  parts : Bool
  outcome : PutOutcome

def saturatingSucc (n : UInt64) : UInt64 := if n.toNat + 1 < 2 ^ 64 then n + 1 else n

def beginSync (listing : Except StoreError Listing) (limits : PublishLimits) :
    Except StoreError SyncRun := do
  let listing ← listing
  let pending := (listing.keys.filter isHlsObject).insertionSort fun left right =>
    uploadsBefore left right
  if limits.maxObjects < pending.length then
    .error (.limit
      s!"HLS directory contains {pending.length} objects, above limit {limits.maxObjects}")
  else return ⟨pending, [], limits, .examining, ⟨0, 0, 0⟩⟩

/-- The result of an operation that may fail. -/
def resultOf {α : Type} (m : Fallible Objects StoreError α) :
    Fallible Objects StoreError (Except StoreError α) :=
  fun objects => (.ok (m.run objects).1, (m.run objects).2)

section

variable (crates : Crates) (keyPrefix : String) (files : Directory)

/-- The file's metadata are read, and the limits of the run are checked. -/
def examineFile (relativeKey : String) (run : SyncRun) : Fallible Objects StoreError SyncRun := do
  let length ← ofOption (lengthOf files relativeKey) (.io relativeKey)
  ensure (length ≤ run.limits.maxObjectBytes) (.limit
    s!"{relativeKey} is {length} bytes, above the {run.limits.maxObjectBytes}-byte object limit")
  let totalBytes ← ofOption (checkedAdd run.report.totalBytes length)
    (.limit "HLS directory size overflow")
  ensure (totalBytes ≤ run.limits.maxTotalBytes)
    (.limit s!"HLS directory exceeds {run.limits.maxTotalBytes}-byte publication limit")
  let _ ← ofExcept (joinKey crates keyPrefix relativeKey)
  return { run with
    stage := if isMutableHlsObject relativeKey then .opening else .comparing length
    report := { run.report with totalBytes } }

def skipFile (relativeKey : String) (rest : List String) (run : SyncRun) : SyncRun :=
  { run with
    pending := rest
    processed := run.processed ++ [relativeKey]
    stage := .examining
    report := { run.report with skippedObjects := saturatingSucc run.report.skippedObjects } }

/-- An object that is there with the same size is not uploaded again. -/
def compareFile (relativeKey : String) (rest : List String) (length : UInt64) (run : SyncRun)
    (io : SyncIo) : Fallible Objects StoreError SyncRun := do
  match ← resultOf (head crates (joined keyPrefix relativeKey) io.answers) with
  | .ok size =>
      if size = length.toNat then return skipFile relativeKey rest run
      else return { run with stage := .opening }
  | .error error =>
      if error.isNotFound then return { run with stage := .opening } else fail error

/-- The first part of `put_file`: an empty file is not read. -/
def openFile (relativeKey : String) (run : SyncRun) : Fallible Objects StoreError SyncRun := do
  let length ← ofOption (lengthOf files relativeKey) (.io relativeKey)
  ensure (length ≤ run.limits.maxObjectBytes) (.limit
    s!"{relativeKey} is {length} bytes, above the {run.limits.maxObjectBytes}-byte object limit")
  ofExcept (parseKey crates (joined keyPrefix relativeKey))
  return { run with stage := if length = 0 then .storing 0 [] else .reading length }

def readFile (relativeKey : String) (length : UInt64) (run : SyncRun) (io : SyncIo) :
    Fallible Objects StoreError SyncRun := do
  ensure io.starts (.object "start multipart upload" (joined keyPrefix relativeKey) false)
  let contents ← ofOption (contentsOf files relativeKey) (.io relativeKey)
  ensure io.parts (.object "upload part" (joined keyPrefix relativeKey) false)
  return { run with stage := .storing length contents }

def storeFile (relativeKey : String) (length : UInt64) (contents : List UInt8) (run : SyncRun)
    (io : SyncIo) : Fallible Objects StoreError SyncRun := do
  writeObject (if length = 0 then "put" else "complete multipart upload")
    (joined keyPrefix relativeKey) contents io.outcome
  return { run with stage := .verifying length }

def verifyFile (relativeKey : String) (rest : List String) (length : UInt64) (run : SyncRun)
    (io : SyncIo) : Fallible Objects StoreError SyncRun := do
  verify crates (joined keyPrefix relativeKey) length.toNat io.answers
  return { run with
    pending := rest
    processed := run.processed ++ [relativeKey]
    stage := .examining
    report := { run.report with uploadedObjects := saturatingSucc run.report.uploadedObjects } }

/-- The next operation of a run. -/
def advance (relativeKey : String) (rest : List String) (run : SyncRun) (io : SyncIo) :
    Fallible Objects StoreError SyncRun :=
  match run.stage with
  | .examining => examineFile crates keyPrefix files relativeKey run
  | .comparing length => compareFile crates keyPrefix relativeKey rest length run io
  | .opening => openFile crates keyPrefix files relativeKey run
  | .reading length => readFile keyPrefix files relativeKey length run io
  | .storing length contents => storeFile keyPrefix relativeKey length contents run io
  | .verifying length => verifyFile crates keyPrefix relativeKey rest length run io

end

/-- The file that is pending is about to be stored, and will be. -/
def Uploads (run : SyncRun) (io : SyncIo) (contents : List UInt8) : Prop :=
  (∃ length, run.stage = .storing length contents) ∧ io.outcome ≠ .failed false

/-! ## The encoder and any number of runs -/

inductive Encoding
  | write (key : String) (contents : List UInt8)
  | remove (key : String)

structure SyncSystem where
  files : Directory
  objects : Objects
  runs : ℕ → Option SyncRun

inductive SyncAction
  | encode (encoding : Encoding)
  | start (id : ℕ) (listing : Except StoreError Listing) (limits : PublishLimits)
  | advance (id : ℕ) (io : SyncIo)
  | interrupt (id : ℕ)

section

-- What a playlist of some contents names, as keys in the same directory.
variable (references : String → List UInt8 → List String)

/-- A playlist in the directory names the file. -/
def isNamed (files : Directory) (key : String) : Bool :=
  files.any fun file => isMutableHlsObject file.1 && (references file.1 file.2).contains key

/-- The encoder writes what a playlist names before the playlist, and removes a file only when no
playlist names it any more. -/
def Encoding.isAllowed (files : Directory) : Encoding → Bool
  | .write key contents =>
      if isMutableHlsObject key then
        (references key contents).all fun name => (contentsOf files name).isSome
      else !isNamed references files key
  | .remove key => !isNamed references files key

def Encoding.apply (files : Directory) : Encoding → Directory
  | .write key contents => (key, contents) :: files.filter fun file => file.1 ≠ key
  | .remove key => files.filter fun file => file.1 ≠ key

namespace SyncSystem

variable (crates : Crates) (keyPrefix : String)

def step (system : SyncSystem) : SyncAction → SyncSystem
  | .encode encoding =>
      if encoding.isAllowed references system.files then
        { system with files := encoding.apply system.files }
      else system
  | .start id listing limits =>
      match system.runs id, beginSync listing limits with
      | none, .ok run => { system with runs := Function.update system.runs id (some run) }
      | _, _ => system
  | .advance id io =>
      match system.runs id with
      | none => system
      | some run =>
          match run.pending with
          | [] => { system with runs := Function.update system.runs id none }
          | relativeKey :: rest =>
              let (result, objects) :=
                (advance crates keyPrefix system.files relativeKey rest run io).run system.objects
              { system with objects, runs := Function.update system.runs id result.toOption }
  | .interrupt id => { system with runs := Function.update system.runs id none }

/-- Everything that a stored playlist names is stored. -/
def Closed (objects : Objects) : Prop :=
  ∀ key, trimSlashes key = key → isMutableHlsObject key = true →
    ∀ contents, objects (joined keyPrefix key) = some contents →
      ∀ name ∈ references key contents, (objects (joined keyPrefix name)).isSome

/-- A playlist that is uploaded names only objects that its run has processed before it, and others
that are stored already. -/
def InOrder (system : SyncSystem) : SyncAction → Prop
  | .advance id io => ∀ run key rest contents, system.runs id = some run →
      run.pending = key :: rest → Uploads run io contents → isMutableHlsObject key = true →
        ∀ name ∈ references key contents,
          (∃ earlier ∈ key :: run.processed, joined keyPrefix name = joined keyPrefix earlier) ∨
            (system.objects (joined keyPrefix name)).isSome
  | _ => True

end SyncSystem

end

/-! ## What an operation of a run does -/

/-- An operation that stores nothing fails, goes on to another stage, or is done with the file, and
then the file's object is there. -/
inductive Advances (keyPrefix : String) (objects : Objects) (run : SyncRun) (key : String)
    (rest : List String) : Except StoreError SyncRun × Objects → Prop
  | failed (error : StoreError) : Advances keyPrefix objects run key rest (.error error, objects)
  | moved (stage : SyncStage) (report : SyncReport) :
      Advances keyPrefix objects run key rest (.ok { run with stage, report }, objects)
  | finished (report : SyncReport) (hpresent : (objects (joined keyPrefix key)).isSome) :
      Advances keyPrefix objects run key rest (.ok { run with
        pending := rest, processed := run.processed ++ [key], stage := .examining, report }, objects)

section

variable {crates : Crates} {keyPrefix : String} {objects : Objects} {run : SyncRun} {key : String}
  {rest : List String} {io : SyncIo}

theorem head_run (objects : Objects) (path : String) (answers : Bool) :
    ∃ result, (head crates path answers).run objects = (result, objects) ∧
      ∀ size, result = .ok size → (objects path).isSome := by
  unfold head
  rw [run_ofExcept_bind]
  cases parseKey crates path with
  | error error => exact ⟨_, rfl, nofun⟩
  | ok =>
    dsimp only
    rw [run_ensure_bind]
    split_ifs
    · rw [run_get_bind, run_ofOption_bind]
      cases hobject : objects path with
      | none => exact ⟨_, rfl, nofun⟩
      | some contents => exact ⟨_, rfl, fun _ _ => rfl⟩
    · exact ⟨_, rfl, nofun⟩

theorem examineFile_run (files : Directory) :
    Advances keyPrefix objects run key rest
      ((examineFile crates keyPrefix files key run).run objects) := by
  unfold examineFile
  rw [run_ofOption_bind]
  cases lengthOf files key with
  | none => exact .failed _
  | some length =>
    dsimp only
    rw [run_ensure_bind]
    by_cases hlength : length ≤ run.limits.maxObjectBytes
    swap
    · rw [if_neg hlength]
      exact .failed _
    rw [if_pos hlength, run_ofOption_bind]
    cases checkedAdd run.report.totalBytes length with
    | none => exact .failed _
    | some totalBytes =>
      dsimp only
      rw [run_ensure_bind]
      by_cases htotal : totalBytes ≤ run.limits.maxTotalBytes
      swap
      · rw [if_neg htotal]
        exact .failed _
      rw [if_pos htotal, run_ofExcept_bind]
      cases joinKey crates keyPrefix key with
      | error error => exact .failed _
      | ok => exact .moved _ _

theorem run_resultOf_bind {α β : Type} (m : Fallible Objects StoreError α)
    (f : Except StoreError α → Fallible Objects StoreError β) (objects : Objects) :
    (resultOf m >>= f).run objects = (f (m.run objects).1).run (m.run objects).2 := rfl

theorem compareFile_run (length : UInt64) :
    Advances keyPrefix objects run key rest
      ((compareFile crates keyPrefix key rest length run io).run objects) := by
  obtain ⟨result, hrun, hpresent⟩ := @head_run crates objects (joined keyPrefix key) io.answers
  unfold compareFile
  rw [run_resultOf_bind, hrun]
  cases result with
  | error error =>
    dsimp only
    split_ifs
    · exact .moved _ _
    · exact .failed _
  | ok size =>
    dsimp only
    split_ifs
    · exact .finished _ (hpresent size rfl)
    · exact .moved _ _

theorem openFile_run (files : Directory) :
    Advances keyPrefix objects run key rest
      ((openFile crates keyPrefix files key run).run objects) := by
  unfold openFile
  rw [run_ofOption_bind]
  cases lengthOf files key with
  | none => exact .failed _
  | some length =>
    dsimp only
    rw [run_ensure_bind]
    by_cases hlength : length ≤ run.limits.maxObjectBytes
    swap
    · rw [if_neg hlength]
      exact .failed _
    rw [if_pos hlength, run_ofExcept_bind]
    cases parseKey crates (joined keyPrefix key) with
    | error error => exact .failed _
    | ok => exact .moved _ _

theorem readFile_run (files : Directory) (length : UInt64) :
    Advances keyPrefix objects run key rest
      ((readFile keyPrefix files key length run io).run objects) := by
  unfold readFile
  rw [run_ensure_bind]
  split_ifs
  swap
  · exact .failed _
  rw [run_ofOption_bind]
  cases contentsOf files key with
  | none => exact .failed _
  | some contents =>
    dsimp only
    rw [run_ensure_bind]
    split_ifs
    · exact .moved _ _
    · exact .failed _

theorem verifyFile_run (length : UInt64) :
    Advances keyPrefix objects run key rest
      ((verifyFile crates keyPrefix key rest length run io).run objects) := by
  obtain ⟨result, hrun, hpresent⟩ :=
    @verify_run crates objects (joined keyPrefix key) length.toNat io.answers
  unfold verifyFile
  rw [run_bind, hrun]
  cases result with
  | error error => exact .failed _
  | ok =>
    obtain ⟨contents, hcontents, -⟩ := hpresent rfl
    exact .finished _ (by rw [hcontents]; rfl)

theorem advance_run (files : Directory) (hquiet : ∀ contents, ¬ Uploads run io contents) :
    Advances keyPrefix objects run key rest
      ((advance crates keyPrefix files key rest run io).run objects) := by
  unfold advance
  cases hstage : run.stage with
  | examining => exact examineFile_run files
  | comparing length => exact compareFile_run length
  | opening => exact openFile_run files
  | reading length => exact readFile_run files length
  | verifying length => exact verifyFile_run length
  | storing length contents =>
    have houtcome : io.outcome = .failed false := by
      by_contra hstores
      exact hquiet contents ⟨⟨length, hstage⟩, hstores⟩
    unfold storeFile writeObject
    rw [houtcome]
    exact .failed _

/-- An upload stores the contents that were read, and may fail all the same. -/
theorem advance_run_of_uploads {contents : List UInt8} (h : Uploads run io contents)
    (files : Directory) :
    ∃ result, (advance crates keyPrefix files key rest run io).run objects =
        (result, Function.update objects (joined keyPrefix key) (some contents)) ∧
      ∀ next, result = .ok next → next.pending = run.pending ∧ next.processed = run.processed := by
  obtain ⟨⟨length, hstage⟩, houtcome⟩ := h
  unfold advance storeFile writeObject
  rw [hstage]
  dsimp only
  cases hio : io.outcome with
  | stored =>
    refine ⟨_, rfl, fun next hnext => ?_⟩
    cases hnext
    exact ⟨rfl, rfl⟩
  | failed applied =>
    cases applied with
    | true => exact ⟨_, rfl, nofun⟩
    | false => exact absurd hio houtcome

end

namespace SyncSystem

section

variable {references : String → List UInt8 → List String} {crates : Crates} {keyPrefix : String}

/-- What holds as long as every upload is in order. -/
structure Consistent (references : String → List UInt8 → List String) (keyPrefix : String)
    (system : SyncSystem) : Prop where
  closed : Closed references keyPrefix system.objects
  processed : ∀ id run, system.runs id = some run → ∀ key ∈ run.processed,
    (system.objects (joined keyPrefix key)).isSome
  trimmed : ∀ id run, system.runs id = some run → ∀ key ∈ run.pending, trimSlashes key = key

/-- What is stored stays, with the same bytes or others. -/
theorem isSome_update {objects : Objects} {path other : String} (contents : List UInt8)
    (h : (objects other).isSome) : (Function.update objects path (some contents) other).isSome := by
  by_cases hother : other = path
  · rw [hother, Function.update_self]
    rfl
  · rwa [Function.update_of_ne hother]

/-- Another object keeps the stored playlists closed if what it names, being a playlist, is there. -/
theorem closed_update_iff {objects : Objects} {key : String} (hkey : trimSlashes key = key)
    (h : Closed references keyPrefix objects) (contents : List UInt8) :
    Closed references keyPrefix (Function.update objects (joined keyPrefix key) (some contents)) ↔
      (isMutableHlsObject key = true → ∀ name ∈ references key contents,
        joined keyPrefix name = joined keyPrefix key ∨ (objects (joined keyPrefix name)).isSome) := by
  constructor
  · intro hclosed hmutable name hname
    have hpresent := hclosed key hkey hmutable contents (Function.update_self _ _ _) name hname
    by_cases hsame : joined keyPrefix name = joined keyPrefix key
    · exact .inl hsame
    · rw [Function.update_of_ne hsame] at hpresent
      exact .inr hpresent
  · intro hnames other hother hmutable stored hstored name hname
    by_cases hsame : joined keyPrefix other = joined keyPrefix key
    · have hkeys : other = key := by
        have htrim := joined_inj.mp hsame
        rwa [hother, hkey] at htrim
      subst hkeys
      rw [Function.update_self] at hstored
      cases hstored
      rcases hnames hmutable name hname with hself | hpresent
      · rw [hself, Function.update_self]
        rfl
      · exact isSome_update contents hpresent
    · rw [Function.update_of_ne hsame] at hstored
      exact isSome_update contents (h other hother hmutable stored hstored name hname)

section

variable {system : SyncSystem}

theorem Consistent.withRun (h : Consistent references keyPrefix system) (id : ℕ) {run : Option SyncRun}
    (hprocessed : ∀ next, run = some next → ∀ key ∈ next.processed,
      (system.objects (joined keyPrefix key)).isSome)
    (htrimmed : ∀ next, run = some next → ∀ key ∈ next.pending, trimSlashes key = key) :
    Consistent references keyPrefix { system with runs := Function.update system.runs id run } := by
  refine ⟨h.closed, fun other next hnext => ?_, fun other next hnext => ?_⟩ <;> dsimp only at hnext
  · by_cases hother : other = id
    · rw [hother, Function.update_self] at hnext
      exact hprocessed next hnext
    · rw [Function.update_of_ne hother] at hnext
      exact h.processed other next hnext
  · by_cases hother : other = id
    · rw [hother, Function.update_self] at hnext
      exact htrimmed next hnext
    · rw [Function.update_of_ne hother] at hnext
      exact h.trimmed other next hnext

theorem Consistent.withObject (h : Consistent references keyPrefix system) (path : String)
    (contents : List UInt8)
    (hclosed : Closed references keyPrefix (Function.update system.objects path (some contents))) :
    Consistent references keyPrefix
      { system with objects := Function.update system.objects path (some contents) } := by
  refine ⟨hclosed, ?_, h.trimmed⟩
  intro id run hrun key hkey
  dsimp only
  exact isSome_update contents (h.processed id run hrun key hkey)

/-- The upload of a run's playlist is in order exactly if the stored playlists stay closed. -/
theorem closed_store_iff (h : Consistent references keyPrefix system) {id : ℕ} {run : SyncRun}
    (hrun : system.runs id = some run) {key : String} (hkey : trimSlashes key = key)
    (contents : List UInt8) :
    Closed references keyPrefix
        (Function.update system.objects (joined keyPrefix key) (some contents)) ↔
      (isMutableHlsObject key = true → ∀ name ∈ references key contents,
        (∃ earlier ∈ key :: run.processed, joined keyPrefix name = joined keyPrefix earlier) ∨
          (system.objects (joined keyPrefix name)).isSome) := by
  rw [closed_update_iff hkey h.closed contents]
  refine forall_congr' fun _ => forall_congr' fun name => forall_congr' fun _ => ⟨?_, ?_⟩
  · rintro (hself | hpresent)
    · exact .inl ⟨key, List.mem_cons_self, hself⟩
    · exact .inr hpresent
  · rintro (⟨earlier, hearlier, hsame⟩ | hpresent)
    · rcases List.mem_cons.mp hearlier with rfl | hprocessed
      · exact .inl hsame
      · rw [hsame]
        exact .inr (h.processed id run hrun earlier hprocessed)
    · exact .inr hpresent

end

theorem eq_ok_of_toOption {α : Type} {result : Except StoreError α} {value : α}
    (h : result.toOption = some value) : result = .ok value := by
  cases result with
  | error error => cases h
  | ok other =>
    cases h
    rfl

theorem trimmed_of_beginSync {listing : Except StoreError Listing} {limits : PublishLimits}
    {run : SyncRun} (h : beginSync listing limits = .ok run) :
    run.processed = [] ∧ ∀ key ∈ run.pending, trimSlashes key = key := by
  unfold beginSync at h
  cases listing with
  | error error => cases h
  | ok listing =>
    rw [Results.bind_ok] at h
    dsimp only at h
    split_ifs at h
    cases h
    refine ⟨rfl, fun key hkey => listing.trimmed key ?_⟩
    exact (List.mem_filter.mp ((List.perm_insertionSort _ _).mem_iff.mp hkey)).1

/-- A step in order keeps the invariant, and a step out of order breaks what is promised. -/
theorem consistent_step (system : SyncSystem) (action : SyncAction)
    (h : Consistent references keyPrefix system) :
    (InOrder references keyPrefix system action →
      Consistent references keyPrefix (system.step references crates keyPrefix action)) ∧
    (Closed references keyPrefix (system.step references crates keyPrefix action).objects →
      InOrder references keyPrefix system action) := by
  cases action with
  | encode encoding =>
    refine ⟨fun _ => ?_, fun _ => trivial⟩
    unfold step
    dsimp only
    split_ifs
    · exact ⟨h.closed, h.processed, h.trimmed⟩
    · exact h
  | start id listing limits =>
    refine ⟨fun _ => ?_, fun _ => trivial⟩
    unfold step
    dsimp only
    cases system.runs id with
    | some run => exact h
    | none =>
      cases hbegin : beginSync listing limits with
      | error error => exact h
      | ok run =>
        obtain ⟨hprocessed, htrimmed⟩ := trimmed_of_beginSync hbegin
        refine h.withRun id (fun next hnext => ?_) (fun next hnext => ?_)
        · cases hnext
          rw [hprocessed]
          exact nofun
        · cases hnext
          exact htrimmed
  | interrupt id => exact ⟨fun _ => h.withRun id nofun nofun, fun _ => trivial⟩
  | advance id io =>
    unfold step
    dsimp only
    cases hrun : system.runs id with
    | none =>
      refine ⟨fun _ => h, fun _ run key rest contents hsome => ?_⟩
      rw [hrun] at hsome
      cases hsome
    | some run =>
    dsimp only
    cases hpending : run.pending with
    | nil =>
      refine ⟨fun _ => h.withRun id nofun nofun, fun _ run' key rest contents hsome hcons => ?_⟩
      cases hrun.symm.trans hsome
      rw [hpending] at hcons
      cases hcons
    | cons key rest =>
    dsimp only
    have htrimmed := h.trimmed id run hrun
    rw [hpending] at htrimmed
    by_cases huploads : ∃ contents, Uploads run io contents
    · obtain ⟨contents, huploads⟩ := huploads
      obtain ⟨result, hadvance, hnext⟩ := @advance_run_of_uploads crates keyPrefix system.objects run
        key rest io contents huploads system.files
      rw [hadvance]
      have hstores := closed_store_iff h hrun (htrimmed key List.mem_cons_self) contents
      refine ⟨fun horder => ?_, fun hclosed => ?_⟩
      · have hclosed := hstores.mpr (horder run key rest contents hrun hpending huploads)
        refine (h.withObject _ contents hclosed).withRun id (fun next hsome => ?_) fun next hsome => ?_
        · obtain ⟨-, hprocessed⟩ := hnext next (eq_ok_of_toOption hsome)
          rw [hprocessed]
          intro earlier hearlier
          dsimp only
          exact isSome_update contents (h.processed id run hrun earlier hearlier)
        · obtain ⟨hsame, -⟩ := hnext next (eq_ok_of_toOption hsome)
          rw [hsame, hpending]
          exact htrimmed
      · intro run' key' rest' contents' hrun' hpending' huploads'
        cases hrun.symm.trans hrun'
        cases hpending.symm.trans hpending'
        obtain ⟨⟨length, hstage⟩, -⟩ := huploads
        obtain ⟨⟨length', hstage'⟩, -⟩ := huploads'
        cases hstage.symm.trans hstage'
        exact hstores.mp hclosed
    · have hquiet : ∀ contents, ¬ Uploads run io contents := fun contents hup => huploads ⟨contents, hup⟩
      have hadvances := @advance_run crates keyPrefix system.objects run key rest io system.files hquiet
      generalize (advance crates keyPrefix system.files key rest run io).run system.objects =
        result at hadvances
      refine ⟨fun _ => ?_, fun _ run' key' rest' contents hrun' _ hup => ?_⟩
      · cases hadvances with
        | failed error => exact h.withRun id nofun nofun
        | moved stage report =>
          refine h.withRun id (fun next hsome => ?_) fun next hsome => ?_
          · cases hsome
            exact h.processed id run hrun
          · cases hsome
            exact h.trimmed id run hrun
        | finished report hpresent =>
          refine h.withRun id (fun next hsome => ?_) fun next hsome => ?_
          · cases hsome
            intro earlier hearlier
            rcases List.mem_append.mp hearlier with hold | hnew
            · exact h.processed id run hrun earlier hold
            · rw [List.mem_singleton.mp hnew]
              exact hpresent
          · cases hsome
            exact fun earlier hearlier => htrimmed earlier (List.mem_cons_of_mem _ hearlier)
      · cases hrun.symm.trans hrun'
        exact absurd hup (hquiet contents)

end

end SyncSystem

/-! ## A ladder of renditions -/

namespace LadderSync

open SyncSystem

/-- The lines of a playlist that are not tags, relative to the playlist's directory. -/
def namedBy (key : String) (contents : List UInt8) : List String :=
  let directory := (key.toList.reverse.dropWhile (· ≠ '/')).reverse
  let lines := (contents.map fun byte => Char.ofNat byte.toNat).splitOn '\n'
  (lines.filter fun line => line ≠ [] && line.head? ≠ some '#').map fun line =>
    String.ofList (directory ++ line)

def text (lines : String) : List UInt8 := lines.toList.map fun c => UInt8.ofNat c.toNat

def crates : Crates := ⟨fun _ => true, id⟩

def files : Directory :=
  [("v0/segment-0.m4s", [1]), ("v0/index.m3u8", text "#EXTM3U\nsegment-0.m4s\n"),
    ("master.m3u8", text "#EXTM3U\nv0/index.m3u8\n")]

def listing : Listing := ⟨files.map (·.1), by decide⟩

def limits : PublishLimits := ⟨1024, 536870912, 8589934592⟩

/-- The first pass over the directory, up to the upload of its second file. -/
def actions : List SyncAction :=
  .start 0 (.ok listing) limits :: List.replicate 10 (.advance 0 ⟨true, true, true, .stored⟩)

theorem closed_empty : Closed namedBy "live/stream" fun _ => none := by
  intro key _ _ contents hstored
  cases hstored

end LadderSync

end Fluvora.MediaStore

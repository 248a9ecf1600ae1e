import Fluvora.Lib.Codecs
import Fluvora.Lib.Fallible

/-!
# The media store

Keys, uploads and checks of `crates/media/media-store`.  The object store behind it is an atomic map
from keys to bytes.  What the file system and the object store answer to an operation is an input of it:
an upload that fails may or may not have been applied, and a process that crashes leaves what an
upload that fails there leaves.

`putFile_writes` says what an upload can do.
-/

namespace Fluvora.MediaStore

open Fallible

/-- The objects by their keys, without the namespace prefix of the store. -/
abbrev Objects := String → Option (List UInt8)

inductive StoreError
  | invalidKey (text : String)
  | io (path : String)
  | object (operation key : String) (notFound : Bool)
  | limit (text : String)
  | verification (key : String) (expected actual : ℕ)
deriving DecidableEq

def StoreError.isNotFound : StoreError → Bool
  | .object _ _ notFound => notFound
  | _ => false

/-- Functions of other crates: whether a text is a path of the object store, and SHA-256. -/
structure Crates where
  isPath : String → Bool
  sha256 : List UInt8 → List UInt8

structure PublishLimits where
  maxObjects : ℕ
  maxObjectBytes : UInt64
  maxTotalBytes : UInt64

def checkedAdd (a b : UInt64) : Option UInt64 :=
  if a.toNat + b.toNat < 2 ^ 64 then some (a + b) else none

structure PublishedObject where
  key : String
  size : UInt64
  sha256 : String
deriving DecidableEq, Encodable

/-! ## Keys -/

def trimSlashes (value : String) : String :=
  String.ofList ((value.toList.dropWhile (· = '/')).reverse.dropWhile (· = '/')).reverse

variable (crates : Crates)

def parseKey (value : String) : Except StoreError Unit :=
  if value.isEmpty || 1024 < value.utf8ByteSize then
    .error (.invalidKey "object key must contain 1..=1024 bytes")
  else if crates.isPath value then .ok ()
  else .error (.invalidKey "object key is not a path")

/-- The key of a file below a prefix. -/
def joined (keyPrefix key : String) : String := trimSlashes keyPrefix ++ "/" ++ trimSlashes key

def joinKey (keyPrefix key : String) : Except StoreError String := do
  parseKey crates (joined keyPrefix key)
  return joined keyPrefix key

theorem joined_inj {keyPrefix key key' : String} :
    joined keyPrefix key = joined keyPrefix key' ↔ trimSlashes key = trimSlashes key' := by
  unfold joined
  rw [← String.toList_inj, ← String.toList_inj]
  simp

theorem eq_of_joinKey {keyPrefix key path : String}
    (h : joinKey crates keyPrefix key = .ok path) : path = joined keyPrefix key := by
  unfold joinKey at h
  cases hparse : parseKey crates (joined keyPrefix key) with
  | error error =>
    rw [hparse] at h
    cases h
  | ok =>
    rw [hparse] at h
    exact (Except.ok.inj h).symm

/-! ## Uploads -/

inductive PutOutcome
  | stored
  | failed (applied : Bool)
deriving DecidableEq

/-- Stores bytes under a key at once. -/
def writeObject (operation key : String) (bytes : List UInt8) :
    PutOutcome → Fallible Objects StoreError Unit
  | .stored => modify fun objects => Function.update objects key (some bytes)
  | .failed true => do
      modify fun objects => Function.update objects key (some bytes)
      fail (.object operation key false)
  | .failed false => fail (.object operation key false)

/-- The size of an object; `answers` tells whether the object store can be asked. -/
def head (key : String) (answers : Bool) : Fallible Objects StoreError ℕ := do
  ofExcept (parseKey crates key)
  ensure answers (.object "head" key false)
  let objects ← get
  let bytes ← ofOption (objects key) (.object "head" key true)
  return bytes.length

def verify (key : String) (expected : ℕ) (answers : Bool) : Fallible Objects StoreError Unit := do
  let actual ← head crates key answers
  ensure (actual = expected) (.verification key expected actual)

def put (key : String) (bytes : List UInt8) (outcome : PutOutcome) (answers : Bool) :
    Fallible Objects StoreError Unit := do
  ofExcept (parseKey crates key)
  writeObject "put" key bytes outcome
  verify crates key bytes.length answers

structure FileMetadata where
  isFile : Bool
  length : UInt64

/-- What the operations of an upload meet: what is on disk at the path, whether the upload can be
started and its parts sent, how it ends, and whether its size can be asked for. -/
structure FileIo where
  path : String
  metadata : Option FileMetadata
  contents : Option (List UInt8)
  starts : Bool
  parts : Bool
  outcome : PutOutcome
  answers : Bool

/-- The bytes that an upload stores if it gets so far. -/
def FileIo.upload (file : FileIo) : List UInt8 :=
  match file.metadata with
  | some metadata => if metadata.length = 0 then [] else file.contents.getD []
  | none => []

def hexDigit (nibble : UInt8) : Char := "0123456789abcdef".toList.getD nibble.toNat '0'

def hexDigest (bytes : List UInt8) : String :=
  String.ofList (bytes.flatMap fun byte => [hexDigit (byte / 16), hexDigit (byte % 16)])

/-- Uploads a file in parts, unless it is empty, and returns what has been hashed. -/
def uploadContents (key : String) (file : FileIo) (length : UInt64) :
    Fallible Objects StoreError (List UInt8) :=
  if length = 0 then do
    writeObject "put" key [] file.outcome
    return []
  else do
    ensure file.starts (.object "start multipart upload" key false)
    let contents ← ofOption file.contents (.io file.path)
    ensure file.parts (.object "upload part" key false)
    writeObject "complete multipart upload" key contents file.outcome
    return contents

def putFile (key : String) (file : FileIo) (maxBytes : UInt64) :
    Fallible Objects StoreError PublishedObject := do
  let metadata ← ofOption file.metadata (.io file.path)
  ensure metadata.isFile (.limit s!"{file.path} is not a regular file")
  ensure (metadata.length ≤ maxBytes)
    (.limit s!"{file.path} is {metadata.length} bytes, above the {maxBytes}-byte object limit")
  ofExcept (parseKey crates key)
  let hashed ← uploadContents key file metadata.length
  verify crates key metadata.length.toNat file.answers
  return ⟨key, metadata.length, hexDigest (crates.sha256 hashed)⟩

/-! ## What an upload does -/

/-- The object is stored as it is listed. -/
def IsStored (objects : Objects) (key : String) (object : PublishedObject) : Prop :=
  ∃ bytes, objects key = some bytes ∧ bytes.length = object.size.toNat ∧
    hexDigest (crates.sha256 bytes) = object.sha256

/-- A call fails before or after it has stored the bytes, or it stores them and succeeds. -/
inductive Stores {α : Type} (objects : Objects) (key : String) (bytes : List UInt8)
    (Good : α → Prop) : Except StoreError α × Objects → Prop
  | refused (error : StoreError) : Stores objects key bytes Good (.error error, objects)
  | failed (error : StoreError) :
      Stores objects key bytes Good (.error error, Function.update objects key (some bytes))
  | stored (value : α) (hgood : Good value) :
      Stores objects key bytes Good (.ok value, Function.update objects key (some bytes))

variable {crates} {α β : Type} {objects : Objects} {key : String} {bytes : List UInt8}

/-- What follows on the bytes being stored only looks at the objects. -/
theorem Stores.bind {Good : α → Prop} {Better : β → Prop} {m : Fallible Objects StoreError α}
    {f : α → Fallible Objects StoreError β} (hm : Stores objects key bytes Good (m.run objects))
    (hf : ∀ value, Good value →
      ∃ result, (f value).run (Function.update objects key (some bytes)) =
        (result, Function.update objects key (some bytes)) ∧
        ∀ value', result = .ok value' → Better value') :
    Stores objects key bytes Better ((m >>= f).run objects) := by
  rw [run_bind]
  generalize m.run objects = run at hm
  cases hm with
  | refused error => exact .refused error
  | failed error => exact .failed error
  | stored value hgood =>
    obtain ⟨result, hrun, hbetter⟩ := hf value hgood
    dsimp only
    rw [hrun]
    cases result with
    | error error => exact .failed error
    | ok value' => exact .stored value' (hbetter value' rfl)

theorem writeObject_stores (objects : Objects) (operation key : String) (bytes : List UInt8)
    (outcome : PutOutcome) :
    Stores objects key bytes (fun _ => True)
      ((writeObject operation key bytes outcome).run objects) := by
  cases outcome with
  | stored => exact .stored () trivial
  | failed applied =>
    cases applied with
    | true => exact .failed _
    | false => exact .refused _

/-- A check changes nothing, and succeeds only if an object of the size is there. -/
theorem verify_run (objects : Objects) (key : String) (expected : ℕ) (answers : Bool) :
    ∃ result, (verify crates key expected answers).run objects = (result, objects) ∧
      (result = .ok () → ∃ bytes, objects key = some bytes ∧ bytes.length = expected) := by
  unfold verify head
  rw [run_bind, run_ofExcept_bind]
  cases parseKey crates key with
  | error error => exact ⟨_, rfl, nofun⟩
  | ok =>
    dsimp only
    rw [run_ensure_bind]
    split_ifs
    · rw [run_get_bind, run_ofOption_bind]
      cases hobject : objects key with
      | none => exact ⟨_, rfl, nofun⟩
      | some bytes =>
        dsimp only
        rw [run_pure]
        dsimp only
        rw [run_ensure]
        split_ifs with hsize
        · exact ⟨_, rfl, fun _ => ⟨bytes, rfl, hsize⟩⟩
        · exact ⟨_, rfl, nofun⟩
    · exact ⟨_, rfl, nofun⟩

theorem put_stores (objects : Objects) (key : String) (bytes : List UInt8) (outcome : PutOutcome)
    (answers : Bool) :
    Stores objects key bytes (fun _ => True) ((put crates key bytes outcome answers).run objects) := by
  unfold put
  rw [run_ofExcept_bind]
  cases parseKey crates key with
  | error error => exact .refused error
  | ok =>
    refine (writeObject_stores objects "put" key bytes outcome).bind fun _ _ => ?_
    obtain ⟨result, hrun, -⟩ := @verify_run crates (Function.update objects key (some bytes)) key
      bytes.length answers
    exact ⟨result, hrun, fun _ _ => trivial⟩

theorem verify_update_eq_ok_iff (hkey : parseKey crates key = .ok ()) {answers : Bool} :
    ((verify crates key bytes.length answers).run
      (Function.update objects key (some bytes))).1 = .ok () ↔ answers = true := by
  unfold verify head
  rw [run_bind, run_ofExcept_bind, hkey]
  dsimp only
  rw [run_ensure_bind]
  by_cases hanswers : answers = true
  · rw [if_pos hanswers, run_get_bind, run_ofOption_bind, Function.update_self]
    dsimp only
    rw [run_pure]
    dsimp only
    rw [run_ensure, if_pos rfl]
    exact iff_of_true rfl hanswers
  · rw [if_neg hanswers]
    exact iff_of_false nofun hanswers

/-- Storing an object succeeds exactly if it is stored and its size can be asked for. -/
theorem put_eq_ok_iff {outcome : PutOutcome} {answers : Bool} :
    ((put crates key bytes outcome answers).run objects).1 = .ok () ↔
      parseKey crates key = .ok () ∧ outcome = .stored ∧ answers = true := by
  unfold put
  rw [run_ofExcept_bind]
  cases hkey : parseKey crates key with
  | error error => exact iff_of_false nofun nofun
  | ok =>
    cases outcome with
    | failed applied =>
      cases applied with
      | true => exact iff_of_false nofun nofun
      | false => exact iff_of_false nofun nofun
    | stored =>
      refine (verify_update_eq_ok_iff hkey).trans ?_
      simp

theorem uploadContents_stores (objects : Objects) (key : String) (file : FileIo)
    {length : UInt64} :
    let upload := if length = 0 then [] else file.contents.getD []
    Stores objects key upload (· = upload) ((uploadContents key file length).run objects) := by
  intro upload
  unfold uploadContents
  split_ifs with hlength
  · have hupload : upload = [] := if_pos hlength
    rw [hupload]
    exact (writeObject_stores objects "put" key [] file.outcome).bind fun _ _ => ⟨.ok [], rfl, by simp⟩
  · have hupload : upload = file.contents.getD [] := if_neg hlength
    rw [run_ensure_bind]
    split_ifs
    swap
    · exact .refused _
    rw [run_ofOption_bind]
    cases hcontents : file.contents with
    | none => exact .refused _
    | some contents =>
      rw [hupload, hcontents, Option.getD_some]
      dsimp only
      rw [run_ensure_bind]
      split_ifs
      · exact (writeObject_stores objects _ key contents file.outcome).bind
          fun _ _ => ⟨.ok contents, rfl, by simp⟩
      · exact .refused _

theorem putFile_stores (objects : Objects) (key : String) (file : FileIo) (maxBytes : UInt64) :
    Stores objects key file.upload
      (fun object : PublishedObject => object.key = key ∧
        file.upload.length = object.size.toNat ∧
        hexDigest (crates.sha256 file.upload) = object.sha256)
      ((putFile crates key file maxBytes).run objects) := by
  unfold putFile FileIo.upload
  rw [run_ofOption_bind]
  cases file.metadata with
  | none => exact .refused _
  | some metadata =>
    dsimp only
    rw [run_ensure_bind]
    by_cases hfile : metadata.isFile = true
    swap
    · rw [if_neg hfile]
      exact .refused _
    rw [if_pos hfile, run_ensure_bind]
    by_cases hlimit : metadata.length ≤ maxBytes
    swap
    · rw [if_neg hlimit]
      exact .refused _
    rw [if_pos hlimit, run_ofExcept_bind]
    cases parseKey crates key with
    | error error => exact .refused error
    | ok =>
      refine (uploadContents_stores objects key file).bind ?_
      rintro hashed rfl
      obtain ⟨result, hrun, hok⟩ := @verify_run crates (Function.update objects key
        (some (if metadata.length = 0 then [] else file.contents.getD []))) key
        metadata.length.toNat file.answers
      rw [run_bind, hrun]
      cases result with
      | error error => exact ⟨.error error, rfl, nofun⟩
      | ok =>
        refine ⟨.ok _, rfl, ?_⟩
        rintro object hobject
        cases hobject
        obtain ⟨stored, hstored, hsize⟩ := hok rfl
        rw [Function.update_self] at hstored
        cases hstored
        exact ⟨rfl, hsize, rfl⟩

end Fluvora.MediaStore

import Fluvora.Lib.Fallible
import Fluvora.Lib.Maps

/-!
# Snapshot files with revisions

A value is kept in one file for each of its revisions.  A load reads every file that exists, in the
order of a listing, and takes the newest value that it accepts; a writer adds the file of a new
revision and prunes the old ones.  `persistOnce_recovers_iff` and `persistAlways_recovers_iff` say
when a writer gets past a newest file that the load rejects.
-/

open Std (ExtTreeMap)

namespace Fluvora.Snapshots

/-- What exists under a file name: a regular file, something else that cannot be read, or an entry
that points nowhere. -/
inductive File
  | regular (bytes : List UInt8)
  | unreadable
  | dangling
deriving DecidableEq

/-- `Path::exists`. -/
def File.present : File → Bool
  | .regular _ => true
  | .unreadable => true
  | .dangling => false

/-- A read of a regular file that is not too large. -/
def File.read (limit : ℕ) : File → Option (List UInt8)
  | .regular bytes => if bytes.length ≤ limit then some bytes else none
  | .unreadable => none
  | .dangling => none

/-- The files of one value by revision. -/
abbrev Files := ExtTreeMap UInt64 File

/-- An order in which a directory is listed. -/
structure Listing where
  entries : Files → List (UInt64 × File)
  mem_entries : ∀ files number file, (number, file) ∈ entries files ↔ files[number]? = some file

theorem mem_toList_files (files : Files) (number : UInt64) (file : File) :
    (number, file) ∈ files.toList ↔ files[number]? = some file :=
  ExtTreeMap.mem_toList_iff_getElem?_eq_some

def Listing.ascending : Listing where
  entries files := files.toList
  mem_entries := mem_toList_files

/-- Which operations on files succeed. -/
structure Io where
  opens : Bool
  writes : Bool
  renames : Bool
  removes : UInt64 → Bool

/-- How values are kept in files: the size limit, what a load accepts, and the errors of the writer. -/
structure Format (ν ε : Type) where
  limit : ℕ
  revision : ν → UInt64
  encode : ν → List UInt8
  accept : UInt64 → List UInt8 → Option ν
  revision_of_accept : ∀ {number : UInt64} {bytes : List UInt8} {value : ν},
    accept number bytes = some value → revision value = number
  tooLarge : ε
  conflict : ε
  ioError : ε

/-- Deletes all but the two newest files up to the current revision; a file that cannot be removed
stays. -/
def prune (io : Io) (currentRevision : UInt64) (files : Files) : Files :=
  let stale := ((files.keys.filter (· ≤ currentRevision)).reverse.drop 2).filter io.removes
  stale.foldl (fun files revision => files.erase revision) files

namespace Format

variable {ν ε : Type} (format : Format ν ε)

/-- The value that a load finds in an entry. -/
def candidate (entry : UInt64 × File) : Option ν :=
  (entry.2.read format.limit).bind (format.accept entry.1)

def newer (current : Option ν) (candidate : ν) : Option ν :=
  match current with
  | none => some candidate
  | some value =>
      if format.revision value < format.revision candidate then some candidate else some value

/-- The newest value that is accepted. -/
def load (listing : Listing) (files : Files) : Option ν :=
  ((listing.entries files).filterMap format.candidate).foldl format.newer none

/-- A writer that prunes after a file was added. -/
def persistOnce (occupied : File → Bool) (io : Io) (value : ν) : Fallible Files ε Unit := do
  let bytes := format.encode value
  if format.limit < bytes.length then
    Fallible.fail format.tooLarge
  else
    let files ← Fallible.get
    let existing := files[format.revision value]?
    if existing.any occupied then
      Fallible.ensure (existing.bind (File.read format.limit) = some bytes) format.conflict
    else
      Fallible.ensure (io.opens && io.writes && io.renames) format.ioError
      Fallible.set (prune io (format.revision value)
        (files.insert (format.revision value) (.regular bytes)))

/-- A writer that prunes even if the file was there before. -/
def persistAlways (occupied : File → Bool) (io : Io) (value : ν) : Fallible Files ε Unit := do
  let bytes := format.encode value
  if format.limit < bytes.length then
    Fallible.fail format.tooLarge
  else
    let files ← Fallible.get
    let existing := files[format.revision value]?
    if existing.any occupied then
      Fallible.ensure (existing.bind (File.read format.limit) = some bytes) format.conflict
      Fallible.modify (prune io (format.revision value))
    else
      Fallible.ensure (io.opens && io.writes && io.renames) format.ioError
      Fallible.set (prune io (format.revision value)
        (files.insert (format.revision value) (.regular bytes)))

/-- The newest file, which the load rejects. -/
structure Rejected (files : Files) (number : UInt64) (file : File) : Prop where
  stored : files[number]? = some file
  newest : ∀ other ∈ files, other ≤ number
  rejected : format.candidate (number, file) = none

/-- A value whose file will be accepted. -/
def Loadable (value : ν) : Prop :=
  (format.encode value).length ≤ format.limit ∧
    format.accept (format.revision value) (format.encode value) = some value

/-- The value is stored, and a later load returns it. -/
def Recovers (load : Files → Option ν) (persist : ν → Fallible Files ε Unit) (files : Files)
    (next : ν) : Prop :=
  ∃ files', (persist next).run files = (.ok (), files') ∧ load files' = some next

end Format

/-! ## Pruning -/

namespace Format

theorem getElem?_prune {files : Files} {io : Io} {number current : UInt64} {file : File}
    (h : (prune io current files)[number]? = some file) : files[number]? = some file :=
  ((Maps.getElem?_foldl_erase _ id files number file).mp h).1

/-- The largest of an ascending list is not among those that follow its two largest. -/
theorem not_mem_drop_reverse {numbers : List UInt64} {current : UInt64}
    (hsorted : numbers.Pairwise (· < ·)) (hle : ∀ number ∈ numbers, number ≤ current) :
    current ∉ numbers.reverse.drop 2 := by
  rw [← List.pairwise_reverse] at hsorted
  have hle' : ∀ number ∈ numbers.reverse, number ≤ current := by simpa using hle
  match numbers.reverse, hsorted, hle' with
  | [], _, _ => simp
  | [_], _, _ => simp
  | _ :: second :: rest, hsorted, hle =>
    intro hmem
    have hlt : current < second := List.rel_of_pairwise_cons (List.pairwise_cons.mp hsorted).2 hmem
    exact absurd (hle second (by simp)) (UInt64.not_le.mpr hlt)

theorem pairwise_keys (files : Files) : files.keys.Pairwise (· < ·) :=
  (ExtTreeMap.ordered_keys (t := files)).imp fun h => Std.compare_eq_lt.mp h

/-- The file of the current revision is kept. -/
theorem getElem?_prune_self {files : Files} {io : Io} {current : UInt64} {file : File}
    (h : files[current]? = some file) : (prune io current files)[current]? = some file := by
  refine (Maps.getElem?_foldl_erase _ id files current file).mpr ⟨h, ?_⟩
  rintro stale hstale rfl
  refine @not_mem_drop_reverse _ stale ((pairwise_keys files).filter _) ?_
    (List.mem_filter.mp hstale).1
  intro number hnumber
  exact of_decide_eq_true (List.mem_filter.mp hnumber).2

end Format

/-! ## Loading -/

namespace Format

variable {ν ε : Type} {format : Format ν ε}

theorem revision_of_candidate {number : UInt64} {file : File} {value : ν}
    (h : format.candidate (number, file) = some value) : format.revision value = number := by
  obtain ⟨bytes, -, haccept⟩ := Option.bind_eq_some_iff.mp h
  exact format.revision_of_accept haccept

/-- A fold over the candidates ends with the newest one, and at first with the one it starts from. -/
theorem foldl_newer {candidates : List ν} {current : Option ν} {value : ν}
    (h : candidates.foldl format.newer current = some value) :
    (value ∈ candidates ∨ current = some value) ∧
      (∀ other ∈ candidates, format.revision other ≤ format.revision value) ∧
        ∀ other, current = some other → format.revision other ≤ format.revision value := by
  induction candidates generalizing current with
  | nil =>
    refine ⟨.inr h, nofun, ?_⟩
    rintro other hother
    rw [List.foldl_nil, hother] at h
    cases h
    exact UInt64.le_refl _
  | cons candidate candidates ih =>
    obtain ⟨hmem, hall, hcurrent⟩ := ih h
    have hcandidate : format.revision candidate ≤ format.revision value := by
      cases current with
      | none => exact hcurrent candidate rfl
      | some first =>
        by_cases hnewer : format.revision first < format.revision candidate
        · exact hcurrent candidate (if_pos hnewer)
        · exact UInt64.le_trans (UInt64.not_lt.mp hnewer) (hcurrent first (if_neg hnewer))
    refine ⟨?_, ?_, ?_⟩
    · rcases hmem with hmem | hfirst
      · exact .inl (List.mem_cons_of_mem _ hmem)
      · cases current with
        | none => exact .inl (Option.some.inj hfirst ▸ List.mem_cons_self)
        | some first =>
          dsimp only [newer] at hfirst
          split_ifs at hfirst
          · exact .inl (Option.some.inj hfirst ▸ List.mem_cons_self)
          · exact .inr hfirst
    · intro other hother
      rcases List.mem_cons.mp hother with rfl | hother
      · exact hcandidate
      · exact hall other hother
    · rintro other rfl
      by_cases hnewer : format.revision other < format.revision candidate
      · exact UInt64.le_trans (UInt64.le_of_lt hnewer) hcandidate
      · exact hcurrent other (if_neg hnewer)

theorem foldl_newer_some {candidates : List ν} {first : ν} :
    ∃ value, candidates.foldl format.newer (some first) = some value := by
  induction candidates generalizing first with
  | nil => exact ⟨first, rfl⟩
  | cons candidate candidates ih =>
    dsimp only [List.foldl_cons, newer]
    split_ifs
    · exact ih
    · exact ih

theorem mem_candidates {listing : Listing} {files : Files} {value : ν} :
    value ∈ (listing.entries files).filterMap format.candidate ↔
      ∃ file, files[format.revision value]? = some file ∧
        format.candidate (format.revision value, file) = some value := by
  rw [List.mem_filterMap]
  constructor
  · rintro ⟨⟨number, file⟩, hentry, hcandidate⟩
    obtain rfl := revision_of_candidate hcandidate
    exact ⟨file, (listing.mem_entries _ _ _).mp hentry, hcandidate⟩
  · rintro ⟨file, hfile, hcandidate⟩
    exact ⟨_, (listing.mem_entries _ _ _).mpr hfile, hcandidate⟩

/-- If there is a candidate, a load finds something. -/
theorem exists_load {listing : Listing} {files : Files} {number : UInt64} {file : File} {value : ν}
    (hfile : files[number]? = some file) (hcandidate : format.candidate (number, file) = some value) :
    ∃ found, format.load listing files = some found := by
  obtain rfl := revision_of_candidate hcandidate
  have hmem := (@mem_candidates _ _ _ listing _ _).mpr ⟨file, hfile, hcandidate⟩
  unfold load
  cases hentries : (listing.entries files).filterMap format.candidate with
  | nil =>
    rw [hentries] at hmem
    cases hmem
  | cons first rest => exact foldl_newer_some

/-- A load finds the newest value that it accepts, whatever the order of the listing. -/
theorem load_eq_some_iff {listing : Listing} {files : Files} {value : ν} :
    format.load listing files = some value ↔
      (∃ file, files[format.revision value]? = some file ∧
        format.candidate (format.revision value, file) = some value) ∧
      ∀ number file other, files[number]? = some file →
        format.candidate (number, file) = some other →
          format.revision other ≤ format.revision value := by
  constructor
  · intro h
    obtain ⟨hvalue | hnone, hall, -⟩ := foldl_newer h
    · refine ⟨mem_candidates.mp hvalue, fun number file other hfile hcandidate => ?_⟩
      obtain rfl := revision_of_candidate hcandidate
      exact hall other (mem_candidates.mpr ⟨file, hfile, hcandidate⟩)
    · cases hnone
  · rintro ⟨hvalue, hall⟩
    obtain ⟨file', hfile', hcandidate'⟩ := hvalue
    obtain ⟨found, hfound⟩ := @exists_load _ _ _ listing _ _ _ _ hfile' hcandidate'
    obtain ⟨hstored | hnone, hnewest, -⟩ := foldl_newer hfound
    swap
    · cases hnone
    obtain ⟨file, hfile, hcandidate⟩ := mem_candidates.mp hstored
    have heq : format.revision found = format.revision value :=
      UInt64.le_antisymm (hall _ file found hfile hcandidate)
        (hnewest value (mem_candidates.mpr ⟨file', hfile', hcandidate'⟩))
    rw [heq, hfile'] at hfile
    obtain rfl := Option.some.inj hfile
    rw [heq, hcandidate'] at hcandidate
    rw [hfound, hcandidate]

theorem load_listing (listing other : Listing) (files : Files) :
    format.load listing files = format.load other files :=
  Option.ext fun _ => load_eq_some_iff.trans load_eq_some_iff.symm

end Format

/-! ## The writers -/

namespace Format

variable {ν ε : Type} (format : Format ν ε)

theorem persistOnce_run (occupied : File → Bool) (io : Io) (value : ν) (files : Files) :
    (format.persistOnce occupied io value).run files =
      if format.limit < (format.encode value).length then (.error format.tooLarge, files)
      else if files[format.revision value]?.any occupied then
        if files[format.revision value]?.bind (File.read format.limit) = some (format.encode value) then
          (.ok (), files)
        else (.error format.conflict, files)
      else if io.opens && io.writes && io.renames then
        (.ok (), prune io (format.revision value)
          (files.insert (format.revision value) (.regular (format.encode value))))
      else (.error format.ioError, files) := by
  unfold persistOnce
  dsimp only
  split_ifs with hlarge hoccupied hsame hio
  · rfl
  · rw [Fallible.run_get_bind, if_pos hoccupied, Fallible.run_ensure, if_pos hsame]
  · rw [Fallible.run_get_bind, if_pos hoccupied, Fallible.run_ensure, if_neg hsame]
  · rw [Fallible.run_get_bind, if_neg hoccupied, Fallible.run_ensure_bind, if_pos hio]
    rfl
  · rw [Fallible.run_get_bind, if_neg hoccupied, Fallible.run_ensure_bind, if_neg hio]

variable {format} {listing : Listing} {files : Files} {value : ν} {io : Io} {occupied : File → Bool}

/-- The file of a revision that is free is added. -/
theorem persistOnce_of_absent (hfits : (format.encode value).length ≤ format.limit)
    (habsent : files[format.revision value]? = none)
    (hio : (io.opens && io.writes && io.renames) = true) :
    (format.persistOnce occupied io value).run files =
      (.ok (), prune io (format.revision value)
        (files.insert (format.revision value) (.regular (format.encode value)))) := by
  rw [persistOnce_run, if_neg (Nat.not_lt.mpr hfits), habsent, if_neg (by simp), if_pos hio]

/-- A failed writer leaves the files alone. -/
theorem persistOnce_error {files' : Files} {error : ε}
    (h : (format.persistOnce occupied io value).run files = (.error error, files')) :
    files' = files := by
  rw [persistOnce_run] at h
  split_ifs at h <;> cases h <;> rfl

/-- The value that was added is the newest, so that a load finds it. -/
theorem load_prune_insert (hloadable : format.Loadable value)
    (hnewest : ∀ number file other, files[number]? = some file → format.revision value ≠ number →
      format.candidate (number, file) = some other → format.revision other ≤ format.revision value) :
    format.load listing (prune io (format.revision value)
      (files.insert (format.revision value) (.regular (format.encode value)))) = some value := by
  refine load_eq_some_iff.mpr ⟨⟨.regular (format.encode value), ?_, ?_⟩, ?_⟩
  · exact getElem?_prune_self ExtTreeMap.getElem?_insert_self
  · dsimp only [candidate, File.read]
    rw [if_pos hloadable.1]
    exact hloadable.2
  · intro number file other hfile hcandidate
    rcases Maps.getElem?_insert_eq_some.mp (getElem?_prune hfile) with ⟨rfl, -⟩ | ⟨hne, hfile⟩
    · exact UInt64.le_of_eq (revision_of_candidate hcandidate)
    · exact hnewest number file other hfile hne hcandidate

/-- A value that is newer than what a load has found is what it finds once it is stored. -/
theorem load_persistOnce {files' : Files} (hloadable : format.Loadable value)
    (hnewer : ∀ found, format.load listing files = some found →
      format.revision found < format.revision value)
    (hpersist : (format.persistOnce occupied io value).run files = (.ok (), files')) :
    format.load listing files' = some value := by
  have hall : ∀ number file other, files[number]? = some file →
      format.candidate (number, file) = some other →
        format.revision other < format.revision value := by
    intro number file other hfile hcandidate
    obtain ⟨found, hfound⟩ := @exists_load _ _ _ listing _ _ _ _ hfile hcandidate
    exact UInt64.lt_of_le_of_lt ((load_eq_some_iff.mp hfound).2 number file other hfile hcandidate)
      (hnewer found hfound)
  rw [persistOnce_run, if_neg (Nat.not_lt.mpr hloadable.1)] at hpersist
  split_ifs at hpersist with hoccupied hsame hio
  · obtain rfl := (Prod.mk.inj hpersist).2
    obtain ⟨file, hfile, hread⟩ := Option.bind_eq_some_iff.mp hsame
    have hcandidate : format.candidate (format.revision value, file) = some value := by
      rw [candidate, hread, Option.bind_some, hloadable.2]
    exact absurd (hall _ _ _ hfile hcandidate) (UInt64.lt_irrefl _)
  · cases (Prod.mk.inj hpersist).1
  · obtain rfl := (Prod.mk.inj hpersist).2
    exact load_prune_insert hloadable fun number file other hfile _ hcandidate =>
      UInt64.le_of_lt (hall number file other hfile hcandidate)
  · cases (Prod.mk.inj hpersist).1

/-! ## After a rejected file -/

variable {file : File}

/-- What is found once the file of a rejected revision is written again. -/
theorem load_prune_insert_iff (hrejected : format.Rejected files (format.revision value) file)
    (hfits : (format.encode value).length ≤ format.limit) :
    format.load listing (prune io (format.revision value)
      (files.insert (format.revision value) (.regular (format.encode value)))) = some value ↔
        format.Loadable value := by
  constructor
  · intro hload
    obtain ⟨⟨found, hfound, hcandidate⟩, -⟩ := load_eq_some_iff.mp hload
    have hwritten := getElem?_prune hfound
    rw [ExtTreeMap.getElem?_insert_self] at hwritten
    obtain rfl := Option.some.inj hwritten
    dsimp only [candidate, File.read] at hcandidate
    rw [if_pos hfits] at hcandidate
    exact ⟨hfits, hcandidate⟩
  · intro hloadable
    refine load_prune_insert hloadable fun number other found hother _ hcandidate => ?_
    rw [revision_of_candidate hcandidate]
    exact hrejected.newest number (Maps.mem_of_getElem? hother)

/-- A rejected file that is in the way does not hold the value that is to be stored. -/
theorem Rejected.ne_some (h : format.Rejected files (format.revision value) file) {files' : Files}
    (hsame : ∀ other, files'[format.revision value]? = some other → other = file) :
    format.load listing files' ≠ some value := by
  intro hload
  obtain ⟨⟨found, hfound, hcandidate⟩, -⟩ := load_eq_some_iff.mp hload
  rw [hsame found hfound, h.rejected] at hcandidate
  cases hcandidate

theorem persistOnce_recovers_iff (hrejected : format.Rejected files (format.revision value) file)
    (hio : (io.opens && io.writes && io.renames) = true) :
    Recovers (format.load listing) (format.persistOnce occupied io) files value ↔
      occupied file = false ∧ format.Loadable value := by
  unfold Recovers
  rw [persistOnce_run, hrejected.stored, Option.any_some, if_pos hio]
  by_cases hlarge : format.limit < (format.encode value).length
  · rw [if_pos hlarge]
    refine iff_of_false ?_ fun h => Nat.not_lt.mpr h.2.1 hlarge
    rintro ⟨_, hrun, -⟩
    cases hrun
  rw [if_neg hlarge]
  cases hoccupied : occupied file with
  | true =>
    rw [if_pos rfl]
    refine iff_of_false ?_ fun h => Bool.noConfusion h.1
    rintro ⟨files', hrun, hload⟩
    split_ifs at hrun
    · obtain rfl := (Prod.mk.inj hrun).2
      exact hrejected.ne_some (fun other hother =>
        Option.some.inj (hother.symm.trans hrejected.stored)) hload
    · cases (Prod.mk.inj hrun).1
  | false =>
    rw [if_neg Bool.false_ne_true]
    constructor
    · rintro ⟨files', hrun, hload⟩
      obtain rfl := (Prod.mk.inj hrun).2
      exact ⟨rfl, (load_prune_insert_iff hrejected (Nat.not_lt.mp hlarge)).mp hload⟩
    · rintro ⟨-, hloadable⟩
      exact ⟨_, rfl, (load_prune_insert_iff hrejected hloadable.1).mpr hloadable⟩

theorem persistAlways_run (occupied : File → Bool) (io : Io) (value : ν) (files : Files) :
    (format.persistAlways occupied io value).run files =
      if format.limit < (format.encode value).length then (.error format.tooLarge, files)
      else if files[format.revision value]?.any occupied then
        if files[format.revision value]?.bind (File.read format.limit) = some (format.encode value) then
          (.ok (), prune io (format.revision value) files)
        else (.error format.conflict, files)
      else if io.opens && io.writes && io.renames then
        (.ok (), prune io (format.revision value)
          (files.insert (format.revision value) (.regular (format.encode value))))
      else (.error format.ioError, files) := by
  unfold persistAlways
  dsimp only
  split_ifs with hlarge hoccupied hsame hio
  · rfl
  · rw [Fallible.run_get_bind, if_pos hoccupied, Fallible.run_ensure_bind, if_pos hsame]
    rfl
  · rw [Fallible.run_get_bind, if_pos hoccupied, Fallible.run_ensure_bind, if_neg hsame]
  · rw [Fallible.run_get_bind, if_neg hoccupied, Fallible.run_ensure_bind, if_pos hio]
    rfl
  · rw [Fallible.run_get_bind, if_neg hoccupied, Fallible.run_ensure_bind, if_neg hio]

theorem persistAlways_recovers_iff (hrejected : format.Rejected files (format.revision value) file)
    (hio : (io.opens && io.writes && io.renames) = true) :
    Recovers (format.load listing) (format.persistAlways occupied io) files value ↔
      occupied file = false ∧ format.Loadable value := by
  unfold Recovers
  rw [persistAlways_run, hrejected.stored, Option.any_some, if_pos hio]
  by_cases hlarge : format.limit < (format.encode value).length
  · rw [if_pos hlarge]
    refine iff_of_false ?_ fun h => Nat.not_lt.mpr h.2.1 hlarge
    rintro ⟨_, hrun, -⟩
    cases hrun
  rw [if_neg hlarge]
  cases hoccupied : occupied file with
  | true =>
    rw [if_pos rfl]
    refine iff_of_false ?_ fun h => Bool.noConfusion h.1
    rintro ⟨files', hrun, hload⟩
    split_ifs at hrun
    · obtain rfl := (Prod.mk.inj hrun).2
      exact hrejected.ne_some (fun other hother =>
        Option.some.inj ((getElem?_prune hother).symm.trans hrejected.stored)) hload
    · cases (Prod.mk.inj hrun).1
  | false =>
    rw [if_neg Bool.false_ne_true]
    constructor
    · rintro ⟨files', hrun, hload⟩
      obtain rfl := (Prod.mk.inj hrun).2
      exact ⟨rfl, (load_prune_insert_iff hrejected (Nat.not_lt.mp hlarge)).mp hload⟩
    · rintro ⟨-, hloadable⟩
      exact ⟨_, rfl, (load_prune_insert_iff hrejected hloadable.1).mpr hloadable⟩

end Format

end Fluvora.Snapshots

import Fluvora.MediaWorker.AssignmentState

/-!
# The text of fence files

What `serde_json` writes for the fences of a worker whose texts need no escapes, as the pieces
between the quotation marks, and a reader of such texts.  `readFences_fenceText` is the round trip,
and `length_fenceText_le` bounds the size of a file by the number of its records.
-/

open Std (ExtTreeMap)

namespace Fluvora.MediaWorker

open Domain (asBytes)
open Snapshots

/-! ## Valid records -/

/-- What the loader checks of the records. -/
def ValidRecords (records : ExtTreeMap String FenceRecord) : Prop :=
  ∀ key record, records[key]? = some record →
    isFenceKey key = true ∧ isIdentifier record.jobKey = true ∧ 0 < record.generation

theorem validFenceSnapshot_iff {snapshot : FenceSnapshot} {revision : UInt64} :
    validFenceSnapshot snapshot revision = true ↔ snapshot.revision = revision ∧
      snapshot.records.size ≤ 50000 ∧ ValidRecords snapshot.records := by
  have hall : (snapshot.records.toList.all fun entry =>
      isFenceKey entry.1 ∧ isIdentifier entry.2.jobKey ∧ 0 < entry.2.generation) = true ↔
        ValidRecords snapshot.records := by
    rw [List.all_eq_true]
    constructor
    · intro h key record hrecord
      have hentry := h (key, record) (ExtTreeMap.mem_toList_iff_getElem?_eq_some.mpr hrecord)
      exact of_decide_eq_true hentry
    · rintro h ⟨key, record⟩ hentry
      exact decide_eq_true (h key record (ExtTreeMap.mem_toList_iff_getElem?_eq_some.mp hentry))
  rw [validFenceSnapshot, decide_eq_true_eq, hall]

/-- `serde_json` reads the snapshots that it has written, as far as their texts are plain. -/
def Faithful (toVec : FenceSnapshot → List UInt8) (fromSlice : List UInt8 → Option FenceSnapshot) :
    Prop :=
  ∀ snapshot : FenceSnapshot, ValidRecords snapshot.records →
    fromSlice (toVec snapshot) = some snapshot

/-! ## Numbers and texts -/

def quote : UInt8 := 34

/-- A number in decimal. -/
def numberText (n : ℕ) : List UInt8 :=
  if n = 0 then [48] else (Nat.digits 10 n).reverse.map fun digit => .ofNat (48 + digit)

def readNumber (text : List UInt8) : Option UInt64 :=
  if text.all fun byte => 48 ≤ byte ∧ byte ≤ 57 then
    some (.ofNat (Nat.ofDigits 10 (text.map fun byte => byte.toNat - 48).reverse))
  else none

theorem mem_numberText {n : ℕ} {byte : UInt8} (h : byte ∈ numberText n) : 48 ≤ byte ∧ byte ≤ 57 := by
  unfold numberText at h
  split_ifs at h with hzero
  · simp only [List.mem_singleton] at h
    subst h
    decide
  · obtain ⟨digit, hdigit, rfl⟩ := List.mem_map.mp h
    have hlt : digit < 10 := Nat.digits_lt_base (by norm_num) (List.mem_reverse.mp hdigit)
    rw [UInt8.le_iff_toNat_le, UInt8.le_iff_toNat_le, UInt8.toNat_ofNat']
    constructor
    · show 48 ≤ _
      omega
    · show _ ≤ 57
      omega

theorem readNumber_numberText (n : UInt64) : readNumber (numberText n.toNat) = some n := by
  have hall : (numberText n.toNat).all (fun byte => 48 ≤ byte ∧ byte ≤ 57) = true :=
    List.all_eq_true.mpr fun byte hbyte => decide_eq_true (mem_numberText hbyte)
  rw [readNumber, if_pos hall]
  congr 1
  rw [← UInt64.toNat_inj, UInt64.toNat_ofNat']
  have hvalue : Nat.ofDigits 10 ((numberText n.toNat).map fun byte => byte.toNat - 48).reverse =
      n.toNat := by
    unfold numberText
    split_ifs with hzero
    · rw [hzero]
      rfl
    · rw [List.map_map, ← List.map_reverse, List.reverse_reverse]
      conv_rhs => rw [← Nat.ofDigits_digits 10 n.toNat]
      congr 1
      refine Eq.trans (List.map_congr_left fun digit hdigit => ?_) (List.map_id _)
      have hlt : digit < 10 := Nat.digits_lt_base (by norm_num) hdigit
      simp only [Function.comp_apply, UInt8.toNat_ofNat', id_eq]
      omega
  rw [hvalue, Nat.mod_eq_of_lt n.toNat_lt]

/-- A text, from its bytes. -/
def readText (bytes : List UInt8) : Option String := String.fromUTF8? ⟨bytes.toArray⟩

theorem readText_asBytes (text : String) : readText (asBytes text) = some text := by
  have hbytes : (⟨(asBytes text).toArray⟩ : ByteArray) = text.toByteArray := by
    simp [asBytes, String.toUTF8]
  rw [readText, hbytes, String.fromUTF8?, dif_pos text.isValidUTF8]
  rfl

theorem quote_not_mem_numberText (n : ℕ) : quote ∉ numberText n := by
  intro h
  exact absurd (mem_numberText h).1 (by decide)

theorem quote_not_mem_identifier {text : String} (h : isIdentifier text = true) :
    quote ∉ asBytes text := by
  intro hquote
  simp only [isIdentifier, Bool.and_eq_true, List.all_eq_true] at h
  exact absurd (h.2 quote hquote) (by decide)

theorem quote_not_mem_fenceKey {key : String} (h : isFenceKey key = true) :
    quote ∉ asBytes key := by
  simp only [isFenceKey, decide_eq_true_eq] at h
  obtain ⟨hrest, hkind, hresource⟩ := h
  have hsplit : key = String.ofList (key.toList.takeWhile (· ≠ ':')) ++
      String.ofList (key.toList.dropWhile (· ≠ ':')) := by
    rw [← String.ofList_append, List.takeWhile_append_dropWhile, String.ofList_toList]
  obtain ⟨colon, resource, hdrop⟩ := List.exists_cons_of_ne_nil hrest
  have hcolon : colon = ':' := by
    have hhead := List.head?_dropWhile_not (fun c => decide (c ≠ ':')) key.toList
    rw [hdrop] at hhead
    simpa using hhead
  rw [hdrop, List.drop_one, List.tail_cons] at hresource
  have happend (a b : String) : asBytes (a ++ b) = asBytes a ++ asBytes b := by
    simp [asBytes, String.toUTF8]
  have hcons : String.ofList (':' :: resource) = ":" ++ String.ofList resource := by
    rw [← String.toList_inj]
    simp
  rw [hsplit, hdrop, hcolon, hcons, happend, happend, List.mem_append, List.mem_append]
  rintro (hquote | hquote | hquote)
  · rcases hkind with h | h | h <;> rw [h] at hquote <;> exact absurd hquote (by decide)
  · exact absurd hquote (by decide)
  · exact quote_not_mem_identifier hresource hquote

/-! ## Snapshots -/

/-- The pieces of a record between quotation marks, up to the mark of the next one. -/
def recordPieces (last : Bool) (entry : String × FenceRecord) : List (List UInt8) :=
  [asBytes entry.1, asBytes ":\x7b", asBytes "generation",
    asBytes ":" ++ numberText entry.2.generation.toNat ++ asBytes ",", asBytes "job_key",
    asBytes ":", asBytes entry.2.jobKey, if last then asBytes "\x7d\x7d\x7d" else asBytes "\x7d,"]

def entryPieces : List (String × FenceRecord) → List (List UInt8)
  | [] => []
  | [entry] => recordPieces true entry
  | entry :: entries => recordPieces false entry ++ entryPieces entries

def fencePieces (snapshot : FenceSnapshot) : List (List UInt8) :=
  [asBytes "\x7b", asBytes "revision",
    asBytes ":" ++ numberText snapshot.revision.toNat ++ asBytes ",", asBytes "records",
    if snapshot.records.toList = [] then asBytes ":\x7b\x7d\x7d" else asBytes ":\x7b"] ++
    entryPieces snapshot.records.toList

/-- `serde_json::to_vec` on fences. -/
def fenceText (snapshot : FenceSnapshot) : List UInt8 :=
  [quote].intercalate (fencePieces snapshot)

/-- The number between a colon and a comma. -/
def readField (piece : List UInt8) : Option UInt64 :=
  if piece.head? = some 58 ∧ piece.getLast? = some 44 then readNumber piece.tail.dropLast else none

def readEntries : List (List UInt8) → Option (List (String × FenceRecord))
  | key :: colon :: generation :: number :: jobKey :: colon' :: job :: close :: rest => do
      let record : FenceRecord := ⟨← readField number, ← readText job⟩
      let entry := (← readText key, record)
      if colon = asBytes ":\x7b" ∧ generation = asBytes "generation" ∧ jobKey = asBytes "job_key" ∧
          colon' = asBytes ":" then
        if rest = [] then if close = asBytes "\x7d\x7d\x7d" then some [entry] else none
        else if close = asBytes "\x7d," then (readEntries rest).map (entry :: ·) else none
      else none
  | _ => none

/-- A reader of the text that `fenceText` writes. -/
def readFences (text : List UInt8) : Option FenceSnapshot :=
  match text.splitOn quote with
  | brace :: revision :: number :: records :: opening :: rest => do
      let revision' ← readField number
      if brace = asBytes "\x7b" ∧ revision = asBytes "revision" ∧ records = asBytes "records" then
        if rest = [] then
          if opening = asBytes ":\x7b\x7d\x7d" then some ⟨revision', ∅⟩ else none
        else if opening = asBytes ":\x7b" then
          (readEntries rest).map fun entries =>
            ⟨revision', entries.foldl (fun records entry => records.insert entry.1 entry.2) ∅⟩
        else none
      else none
  | _ => none

/-! ## Round trip -/

theorem readField_number (n : UInt64) :
    readField (asBytes ":" ++ numberText n.toNat ++ asBytes ",") = some n := by
  have hcolon : asBytes ":" = [58] := by decide
  have hcomma : asBytes "," = [44] := by decide
  rw [readField, hcolon, hcomma, if_pos ⟨rfl, List.getLast?_concat⟩]
  rw [List.singleton_append, List.cons_append, List.tail_cons, List.dropLast_concat,
    readNumber_numberText]

theorem readEntries_recordPieces (last : Bool) (entry : String × FenceRecord)
    (rest : List (List UInt8)) (hrest : last = true ↔ rest = []) :
    readEntries (recordPieces last entry ++ rest) =
      if last then some [entry] else (readEntries rest).map (entry :: ·) := by
  show readEntries (_ :: _ :: _ :: _ :: _ :: _ :: _ :: _ :: rest) = _
  rw [readEntries]
  simp only [readField_number, readText_asBytes, Option.bind_eq_bind, Option.bind_some, and_self,
    if_true]
  cases last with
  | true => simp [hrest.mp rfl]
  | false =>
    have hne : rest ≠ [] := fun h => by simpa using hrest.mpr h
    simp [hne]

theorem readEntries_entryPieces {entries : List (String × FenceRecord)} (h : entries ≠ []) :
    readEntries (entryPieces entries) = some entries := by
  induction entries with
  | nil => exact absurd rfl h
  | cons entry entries ih =>
    cases entries with
    | nil =>
      rw [entryPieces, ← List.append_nil (recordPieces true entry), readEntries_recordPieces true]
      · rfl
      · simp
    | cons next entries =>
      have hne : entryPieces (next :: entries) ≠ [] := by
        cases entries <;> simp [entryPieces, recordPieces]
      rw [entryPieces, readEntries_recordPieces false, ih (by simp)]
      · rfl
      · simp [hne]
      · simp

theorem quote_not_mem_field (n : ℕ) : quote ∉ asBytes ":" ++ numberText n ++ asBytes "," := by
  rw [List.mem_append, List.mem_append]
  rintro ((hquote | hquote) | hquote)
  · exact absurd hquote (by decide)
  · exact quote_not_mem_numberText _ hquote
  · exact absurd hquote (by decide)

theorem quote_not_mem_recordPieces (last : Bool) {entry : String × FenceRecord}
    (h : quote ∉ asBytes entry.1 ∧ quote ∉ asBytes entry.2.jobKey) :
    ∀ piece ∈ recordPieces last entry, quote ∉ piece := by
  simp only [recordPieces, List.forall_mem_cons]
  refine ⟨h.1, by decide, by decide, quote_not_mem_field _, by decide, by decide, h.2, ?_, by simp⟩
  cases last <;> decide

theorem quote_not_mem_entryPieces {entries : List (String × FenceRecord)}
    (h : ∀ entry ∈ entries, quote ∉ asBytes entry.1 ∧ quote ∉ asBytes entry.2.jobKey) :
    ∀ piece ∈ entryPieces entries, quote ∉ piece := by
  induction entries with
  | nil => simp [entryPieces]
  | cons entry entries ih =>
    rw [List.forall_mem_cons] at h
    cases entries with
    | nil => exact quote_not_mem_recordPieces true h.1
    | cons next entries =>
      intro piece hpiece
      rw [entryPieces, List.mem_append] at hpiece
      rcases hpiece with hpiece | hpiece
      · exact quote_not_mem_recordPieces false h.1 piece hpiece
      · exact ih h.2 piece hpiece
      · simp

/-- The entries of a map, inserted one after the other, make the map again. -/
theorem foldl_insert_toList (records : ExtTreeMap String FenceRecord) :
    records.toList.foldl (fun records entry => records.insert entry.1 entry.2) ∅ = records := by
  have hnodup : (records.toList.map Prod.fst).Nodup := by
    rw [ExtTreeMap.map_fst_toList_eq_keys]
    exact Maps.nodup_keys records
  refine ExtTreeMap.ext_getElem? fun {key} => Option.ext fun record => ?_
  rw [Maps.getElem?_foldl_insert Prod.snd hnodup]
  constructor
  · rintro (⟨entry, hentry, rfl, rfl⟩ | ⟨hnone, -⟩)
    · exact ExtTreeMap.mem_toList_iff_getElem?_eq_some.mp hentry
    · simp at hnone
  · intro hrecord
    exact .inl ⟨(key, record), ExtTreeMap.mem_toList_iff_getElem?_eq_some.mpr hrecord, rfl, rfl⟩

theorem readFences_fenceText : Faithful fenceText readFences := by
  intro snapshot hvalid
  have hplain : ∀ piece ∈ fencePieces snapshot, quote ∉ piece := by
    have hentries : ∀ entry ∈ snapshot.records.toList,
        quote ∉ asBytes entry.1 ∧ quote ∉ asBytes entry.2.jobKey := by
      intro entry hentry
      obtain ⟨hkey, hjob, -⟩ := hvalid entry.1 entry.2
        (ExtTreeMap.mem_toList_iff_getElem?_eq_some.mp hentry)
      exact ⟨quote_not_mem_fenceKey hkey, quote_not_mem_identifier hjob⟩
    simp only [fencePieces, List.forall_mem_append, List.forall_mem_cons]
    refine ⟨⟨by decide, by decide, quote_not_mem_field _, by decide, ?_, by simp⟩,
      quote_not_mem_entryPieces hentries⟩
    split_ifs <;> decide
  rw [readFences, fenceText, List.splitOn_intercalate quote hplain (by simp [fencePieces])]
  simp only [fencePieces, List.cons_append, List.nil_append, readField_number,
    Option.bind_eq_bind, Option.bind_some, and_self, if_true]
  by_cases hempty : snapshot.records.toList = []
  · have hrecords : snapshot.records = ∅ := by
      rw [← foldl_insert_toList snapshot.records, hempty]
      rfl
    simp only [hempty, entryPieces, if_true]
    rw [← hrecords]
  · have hpieces : entryPieces snapshot.records.toList ≠ [] := by
      intro hnil
      have hread := readEntries_entryPieces hempty
      rw [hnil] at hread
      cases hread
    simp only [if_neg hempty, if_neg hpieces, if_true, readEntries_entryPieces hempty,
      Option.map_some, foldl_insert_toList]

/-! ## Size -/

theorem length_numberText_le (n : UInt64) : (numberText n.toNat).length ≤ 20 := by
  unfold numberText
  split_ifs
  · simp
  · rw [List.length_map, List.length_reverse, Nat.digits_length_le_iff (by norm_num)]
    exact n.toNat_lt.trans (by norm_num)

theorem length_intercalate_le (separator : UInt8) (pieces : List (List UInt8)) :
    ([separator].intercalate pieces).length ≤ (pieces.map fun piece => piece.length + 1).sum := by
  induction pieces with
  | nil => simp
  | cons piece pieces ih =>
    cases pieces with
    | nil => simp
    | cons next pieces =>
      rw [List.intercalate_cons_cons, List.length_append, List.length_append, List.map_cons,
        List.sum_cons]
      simp only [List.length_singleton]
      omega

theorem sum_recordPieces_le (last : Bool) (entry : String × FenceRecord) :
    ((recordPieces last entry).map fun piece => piece.length + 1).sum ≤
      (asBytes entry.1).length + (asBytes entry.2.jobKey).length + 60 := by
  have hconstants : (asBytes ":\x7b").length = 2 ∧ (asBytes "generation").length = 10 ∧
      (asBytes ":").length = 1 ∧ (asBytes ",").length = 1 ∧ (asBytes "job_key").length = 7 := by
    decide
  have hclose : (if last then asBytes "\x7d\x7d\x7d" else asBytes "\x7d,").length ≤ 3 := by
    cases last <;> decide
  have hnumber := length_numberText_le entry.2.generation
  obtain ⟨h1, h2, h3, h4, h5⟩ := hconstants
  simp only [recordPieces, List.map_cons, List.map_nil, List.sum_cons, List.sum_nil,
    List.length_append, h1, h2, h3, h4, h5]
  omega

theorem sum_entryPieces_le {entries : List (String × FenceRecord)} {size : ℕ}
    (h : ∀ entry ∈ entries, (asBytes entry.1).length + (asBytes entry.2.jobKey).length ≤ size) :
    ((entryPieces entries).map fun piece => piece.length + 1).sum ≤
      entries.length * (size + 60) := by
  induction entries with
  | nil => simp [entryPieces]
  | cons entry entries ih =>
    rw [List.forall_mem_cons] at h
    rw [List.length_cons, Nat.succ_mul]
    cases entries with
    | nil =>
      have hrecord := sum_recordPieces_le true entry
      rw [entryPieces]
      omega
    | cons next entries =>
      have hrecord := sum_recordPieces_le false entry
      have hrest := ih h.2
      rw [entryPieces, List.map_append, List.sum_append]
      · omega
      · simp

/-- A file of fences is not longer than its records are together. -/
theorem length_fenceText_le {snapshot : FenceSnapshot} {size : ℕ}
    (h : ∀ key record, snapshot.records[key]? = some record →
      (asBytes key).length + (asBytes record.jobKey).length ≤ size) :
    (fenceText snapshot).length ≤ 64 + snapshot.records.size * (size + 60) := by
  have hentries := @sum_entryPieces_le snapshot.records.toList size fun entry hentry =>
    h entry.1 entry.2 (ExtTreeMap.mem_toList_iff_getElem?_eq_some.mp hentry)
  rw [ExtTreeMap.length_toList] at hentries
  have hconstants : (asBytes "\x7b").length = 1 ∧ (asBytes "revision").length = 8 ∧
      (asBytes ":").length = 1 ∧ (asBytes ",").length = 1 ∧ (asBytes "records").length = 7 := by
    decide
  have hopening : (if snapshot.records.toList = [] then asBytes ":\x7b\x7d\x7d"
      else asBytes ":\x7b").length ≤ 4 := by
    split_ifs <;> decide
  have hnumber := length_numberText_le snapshot.revision
  obtain ⟨h1, h2, h3, h4, h5⟩ := hconstants
  refine (length_intercalate_le _ _).trans ?_
  simp only [fencePieces, List.map_append, List.map_cons, List.map_nil, List.sum_append,
    List.sum_cons, List.sum_nil, List.length_append, h1, h2, h3, h4, h5]
  omega

end Fluvora.MediaWorker

import Fluvora.Lib.Results
import Fluvora.MediaCodec.Descriptors

/-!
# What payload inspection makes of descriptors

A descriptor is followed when the inspection accepts it in front of coded data, with its values, and
refuses whatever ends inside it.  The reserved bits that the inspection looks at decide
(`payload_formats_followed_iff`): one of a VP8 descriptor, and those of the pictures of a VP9 picture
group, whose difference counts it does not look at.
-/

namespace Fluvora.MediaCodec

open Results Scans

/-- In front of coded data the descriptor is accepted with its values, and a part of it is refused. -/
def Follows (codec : Codec) (marker : Bool) (descriptor : Bytes) (info : UInt8 → PayloadInfo) : Prop :=
  (∀ first coded, inspectPayload codec (descriptor ++ first :: coded) marker = .ok (info first)) ∧
    ∀ part, part <+: descriptor → part ≠ [] → part ≠ descriptor →
      inspectPayload codec part marker = .error .truncatedDescriptor

/-! ## Reading one field -/

theorem ite_bind {ε α β : Type} {p : Prop} [Decidable p] (x y : Except ε α) (f : α → Except ε β) :
    (if p then x else y) >>= f = if p then x >>= f else y >>= f := by
  split_ifs <;> rfl

theorem readByte_at (before : Bytes) (byte : UInt8) (behind : Bytes) :
    readByte (before ++ byte :: behind) before.length = .ok byte := by
  rw [readByte, List.getElem?_append_right le_rfl, Nat.sub_self, List.getElem?_cons_zero]
  rfl

theorem requirePosition_of_lt {payload : Bytes} {position : ℕ} (h : position < payload.length) :
    requirePosition payload position = .ok () := if_pos h

theorem firstByte_cons (byte : UInt8) (rest : Bytes) : firstByte (byte :: rest) = .ok byte := rfl

theorem skipPictureId_at (before : Bytes) (id : PictureId) {behind : Bytes} (hbehind : behind ≠ []) :
    skipPictureId (before ++ (id.bytes ++ behind)) before.length =
      .ok (before.length + id.bytes.length) := by
  have hlength := List.length_pos_of_ne_nil hbehind
  cases id with
  | short value =>
    rw [skipPictureId, PictureId.bytes, List.cons_append, readByte_at]
    have hclear : ¬octet (flag false ++ value) &&& 0x80 ≠ 0 := by simp [octet_first]
    simp only [bind_ok, if_neg hclear]
    rw [requirePosition_of_lt (by simp; omega)]
    rfl
  | long high low =>
    rw [skipPictureId, PictureId.bytes, List.cons_append, readByte_at]
    have hset : octet (flag true ++ high) &&& 0x80 ≠ 0 := by simp [octet_first]
    simp only [bind_ok, if_pos hset]
    rw [requirePosition_of_lt (by simp; omega)]
    rfl

theorem skipByte_of_lt {payload : Bytes} {position : ℕ} (h : position + 1 < payload.length) :
    skipByte payload position = .ok (position + 1) := by
  rw [skipByte, requirePosition_of_lt h]
  rfl

/-- Optional parts that are not there take no bytes. -/
theorem skipPictureId_optional (before : Bytes) (id : Option PictureId) {behind payload : Bytes}
    (hbehind : behind ≠ []) (hpayload : payload = before ++ (id.elim [] PictureId.bytes ++ behind)) :
    (if id.isSome then skipPictureId payload before.length else .ok before.length) =
      .ok (before.length + (id.elim [] PictureId.bytes).length) := by
  rw [hpayload]
  cases id with
  | none => rfl
  | some id => exact skipPictureId_at before id hbehind

theorem readByte_scan (position : ℕ) :
    Scan PayloadError.truncatedDescriptor position (fun _ => position + 1)
      (fun payload => readByte payload position) :=
  Scan.element position

theorem requirePosition_scan {start : ℕ} (position : ℕ) :
    Scan PayloadError.truncatedDescriptor start (fun _ => position)
      (fun payload => requirePosition payload position) :=
  Scan.inside position

theorem skipPictureId_scan (position : ℕ) :
    Scan PayloadError.truncatedDescriptor position id
      (fun payload => skipPictureId payload position) :=
  (readByte_scan position).bind fun _ => (requirePosition_scan _).bind fun _ => Scan.pure rfl

theorem skipByte_scan (position : ℕ) :
    Scan PayloadError.truncatedDescriptor position id (fun payload => skipByte payload position) :=
  (requirePosition_scan _).bind fun _ => Scan.pure rfl

/-! ## VP8 -/

theorem readVp8Layer_scan (extension : UInt8) (position : ℕ) :
    Scan PayloadError.truncatedDescriptor position Prod.snd
      (fun payload => readVp8Layer payload extension position) :=
  (readByte_scan position).bind fun _ => Scan.pure rfl

theorem parseVp8Extension_eq (payload : Bytes) :
    parseVp8Extension payload = readByte payload 1 >>= fun extension =>
      (if extension &&& 0x80 ≠ 0 then skipPictureId payload 2 else .ok 2) >>= fun position =>
        (if extension &&& 0x40 ≠ 0 then skipByte payload position else .ok position) >>= fun position =>
          if extension &&& 0x30 ≠ 0 then readVp8Layer payload extension position
          else .ok (none, position) := by
  simp only [parseVp8Extension, ite_bind, bind_ok]

theorem parseVp8Extension_scan :
    Scan PayloadError.truncatedDescriptor 1 Prod.snd parseVp8Extension := by
  rw [funext parseVp8Extension_eq]
  refine (readByte_scan 1).bind fun extension => ?_
  refine Scan.bind (Scan.ite (skipPictureId_scan 2) (Scan.pure rfl)) fun position => ?_
  refine Scan.bind (Scan.ite (skipByte_scan _) (Scan.pure rfl)) fun position => ?_
  exact Scan.ite (readVp8Layer_scan extension _) (Scan.pure rfl)

/-- An extension in front of more bytes is read. -/
theorem parseVp8Extension_at (header : UInt8) (e : Vp8Extension) {behind : Bytes}
    (hbehind : behind ≠ []) :
    parseVp8Extension (header :: (e.bytes ++ behind)) =
      .ok (if e.hasTid then some (field e.tid) else none, 1 + e.bytes.length) := by
  obtain ⟨hid, htl0, htid, hlayer⟩ := octet_extension e.pictureId.isSome e.tl0PicIdx.isSome e.hasTid
    e.hasKeyIdx e.reserved
  rw [← Vp8Extension.header] at hid htl0 htid hlayer
  generalize hpayload : header :: (e.bytes ++ behind) = payload
  have hheader : readByte payload 1 = .ok e.header := by
    rw [← hpayload]
    exact readByte_at [header] e.header _
  have hidRead : (if e.header &&& 0x80 ≠ 0 then skipPictureId payload 2 else .ok 2) =
      .ok (2 + (e.pictureId.elim [] PictureId.bytes).length) := by
    simp only [hid]
    refine skipPictureId_optional [header, e.header] e.pictureId
      (List.append_ne_nil_of_right_ne_nil (e.tl0PicIdx.toList ++ e.layerBytes) hbehind) ?_
    simp [← hpayload, Vp8Extension.bytes]
  have hlength : payload.length = 2 + (e.pictureId.elim [] PictureId.bytes).length +
      e.tl0PicIdx.toList.length + e.layerBytes.length + behind.length := by
    rw [← hpayload]
    simp [Vp8Extension.bytes]
    omega
  have hpositive := List.length_pos_of_ne_nil hbehind
  have htl0Read : (if e.header &&& 0x40 ≠ 0 then
      skipByte payload (2 + (e.pictureId.elim [] PictureId.bytes).length)
      else .ok (2 + (e.pictureId.elim [] PictureId.bytes).length)) =
      .ok (2 + (e.pictureId.elim [] PictureId.bytes).length + e.tl0PicIdx.toList.length) := by
    simp only [htl0]
    cases htl0PicIdx : e.tl0PicIdx with
    | none => rfl
    | some tl0PicIdx =>
      rw [htl0PicIdx, Option.toList_some, List.length_singleton] at hlength
      rw [if_pos Option.isSome_some, skipByte_of_lt (by omega)]
      rfl
  rw [parseVp8Extension_eq, hheader, bind_ok, hidRead, bind_ok, htl0Read, bind_ok]
  simp only [hlayer]
  have hend : (e.bytes).length = 1 + (e.pictureId.elim [] PictureId.bytes).length +
      e.tl0PicIdx.toList.length + e.layerBytes.length := by
    simp [Vp8Extension.bytes]
    omega
  rw [hend]
  cases hused : e.hasTid || e.hasKeyIdx with
  | false =>
    have hnone : e.hasTid = false := (Bool.or_eq_false_iff.mp hused).1
    have hempty : e.layerBytes = [] := by rw [Vp8Extension.layerBytes, hused]; rfl
    simp [hempty, hnone]
    omega
  | true =>
    have hone : e.layerBytes = [e.layer] := by rw [Vp8Extension.layerBytes, hused]; rfl
    have hread : readByte payload (2 + (e.pictureId.elim [] PictureId.bytes).length +
        e.tl0PicIdx.toList.length) = .ok e.layer := by
      have hat := readByte_at ([header, e.header] ++ e.pictureId.elim [] PictureId.bytes ++
        e.tl0PicIdx.toList) e.layer behind
      rw [← hpayload]
      convert hat using 2
      · simp [Vp8Extension.bytes, hone]
      · simp
        omega
    rw [if_pos rfl, readVp8Layer, hread, bind_ok, hone, Vp8Extension.layer, octet_vp8_layer]
    simp only [htid, List.length_singleton]
    refine congrArg Except.ok (Prod.ext rfl ?_)
    dsimp only
    omega

theorem inspectVp8_cons (header : UInt8) (rest : Bytes) (marker : Bool) :
    inspectVp8 (header :: rest) marker =
      (if header &&& 0x80 ≠ 0 then parseVp8Extension (header :: rest) else .ok (none, 1)) >>= fun read =>
        readVp8Keyframe (header :: rest) (header &&& 0x10 != 0 && header &&& 0x0f == 0) read.2 >>=
          fun keyframe => .ok ⟨header &&& 0x10 != 0 && header &&& 0x0f == 0, marker, keyframe, read.1,
            none⟩ := by
  simp only [inspectVp8, firstByte_cons, ite_bind, bind_ok]
  rfl

/-- What the inspection reads in front of coded data. -/
theorem inspectVp8_at (d : Vp8Descriptor) (marker : Bool) (first : UInt8) (coded : Bytes) :
    inspectVp8 (d.bytes ++ first :: coded) marker = .ok {
      startOfFrame := d.begins && !d.reservedLow
      endOfFrame := marker
      keyframe := d.begins && !d.reservedLow && first &&& 0x01 == 0
      temporalId := (d.info marker first).temporalId
      spatialId := none } := by
  obtain ⟨hextended, hstart, hpartition⟩ := octet_vp8 d.extension.isSome d.reservedHigh d.nonReference
    d.start d.reservedLow d.partition
  rw [← Vp8Descriptor.header] at hextended hstart hpartition
  have hread : (if d.header &&& 0x80 ≠ 0 then parseVp8Extension (d.bytes ++ first :: coded)
      else .ok (none, 1)) = .ok ((d.info marker first).temporalId, d.bytes.length) := by
    simp only [hextended, Vp8Descriptor.info, Vp8Descriptor.bytes]
    cases d.extension with
    | none => rfl
    | some e =>
      rw [if_pos Option.isSome_some, Option.elim_some, List.cons_append,
        parseVp8Extension_at d.header e (List.cons_ne_nil first coded), List.length_cons,
        Nat.add_comm 1]
      rfl
  have hbegins : (d.header &&& 0x10 != 0 && d.header &&& 0x0f == 0) = (d.begins && !d.reservedLow) := by
    rw [hstart, hpartition, Vp8Descriptor.begins, Bool.and_assoc, Bool.and_comm (!d.reservedLow)]
  have hcons : d.bytes ++ first :: coded =
      d.header :: (d.extension.elim [] Vp8Extension.bytes ++ first :: coded) := rfl
  rw [hcons, inspectVp8_cons, ← hcons, hread, bind_ok, hbegins]
  have hcoded : readByte (d.bytes ++ first :: coded) d.bytes.length = .ok first :=
    readByte_at d.bytes first coded
  rw [readVp8Keyframe, hcoded]
  cases d.begins && !d.reservedLow <;> rfl

theorem length_lt_of_front {front descriptor : Bytes} (hpart : front <+: descriptor)
    (hne : front ≠ descriptor) : front.length < descriptor.length := by
  have hle := hpart.length_le
  have hlength : front.length ≠ descriptor.length := fun heq => hne (hpart.eq_of_length heq)
  omega

/-- What ends inside a descriptor is refused. -/
theorem inspectVp8_front (d : Vp8Descriptor) (marker : Bool) {front : Bytes} (hpart : front <+: d.bytes)
    (hsome : front ≠ []) (hne : front ≠ d.bytes) :
    inspectVp8 front marker = .error .truncatedDescriptor := by
  have hlt := length_lt_of_front hpart hne
  obtain ⟨header, rest, rfl⟩ := List.exists_cons_of_ne_nil hsome
  obtain ⟨hextended, -, -⟩ := octet_vp8 d.extension.isSome d.reservedHigh d.nonReference d.start
    d.reservedLow d.partition
  rw [← Vp8Descriptor.header] at hextended
  have hheader : header = d.header := (List.cons_prefix_cons.mp hpart).1
  cases hext : d.extension with
  | none =>
    rw [Vp8Descriptor.bytes, hext] at hlt
    simp at hlt
  | some e =>
    rw [hext] at hextended
    have hread := parseVp8Extension_at d.header e (List.cons_ne_nil 0 [])
    have hbytes : d.bytes = d.header :: e.bytes := by rw [Vp8Descriptor.bytes, hext]; rfl
    rw [hbytes] at hpart hlt
    have hfront : header :: rest <+: d.header :: (e.bytes ++ [0]) :=
      hpart.trans (List.prefix_append (d.header :: e.bytes) [0])
    rw [inspectVp8_cons, hheader, if_pos (hextended.mpr Option.isSome_some), ← hheader,
      parseVp8Extension_scan.error_of_front hfront (by simp) (by simp at hlt ⊢; omega) hread]
    rfl

/-- The inspection looks at the bit in front of the partition index. -/
theorem vp8_follows_iff (d : Vp8Descriptor) (marker : Bool) :
    Follows .vp8 marker d.bytes (d.info marker) ↔ d.ReservedClear := by
  constructor
  · rintro ⟨haccepted, -⟩ hbegins
    have hinfo := haccepted 0 []
    rw [inspectPayload, inspectVp8_at, Except.ok.injEq] at hinfo
    have hstart := congrArg PayloadInfo.startOfFrame hinfo
    rw [Vp8Descriptor.info, hbegins] at hstart
    simpa using hstart
  · intro hclear
    have hsame : (d.begins && !d.reservedLow) = d.begins := by
      cases hbegins : d.begins with
      | false => rfl
      | true => rw [hclear hbegins]; rfl
    refine ⟨fun first coded => ?_, fun part => inspectVp8_front d marker⟩
    rw [inspectPayload, inspectVp8_at, hsame]
    rfl

/-! ## VP9 -/

theorem skipGroups_eq_ok {payload : Bytes} {groups position stop : ℕ} :
    skipGroups payload groups position = .ok stop ↔
      ∃ last, groupsEnd groups (payload.drop position) = some last ∧ stop = position + last ∧
        (groups ≠ 0 → stop < payload.length) := by
  induction groups generalizing position with
  | zero =>
    simp [skipGroups, groupsEnd, itemsEnd, eq_comm]
  | succ groups ih =>
    rw [skipGroups, readByte]
    cases hbyte : payload[position]? with
    | none =>
      have hdrop : payload.drop position = [] := by simpa using hbyte
      constructor
      · intro h
        cases h
      · rintro ⟨last, hlast, -⟩
        rw [hdrop] at hlast
        cases hlast
    | some group =>
      obtain ⟨hlt, hat⟩ := List.getElem?_eq_some_iff.mp hbyte
      have hdrop : payload.drop position = group :: payload.drop (position + 1) := by
        rw [List.drop_eq_getElem_cons hlt, hat]
      have hgroups : groupsEnd (groups + 1) (payload.drop position) =
          (groupsEnd groups (payload.drop (position + 1 + (group &&& 0x03).toNat))).map
            (· + 1 + (group &&& 0x03).toNat) := by
        rw [hdrop, groupsEnd, itemsEnd, List.drop_drop]
        rfl
      rw [Option.elim_some, bind_ok, hgroups]
      dsimp only
      by_cases hinside : position + 1 + (group &&& 0x03).toNat < payload.length
      · rw [requirePosition_of_lt hinside, bind_ok, ih]
        simp only [Option.map_eq_some_iff]
        constructor
        · rintro ⟨last, hlast, rfl, hstop⟩
          refine ⟨_, ⟨last, hlast, rfl⟩, by omega, fun _ => ?_⟩
          cases groups with
          | zero =>
            cases hlast
            exact hinside
          | succ groups => exact hstop (Nat.succ_ne_zero groups)
        · rintro ⟨_, ⟨last, hlast, rfl⟩, rfl, hstop⟩
          exact ⟨last, hlast, by omega, fun _ => hstop (Nat.succ_ne_zero groups)⟩
      · rw [requirePosition, if_neg hinside, bind_error]
        constructor
        · intro h
          cases h
        · rintro ⟨last, hlast, rfl, hstop⟩
          obtain ⟨more, -, rfl⟩ := Option.map_eq_some_iff.mp hlast
          have := hstop (Nat.succ_ne_zero groups)
          omega

theorem skipGroups_scan (groups position : ℕ) :
    Scan PayloadError.truncatedDescriptor position id
      (fun payload => skipGroups payload groups position) := by
  induction groups generalizing position with
  | zero => exact Scan.pure rfl
  | succ groups ih => exact (readByte_scan position).bind fun _ =>
      (requirePosition_scan _).bind fun _ => ih _

theorem skipReferences_le {bytes : Bytes} {position stop : ℕ}
    (h : skipReferences bytes position = .ok stop) : stop ≤ position + bytes.length := by
  induction bytes generalizing position with
  | nil => cases h
  | cons reference rest ih =>
    rw [skipReferences] at h
    rw [List.length_cons]
    split_ifs at h with hlast
    · cases h
      omega
    · have := ih h
      omega

theorem skipReferences_append {bytes : Bytes} {position stop : ℕ}
    (h : skipReferences bytes position = .ok stop) (behind : Bytes) :
    skipReferences (bytes ++ behind) position = .ok stop := by
  induction bytes generalizing position with
  | nil => cases h
  | cons reference rest ih =>
    rw [skipReferences] at h
    rw [List.cons_append, skipReferences]
    split_ifs at h with hlast
    · rw [if_pos hlast, h]
    · rw [if_neg hlast, ih h]

theorem skipReferences_error {bytes : Bytes} {position : ℕ} {e : PayloadError}
    (h : skipReferences bytes position = .error e) : e = .truncatedDescriptor := by
  induction bytes generalizing position with
  | nil =>
    cases h
    rfl
  | cons reference rest ih =>
    rw [skipReferences] at h
    split_ifs at h with hlast
    exact ih h

theorem skipReferences_scan (position : ℕ) :
    Scan PayloadError.truncatedDescriptor position id
      (fun payload => skipReferences (payload.drop position) position) where
  within := by
    intro payload stop hstart h
    have hle := skipReferences_le h
    rw [List.length_drop] at hle
    dsimp only [id]
    omega
  extend := by
    rintro front _ stop ⟨behind, rfl⟩ h
    by_cases hposition : position ≤ front.length
    · rw [List.drop_append_of_le_length hposition]
      exact skipReferences_append h behind
    · rw [List.drop_of_length_le (by omega)] at h
      cases h
  error := skipReferences_error

theorem parseVp9ScalabilityStructure_eq (payload : Bytes) (position : ℕ) :
    parseVp9ScalabilityStructure payload position = readByte payload position >>= fun header =>
      (if header &&& 0x10 ≠ 0 then
        skipResolutions payload ((header >>> 5).toNat + 1) (position + 1)
      else .ok (position + 1)) >>= fun position =>
        if header &&& 0x08 ≠ 0 then skipGroupList payload position else .ok position := by
  simp only [parseVp9ScalabilityStructure, ite_bind, bind_ok]

theorem skipResolutions_scan (spatialLayers position : ℕ) :
    Scan PayloadError.truncatedDescriptor position id
      (fun payload => skipResolutions payload spatialLayers position) :=
  (requirePosition_scan _).bind fun _ => Scan.pure rfl

theorem skipGroupList_scan (position : ℕ) :
    Scan PayloadError.truncatedDescriptor position id (fun payload => skipGroupList payload position) :=
  (readByte_scan position).bind fun _ => skipGroups_scan _ _

theorem parseVp9ScalabilityStructure_scan (position : ℕ) :
    Scan PayloadError.truncatedDescriptor position id
      (fun payload => parseVp9ScalabilityStructure payload position) := by
  simp only [parseVp9ScalabilityStructure_eq]
  refine (readByte_scan position).bind fun header => ?_
  refine Scan.bind (Scan.ite (skipResolutions_scan _ _) (Scan.pure rfl)) fun position => ?_
  exact Scan.ite (skipGroupList_scan position) (Scan.pure rfl)

theorem readVp9Layer_scan (flexible : Bool) (position : ℕ) :
    Scan PayloadError.truncatedDescriptor position (fun read => read.2.2)
      (fun payload => readVp9Layer payload flexible position) := by
  have heq : ∀ payload, readVp9Layer payload flexible position = readByte payload position >>=
      fun layer => (if flexible then .ok (position + 1) else skipByte payload (position + 1)) >>=
        fun position => .ok (some (layer >>> 5), some (layer >>> 1 &&& 0x07), position) := by
    intro payload
    unfold readVp9Layer
    cases flexible <;> rfl
  rw [funext heq]
  refine (readByte_scan position).bind fun layer => ?_
  exact Scan.bind (Scan.ite (Scan.pure rfl) (skipByte_scan _)) fun _ => Scan.pure rfl

/-- A descriptor's layer indices and its end. -/
def readVp9 (descriptor : UInt8) (payload : Bytes) :
    Except PayloadError (Option UInt8 × Option UInt8 × ℕ) :=
  (if descriptor &&& 0x80 ≠ 0 then skipPictureId payload 1 else .ok 1) >>= fun position =>
    (if descriptor &&& 0x20 ≠ 0 then readVp9Layer payload (descriptor &&& 0x10 != 0) position
      else .ok (none, none, position)) >>= fun layers =>
      (if descriptor &&& 0x10 != 0 && descriptor &&& 0x40 != 0 then
        skipReferences (payload.drop layers.2.2) layers.2.2
      else .ok layers.2.2) >>= fun position =>
        (if descriptor &&& 0x02 ≠ 0 then parseVp9ScalabilityStructure payload position
        else .ok position) >>= fun position => .ok (layers.1, layers.2.1, position)

theorem inspectVp9_cons (header : UInt8) (rest : Bytes) (marker : Bool) :
    inspectVp9 (header :: rest) marker = readVp9 header (header :: rest) >>= fun read =>
      requirePosition (header :: rest) read.2.2 >>= fun _ =>
        .ok ⟨header &&& 0x08 != 0, header &&& 0x04 != 0 || marker,
          header &&& 0x08 != 0 && !(header &&& 0x40 != 0), read.1, read.2.1⟩ := by
  simp only [inspectVp9, firstByte_cons, readVp9, ite_bind, bind_assoc, bind_ok]
  rfl

theorem readVp9_scan (descriptor : UInt8) :
    Scan PayloadError.truncatedDescriptor 1 (fun read => read.2.2) (readVp9 descriptor) := by
  refine Scan.bind (Scan.ite (skipPictureId_scan 1) (Scan.pure rfl)) fun position => ?_
  refine Scan.bind (Scan.ite (readVp9Layer_scan _ _) (Scan.pure rfl)) fun layers => ?_
  refine Scan.bind (Scan.ite (skipReferences_scan _) (Scan.pure rfl)) fun position => ?_
  refine Scan.bind (Scan.ite (parseVp9ScalabilityStructure_scan _) (Scan.pure rfl)) fun position => ?_
  exact Scan.pure rfl

theorem readVp9Layer_at (before : Bytes) (d : Vp9Descriptor) {l : Vp9Layer} (hl : d.layer = some l)
    {behind : Bytes} (hbehind : behind ≠ []) :
    readVp9Layer (before ++ (d.layerBytes ++ behind)) d.flexible before.length =
      .ok (some (field l.tid), some (field l.sid), before.length + d.layerBytes.length) := by
  have hpositive := List.length_pos_of_ne_nil hbehind
  obtain ⟨htid, hsid⟩ := octet_vp9_layer l.switchUp l.interLayer l.tid l.sid
  rw [← Vp9Layer.byte] at htid hsid
  rw [Vp9Descriptor.layerBytes, hl, Option.elim_some, List.cons_append, readVp9Layer, readByte_at,
    bind_ok]
  cases d.flexible with
  | true =>
    simp only [htid, hsid]
    rfl
  | false =>
    simp only [htid, hsid]
    rw [if_neg Bool.false_ne_true, skipByte_of_lt (by simp; omega)]
    rfl

theorem skipReferences_at {references : List (BitVec 7)} (hsome : references ≠ []) (behind : Bytes)
    (position : ℕ) :
    skipReferences (referenceBytes references ++ behind) position =
      .ok (position + (referenceBytes references).length) := by
  induction references using referenceBytes.induct generalizing position with
  | case1 => exact absurd rfl hsome
  | case2 last =>
    rw [referenceBytes, List.cons_append, skipReferences, if_pos ((octet_last _ _).mpr rfl)]
    rfl
  | case3 reference others hothers ih =>
    have hclear : ¬octet (reference ++ flag true) &&& 0x01 = 0 := by
      rw [octet_last]
      decide
    rw [referenceBytes, List.cons_append, skipReferences, if_neg hclear, ih ?_, List.length_cons]
    · congr 1
      omega
    · rintro rfl
      exact hothers rfl
    · exact hothers

theorem length_sizeBytes (s : ScalabilityStructure) :
    s.sizeBytes.length = if s.sizes.isSome then (s.lastLayer.toNat + 1) * 4 else 0 := by
  have hsizes := s.sizeOfLayer
  rw [ScalabilityStructure.sizeBytes]
  cases hsome : s.sizes with
  | none => rfl
  | some sizes =>
    rw [← hsizes sizes hsome]
    simp [List.length_flatMap]

/-- A scalability structure is read up to its pictures, which the loop over the picture groups steps
over. -/
theorem parseVp9ScalabilityStructure_at (before : Bytes) (s : ScalabilityStructure) {behind : Bytes}
    (hbehind : behind ≠ []) :
    parseVp9ScalabilityStructure (before ++ (s.front ++ behind)) before.length =
      skipGroups (before ++ (s.front ++ behind)) s.pictureList.length
        (before.length + s.front.length) := by
  have hpositive := List.length_pos_of_ne_nil hbehind
  obtain ⟨hlayers, hsizes, hgroups⟩ := octet_scalability s.sizes.isSome s.pictures.isSome s.lastLayer
    s.reserved
  rw [← ScalabilityStructure.header] at hlayers hsizes hgroups
  generalize hpayload : before ++ (s.front ++ behind) = payload
  have hheader : readByte payload before.length = .ok s.header := by
    rw [← hpayload]
    exact readByte_at before s.header _
  have hlength : payload.length =
      before.length + 1 + s.sizeBytes.length + s.countByte.length + behind.length := by
    rw [← hpayload]
    simp [ScalabilityStructure.front]
    omega
  have hskip : (if s.header &&& 0x10 ≠ 0 then
      skipResolutions payload ((s.header >>> 5).toNat + 1) (before.length + 1)
      else .ok (before.length + 1)) = .ok (before.length + 1 + s.sizeBytes.length) := by
    have hsizeBytes := length_sizeBytes s
    simp only [hsizes, hlayers]
    split_ifs at hsizeBytes ⊢ with hsome
    · rw [skipResolutions, requirePosition_of_lt (by omega), hsizeBytes]
      rfl
    · rw [hsizeBytes]
  rw [parseVp9ScalabilityStructure_eq, hheader, bind_ok, hskip, bind_ok]
  simp only [hgroups]
  cases hpictures : s.pictures with
  | none =>
    have hcount : s.countByte = [] := by rw [ScalabilityStructure.countByte, hpictures]; rfl
    have hlist : s.pictureList = [] := by rw [ScalabilityStructure.pictureList, hpictures]; rfl
    rw [hlist, ScalabilityStructure.front, hcount, if_neg (by simp), List.append_nil, List.length_cons]
    exact congrArg Except.ok (by omega)
  | some pictures =>
    have hfit := s.picturesFit pictures hpictures
    have hcount : s.countByte = [UInt8.ofNat pictures.length] := by
      rw [ScalabilityStructure.countByte, hpictures]
      rfl
    have hlist : s.pictureList = pictures := by rw [ScalabilityStructure.pictureList, hpictures]; rfl
    have hread : readByte payload (before.length + 1 + s.sizeBytes.length) =
        .ok (.ofNat pictures.length) := by
      have hat := readByte_at (before ++ (s.header :: s.sizeBytes)) (.ofNat pictures.length) behind
      rw [← hpayload]
      convert hat using 2
      · simp [ScalabilityStructure.front, hcount]
      · simp
        omega
    rw [if_pos Option.isSome_some, skipGroupList, hread, bind_ok, hlist, UInt8.toNat_ofNat',
      Nat.mod_eq_of_lt (by omega), ScalabilityStructure.front, hcount]
    congr 1
    simp
    omega

/-- A descriptor is read up to the pictures of its picture group. -/
theorem readVp9_at (d : Vp9Descriptor) {behind : Bytes} (hbehind : behind ≠ []) :
    readVp9 d.header (d.front ++ behind) =
      skipGroups (d.front ++ behind) d.pictures.length d.front.length >>= fun position =>
        .ok (d.layer.map fun l => field l.tid, d.layer.map fun l => field l.sid, position) := by
  obtain ⟨hid, hinter, hlayer, hflexible, -, -, hscalability⟩ := octet_vp9 d.pictureId.isSome
    d.interPicture d.layer.isSome d.flexible d.begins d.ends d.scalability.isSome d.notReference
  rw [← Vp9Descriptor.header] at hid hinter hlayer hflexible hscalability
  generalize hpayload : d.front ++ behind = payload
  have hidRead : (if d.header &&& 0x80 ≠ 0 then skipPictureId payload 1 else .ok 1) =
      .ok (1 + (d.pictureId.elim [] PictureId.bytes).length) := by
    simp only [hid]
    refine skipPictureId_optional [d.header] d.pictureId (List.append_ne_nil_of_right_ne_nil
      (d.layerBytes ++ d.flexibleBytes ++ d.scalability.elim [] ScalabilityStructure.front) hbehind) ?_
    simp [← hpayload, Vp9Descriptor.front]
  have hlayers : (if d.header &&& 0x20 ≠ 0 then
      readVp9Layer payload (d.header &&& 0x10 != 0) (1 + (d.pictureId.elim [] PictureId.bytes).length)
      else .ok (none, none, 1 + (d.pictureId.elim [] PictureId.bytes).length)) =
      .ok (d.layer.map fun l => field l.tid, d.layer.map fun l => field l.sid,
        1 + (d.pictureId.elim [] PictureId.bytes).length + d.layerBytes.length) := by
    simp only [hlayer, hflexible]
    cases hl : d.layer with
    | none =>
      have hempty : d.layerBytes = [] := by rw [Vp9Descriptor.layerBytes, hl]; rfl
      rw [hempty]
      rfl
    | some l =>
      have hat := readVp9Layer_at (d.header :: d.pictureId.elim [] PictureId.bytes) d hl
        (List.append_ne_nil_of_right_ne_nil
          (d.flexibleBytes ++ d.scalability.elim [] ScalabilityStructure.front) hbehind)
      rw [List.length_cons, Nat.add_comm _ 1] at hat
      rw [if_pos Option.isSome_some, Option.map_some, Option.map_some, ← hpayload]
      convert hat using 2
      simp [Vp9Descriptor.front]
  have hreferences (start : ℕ)
      (hstart : start = 1 + (d.pictureId.elim [] PictureId.bytes).length + d.layerBytes.length) :
      (if d.header &&& 0x10 != 0 && d.header &&& 0x40 != 0 then
        skipReferences (payload.drop start) start else .ok start) =
      .ok (start + d.flexibleBytes.length) := by
    rw [hflexible, hinter, Vp9Descriptor.flexibleBytes]
    split_ifs with hboth
    · have hdrop : payload.drop start = referenceBytes d.references ++
          (d.scalability.elim [] ScalabilityStructure.front ++ behind) := by
        have hsplit : payload = (d.header :: (d.pictureId.elim [] PictureId.bytes ++ d.layerBytes)) ++
            (referenceBytes d.references ++
              (d.scalability.elim [] ScalabilityStructure.front ++ behind)) := by
          simp [← hpayload, Vp9Descriptor.front, Vp9Descriptor.flexibleBytes, hboth]
        rw [hsplit]
        exact List.drop_left' (by simp; omega)
      rw [hdrop, skipReferences_at d.referred]
    · rfl
  have hscalabilityRead (start : ℕ) (hstart : start = 1 +
      (d.pictureId.elim [] PictureId.bytes).length + d.layerBytes.length + d.flexibleBytes.length) :
      (if d.header &&& 0x02 ≠ 0 then parseVp9ScalabilityStructure payload start else .ok start) =
        skipGroups payload d.pictures.length d.front.length := by
    have hfront : d.front.length =
        start + (d.scalability.elim [] ScalabilityStructure.front).length := by
      simp [Vp9Descriptor.front]
      omega
    simp only [hscalability]
    rw [hfront, Vp9Descriptor.pictures]
    cases hs : d.scalability with
    | none => rfl
    | some s =>
      have hat := parseVp9ScalabilityStructure_at
        (d.header :: (d.pictureId.elim [] PictureId.bytes ++ d.layerBytes ++ d.flexibleBytes)) s hbehind
      have hsplit : payload =
          (d.header :: (d.pictureId.elim [] PictureId.bytes ++ d.layerBytes ++ d.flexibleBytes)) ++
            (s.front ++ behind) := by
        simp [← hpayload, Vp9Descriptor.front, hs]
      have hlength : (d.header :: (d.pictureId.elim [] PictureId.bytes ++ d.layerBytes ++
          d.flexibleBytes)).length = start := by
        simp
        omega
      rw [← hsplit, hlength] at hat
      rw [if_pos Option.isSome_some]
      exact hat
  rw [readVp9, hidRead, bind_ok, hlayers, bind_ok, hreferences _ rfl, bind_ok, hscalabilityRead _ rfl]

/-- In front of any bytes a descriptor is accepted when the steps over its pictures come to an end in
front of their end, and always with its values. -/
theorem inspectVp9_front (d : Vp9Descriptor) (marker : Bool) {behind : Bytes} (hbehind : behind ≠ [])
    {info : PayloadInfo} :
    inspectVp9 (d.front ++ behind) marker = .ok info ↔
      info = d.info marker ∧
        ∃ stop, groupsEnd d.pictures.length behind = some stop ∧ stop < behind.length := by
  obtain ⟨-, hinter, -, -, hbegins, hends, -⟩ := octet_vp9 d.pictureId.isSome d.interPicture
    d.layer.isSome d.flexible d.begins d.ends d.scalability.isSome d.notReference
  rw [← Vp9Descriptor.header] at hinter hbegins hends
  have hcons : d.front ++ behind = d.header :: (d.front.tail ++ behind) := rfl
  rw [hcons, inspectVp9_cons, ← hcons, readVp9_at d hbehind, hinter, hbegins, hends]
  simp only [bind_assoc, bind_ok, bind_eq_ok, skipGroups_eq_ok, List.drop_left, Except.ok.injEq]
  have hlength : (d.front ++ behind).length = d.front.length + behind.length := List.length_append
  have hpositive := List.length_pos_of_ne_nil hbehind
  constructor
  · rintro ⟨stop, ⟨last, hlast, rfl, -⟩, ⟨⟩, hinside, rfl⟩
    rw [requirePosition] at hinside
    split_ifs at hinside with hlt
    exact ⟨rfl, last, hlast, by omega⟩
  · rintro ⟨rfl, stop, hstop, hlt⟩
    exact ⟨d.front.length + stop, ⟨stop, hstop, rfl, fun _ => by omega⟩, (),
      requirePosition_of_lt (by omega), rfl⟩

/-- What ends inside a descriptor whose pictures the steps reach the end of is refused. -/
theorem inspectVp9_error (d : Vp9Descriptor) (marker : Bool) (hd : d.Aligned) {front : Bytes}
    (hpart : front <+: d.bytes) (hsome : front ≠ []) (hne : front ≠ d.bytes) :
    inspectVp9 front marker = .error .truncatedDescriptor := by
  obtain ⟨stop, hstop, hend⟩ := hd
  have hlt := length_lt_of_front hpart hne
  obtain ⟨header, rest, rfl⟩ := List.exists_cons_of_ne_nil hsome
  have hheader : header = d.header := (List.cons_prefix_cons.mp hpart).1
  rw [inspectVp9_cons]
  cases hread : readVp9 header (header :: rest) with
  | error e => rw [(readVp9_scan header).error hread, bind_error]
  | ok read =>
    -- With one more byte the same is read, so the end is known.
    have hwhole := (readVp9_scan header).extend (hpart.trans (List.prefix_append d.bytes [0])) hread
    rw [hheader, Vp9Descriptor.bytes, List.append_assoc, readVp9_at d (by simp), bind_eq_ok] at hwhole
    obtain ⟨position, hposition, ⟨⟩⟩ := hwhole
    obtain ⟨last, hlast, rfl, -⟩ := skipGroups_eq_ok.mp hposition
    have hsame : last = stop := by
      rw [List.drop_left, groupsEnd, itemsEnd_append hstop, Option.some.injEq] at hlast
      exact hlast.symm
    have houtside : ¬d.front.length + last < (header :: rest).length := by
      rw [Vp9Descriptor.bytes, List.length_append] at hlt
      omega
    rw [bind_ok, requirePosition, if_neg houtside, bind_error]

theorem vp9_follows_iff (d : Vp9Descriptor) (marker : Bool) :
    Follows .vp9 marker d.bytes (fun _ => d.info marker) ↔ d.Aligned := by
  constructor
  · rintro ⟨haccepted, hrefused⟩
    have hbytes := haccepted 0 []
    rw [inspectPayload, Vp9Descriptor.bytes, List.append_assoc, inspectVp9_front d marker (by simp)]
      at hbytes
    obtain ⟨-, stop, hstop, hlt⟩ := hbytes
    rw [List.length_append, List.length_singleton] at hlt
    have hwhole : groupsEnd d.pictures.length d.pictureBytes = some stop :=
      itemsEnd_of_append hstop (by omega)
    refine ⟨stop, hwhole, ?_⟩
    by_contra hend
    -- Without its last byte the descriptor would be accepted.
    have hsome : d.pictureBytes ≠ [] := by
      intro hempty
      rw [hempty, List.length_nil] at hlt hend
      omega
    have hlength : d.pictureBytes.dropLast.length = d.pictureBytes.length - 1 := List.length_dropLast
    have hshortSome : d.pictureBytes.dropLast ≠ [] := by
      apply List.ne_nil_of_length_pos
      omega
    rw [← List.dropLast_concat_getLast hsome] at hwhole
    have hshort : groupsEnd d.pictures.length d.pictureBytes.dropLast = some stop :=
      itemsEnd_of_append hwhole (by omega)
    have hok := (inspectVp9_front d marker hshortSome).mpr ⟨rfl, stop, hshort, by omega⟩
    have hpart : d.front ++ d.pictureBytes.dropLast <+: d.bytes :=
      (List.prefix_append_right_inj d.front).mpr (List.dropLast_prefix d.pictureBytes)
    have hne : d.front ++ d.pictureBytes.dropLast ≠ d.bytes := by
      intro heq
      have := congrArg List.length heq
      rw [Vp9Descriptor.bytes, List.length_append, List.length_append] at this
      omega
    have herror := hrefused _ hpart (List.append_ne_nil_of_right_ne_nil _ hshortSome) hne
    rw [inspectPayload, hok] at herror
    cases herror
  · intro hd
    refine ⟨fun first coded => ?_, fun part => inspectVp9_error d marker hd⟩
    obtain ⟨stop, hstop, hend⟩ := hd
    rw [inspectPayload, Vp9Descriptor.bytes, List.append_assoc, inspectVp9_front d marker (by simp)]
    refine ⟨rfl, stop, itemsEnd_append hstop _, ?_⟩
    rw [List.length_append, List.length_cons]
    omega

/-! ## H.264 -/

theorem unitBytes_cons (bytes : Bytes) (units : List Bytes) :
    unitBytes (bytes :: units) = Bytes.ofU16 (.ofNat bytes.length) ++ (bytes ++ unitBytes units) := by
  rw [unitBytes, List.flatMap_cons, List.append_assoc]
  rfl

theorem readU16_eq_ok {payload : Bytes} {length : UInt16} :
    readU16 payload 0 = .ok length ↔ payload = Bytes.ofU16 length ++ payload.drop 2 := by
  rw [readU16]
  constructor
  · intro h
    match payload with
    | [] => cases h
    | [_] => cases h
    | hi :: lo :: rest =>
      cases h
      rw [Bytes.ofU16_toU16]
      rfl
  · intro h
    have hat : payload.u16At 0 = some length := Bytes.u16At_of_drop h
    rw [hat]
    rfl

/-- Without bytes there are no units. -/
theorem no_units {count : ℕ} {keyframe : Bool} :
    (Except.ok (0, false) : Except PayloadError (ℕ × Bool)) = .ok (count, keyframe) ↔
      ∃ units : List Bytes, (∀ bytes ∈ units, bytes ≠ [] ∧ bytes.length < 65536) ∧
        [] = unitBytes units ∧ count = units.length ∧ keyframe = units.any isIdr := by
  constructor
  · rintro ⟨⟩
    exact ⟨[], by simp, rfl, rfl, rfl⟩
  · rintro ⟨units, -, hnil, rfl, rfl⟩
    cases units with
    | nil => rfl
    | cons bytes units => cases hnil

/-- The loop accepts the sequences of non-empty units. -/
theorem stapUnits_eq_ok {fuel : ℕ} {rest : Bytes} (hfuel : rest.length ≤ fuel) {count : ℕ}
    {keyframe : Bool} :
    stapUnits fuel rest = .ok (count, keyframe) ↔
      ∃ units : List Bytes, (∀ bytes ∈ units, bytes ≠ [] ∧ bytes.length < 65536) ∧
        rest = unitBytes units ∧ count = units.length ∧ keyframe = units.any isIdr := by
  induction fuel generalizing rest count keyframe with
  | zero =>
    obtain rfl := List.eq_nil_of_length_eq_zero (Nat.le_zero.mp hfuel)
    exact no_units
  | succ fuel ih =>
    cases hrest : rest with
    | nil => exact no_units
    | cons first others =>
      rw [← hrest]
      have hstep : stapUnits (fuel + 1) rest = readU16 rest 0 >>= fun length =>
          if length = 0 then .error .invalidAggregationUnit
          else if rest.length < 2 + length.toNat then .error .invalidAggregationUnit
          else stapUnits fuel (rest.drop (2 + length.toNat)) >>= fun read =>
            .ok (read.1 + 1, rest.getD 2 0 &&& 0x1f == 5 || read.2) := by
        rw [hrest]
        rfl
      rw [hstep, bind_eq_ok]
      constructor
      · rintro ⟨length, hlength, h⟩
        rw [ite_error_eq_ok, ite_error_eq_ok, bind_eq_ok] at h
        obtain ⟨hzero, hinside, read, hread, ⟨⟩⟩ := h
        rw [readU16_eq_ok] at hlength
        have hpositive : length.toNat ≠ 0 := fun hnull => hzero (UInt16.toNat_inj.mp hnull)
        obtain ⟨units, hall, hbehind, hcount, hkeyframe⟩ :=
          (ih (by rw [List.length_drop]; omega)).mp hread
        have hunit : ((rest.drop 2).take length.toNat).length = length.toNat := by
          rw [List.length_take, List.length_drop]
          omega
        have hfirst : isIdr ((rest.drop 2).take length.toNat) = (rest.getD 2 0 &&& 0x1f == 5) := by
          have hat : ((rest.drop 2).take length.toNat).getD 0 0 = rest.getD 2 0 := by
            simp [List.getD_eq_getElem?_getD, Nat.pos_of_ne_zero hpositive]
          rw [isIdr, hat]
        refine ⟨(rest.drop 2).take length.toNat :: units, ?_, ?_, ?_, ?_⟩
        · intro bytes hbytes
          rcases List.mem_cons.mp hbytes with rfl | hmem
          · refine ⟨List.ne_nil_of_length_pos (by omega), ?_⟩
            rw [hunit]
            exact length.toNat_lt
          · exact hall bytes hmem
        · rw [unitBytes_cons, hunit, UInt16.ofNat_toNat, ← hbehind, ← List.drop_drop,
            List.take_append_drop]
          exact hlength
        · rw [hcount, List.length_cons]
        · rw [List.any_cons, hfirst, hkeyframe]
      · rintro ⟨units, hall, hunits, rfl, rfl⟩
        cases units with
        | nil =>
          rw [hrest] at hunits
          cases hunits
        | cons bytes units =>
          obtain ⟨hsome, hfit⟩ := hall bytes List.mem_cons_self
          have hlength : (UInt16.ofNat bytes.length).toNat = bytes.length := by
            rw [UInt16.toNat_ofNat', Nat.mod_eq_of_lt (by omega)]
          have hpositive := List.length_pos_of_ne_nil hsome
          rw [unitBytes_cons] at hunits
          have hdrop : rest.drop (2 + bytes.length) = unitBytes units := by
            rw [hunits, ← List.drop_drop, List.drop_left' (Bytes.length_ofU16 _), List.drop_left]
          have hnonzero : UInt16.ofNat bytes.length ≠ 0 := by
            intro hzero
            rw [hzero] at hlength
            change 0 = bytes.length at hlength
            omega
          refine ⟨.ofNat bytes.length, ?_, ?_⟩
          · rw [readU16_eq_ok, hunits, List.drop_left' (Bytes.length_ofU16 _)]
          · have hlong : rest.length = 2 + bytes.length + (unitBytes units).length := by
              rw [hunits]
              simp
              omega
            rw [ite_error_eq_ok, ite_error_eq_ok, bind_eq_ok, hlength]
            refine ⟨hnonzero, by omega, (units.length, units.any isIdr), ?_, ?_⟩
            · rw [hdrop, ih (by omega)]
              exact ⟨units, fun other hother => hall other (List.mem_cons_of_mem bytes hother), rfl,
                rfl, rfl⟩
            · have hfirst : rest.getD 2 0 = bytes.getD 0 0 := by
                rw [hunits]
                simp [List.getD_eq_getElem?_getD, Bytes.ofU16, List.getElem?_append_left hpositive]
              rw [hfirst, List.length_cons, List.any_cons]
              rfl

/-- An aggregation packet is accepted when units follow its header. -/
theorem inspectH264_stapA_iff {header : UInt8} (hheader : header &&& 0x1f = 24) (rest : Bytes)
    (marker : Bool) (info : PayloadInfo) :
    inspectH264 (header :: rest) marker = .ok info ↔
      ∃ units : List Bytes, units ≠ [] ∧ (∀ bytes ∈ units, bytes ≠ [] ∧ bytes.length < 65536) ∧
        rest = unitBytes units ∧ info = ⟨true, marker, units.any isIdr, none, none⟩ := by
  have hsplit : inspectH264 (header :: rest) marker =
      stapUnits (header :: rest).length rest >>= fun read =>
        if read.1 = 0 then .error .invalidAggregationUnit
        else .ok ⟨true, marker, read.2, none, none⟩ := by
    rw [inspectH264, firstByte_cons, bind_ok, hheader]
    rfl
  rw [hsplit, bind_eq_ok]
  constructor
  · rintro ⟨⟨count, keyframe⟩, hread, h⟩
    rw [ite_error_eq_ok] at h
    obtain ⟨hsome, ⟨⟩⟩ := h
    obtain ⟨units, hall, hrest, rfl, rfl⟩ :=
      (stapUnits_eq_ok (by rw [List.length_cons]; omega)).mp hread
    exact ⟨units, fun hnil => hsome (by rw [hnil]; rfl), hall, hrest, rfl⟩
  · rintro ⟨units, hsome, hall, hrest, rfl⟩
    refine ⟨(units.length, units.any isIdr), ?_, ?_⟩
    · exact (stapUnits_eq_ok (by rw [List.length_cons]; omega)).mpr ⟨units, hall, hrest, rfl, rfl⟩
    · rw [ite_error_eq_ok]
      exact ⟨fun hzero => hsome (List.eq_nil_of_length_eq_zero hzero), rfl⟩

/-! ## The three formats -/

/-- A VP8 descriptor is followed unless a packet that begins a frame has the reserved bit in front of the
partition index set, and a VP9 descriptor when its pictures end where the reserved bits say, or one byte
later.  The accepted H.264 aggregation packets are the non-empty sequences of non-empty units. -/
theorem payload_formats_followed_iff (marker : Bool) :
    (∀ d : Vp8Descriptor, Follows .vp8 marker d.bytes (d.info marker) ↔ d.ReservedClear) ∧
      (∀ d : Vp9Descriptor, Follows .vp9 marker d.bytes (fun _ => d.info marker) ↔ d.Aligned) ∧
      ∀ (header : UInt8) (rest : Bytes) (info : PayloadInfo), header &&& 0x1f = 24 →
        (inspectPayload .h264 (header :: rest) marker = .ok info ↔
          ∃ units : List Bytes, units ≠ [] ∧ (∀ bytes ∈ units, bytes ≠ [] ∧ bytes.length < 65536) ∧
            rest = unitBytes units ∧ info = ⟨true, marker, units.any isIdr, none, none⟩) :=
  ⟨fun d => vp8_follows_iff d marker, fun d => vp9_follows_iff d marker,
    fun _ rest info hheader => inspectH264_stapA_iff hheader rest marker info⟩

/-- Two pictures, the first of which has one difference behind it. -/
def Sample.grouped : Vp9Descriptor where
  pictureId := none
  interPicture := false
  layer := none
  flexible := false
  begins := true
  ends := false
  scalability := some {
    lastLayer := 0
    sizes := none
    sizeOfLayer := by simp
    pictures := some [⟨0, false, [3], by decide, 0⟩, ⟨0, false, [], by decide, 0⟩]
    picturesFit := by simp
    reserved := 0 }
  notReference := false
  tl0PicIdx := 0
  references := [0]
  referred := by decide

/-- A key frame whose descriptor has a picture group is refused. -/
theorem picture_group_refused :
    Sample.grouped.bytes = [0x0a, 0x08, 0x02, 0x04, 0x03, 0x00] ∧
      inspectPayload .vp9 [0x0a, 0x08, 0x02, 0x04, 0x03, 0x00, 0x82] false =
        .error .truncatedDescriptor ∧
      ¬Follows .vp9 false Sample.grouped.bytes (fun _ => Sample.grouped.info false) := by
  refine ⟨by decide, by decide, fun hfollows => ?_⟩
  have haccepted := hfollows.1 0x82 []
  revert haccepted
  decide

end Fluvora.MediaCodec

import Fluvora.Sdp.ReadBack

/-!
# Answers correspond to offers

The main result on answers: whatever offer has been parsed, its answer is parsed again, and section by
section it is an answer to the offer (`Corresponds`).  An accepted RTP section lists the codecs that
are `Chosen`, in offered order, with the lines that `write_codec` writes for them.
-/

namespace Fluvora.Sdp

open Lines Results Words

/-! ## What an offer holds -/

namespace MediaDescription

variable {media : MediaDescription}

theorem Parsed.not_mem_attributeValues (h : media.Parsed) {name value : Text}
    (hvalue : value ∈ media.attributeValues name) : '\n' ∉ value := by
  obtain ⟨entry, hentry, hsome⟩ := List.mem_filterMap.mp hvalue
  exact h.attributes entry (List.mem_filter.mp hentry).1 value hsome

theorem Parsed.not_mem_targets (h : media.Parsed) {name : Text} {entry : Text × Text}
    (hentry : entry ∈ media.targets name) : '\n' ∉ entry.2 := by
  obtain ⟨value, hvalue, hsplit⟩ := List.mem_filterMap.mp hentry
  obtain ⟨rfl, -⟩ := splitOnce_eq_some hsplit
  exact fun hmem => h.not_mem_attributeValues hvalue (by simp [hmem])

/-- The codec can be written on lines, and its RTPMAP read back. -/
structure Printable (codec : RtpCodec) : Prop where
  name : '\n' ∉ codec.name ∧ '/' ∉ codec.name ∧ codec.name ≠ []
  clockRate : 0 < codec.clockRate
  channels : 0 < codec.channels
  fmtp : ∀ fmtp ∈ codec.fmtp, '\n' ∉ fmtp
  rtcpFeedback : ∀ feedback ∈ codec.rtcpFeedback, '\n' ∉ feedback

theorem parseRtpmap_eq_ok {value : Text} {rtpmap : Text × UInt32 × UInt16}
    (h : parseRtpmap value = .ok rtpmap) (hvalue : '\n' ∉ value) :
    ('\n' ∉ rtpmap.1 ∧ '/' ∉ rtpmap.1 ∧ rtpmap.1 ≠ []) ∧ 0 < rtpmap.2.1 ∧ 0 < rtpmap.2.2 := by
  unfold parseRtpmap at h
  dsimp only at h
  rw [ite_error_eq_ok] at h
  obtain ⟨-, h⟩ := h
  split at h
  · next name clockRate channels hname hclock hchannels =>
    split_ifs at h with hpositive
    cases h
    obtain ⟨hpart, hne⟩ := Option.filter_eq_some_iff.mp hname
    have hmem : name ∈ value.splitOnP (· == '/') := List.mem_of_getElem? hpart
    refine ⟨⟨fun hnewline => hvalue (of_mem_splitOnP hmem _ hnewline).2, fun hslash => ?_,
      by simpa using hne⟩, hpositive⟩
    simpa using (of_mem_splitOnP hmem _ hslash).1
  · cases h

theorem Parsed.printable_codecOf (h : media.Parsed) {format : Text} {payloadType : UInt8}
    {value : Text} {rtpmap : Text × UInt32 × UInt16}
    (hfound : media.findPrefixedAttribute "rtpmap".toList format = some value)
    (hrtpmap : parseRtpmap value = .ok rtpmap) :
    Printable (media.codecOf format payloadType rtpmap) := by
  obtain ⟨entry, hentry, rfl⟩ := Option.map_eq_some_iff.mp hfound
  obtain ⟨hname, hclock, hchannels⟩ :=
    parseRtpmap_eq_ok hrtpmap (h.not_mem_targets (List.mem_of_find?_eq_some hentry))
  refine ⟨hname, hclock, hchannels, ?_, ?_⟩
  · intro fmtp hfmtp
    obtain ⟨entry, hentry, rfl⟩ := Option.map_eq_some_iff.mp hfmtp
    exact h.not_mem_targets (List.mem_reverse.mp (List.mem_of_find?_eq_some hentry))
  · intro feedback hfeedback
    rcases List.mem_append.mp hfeedback with hfeedback | hfeedback
    · obtain ⟨entry, hentry, rfl⟩ := List.mem_map.mp hfeedback
      exact h.not_mem_targets (List.mem_filter.mp hentry).1
    · obtain ⟨entry, hentry, rfl⟩ := List.mem_map.mp hfeedback
      exact h.not_mem_targets (List.mem_filter.mp hentry).1

theorem Parsed.printable_codecs (h : media.Parsed) {codecs : List RtpCodec}
    (hcodecs : media.codecs = .ok codecs) : ∀ codec ∈ codecs, Printable codec := by
  unfold MediaDescription.codecs at hcodecs
  generalize media.formats = formats at hcodecs
  induction formats generalizing codecs with
  | nil =>
    cases hcodecs
    simp
  | cons format formats ih =>
    obtain ⟨payloadType, -, hcodecs⟩ := bind_eq_ok.mp hcodecs
    split at hcodecs
    · split_ifs at hcodecs
      exact ih hcodecs
    · next value hfound =>
      obtain ⟨rtpmap, hrtpmap, hcodecs⟩ := bind_eq_ok.mp hcodecs
      obtain ⟨more, hmore, hcodecs⟩ := bind_eq_ok.mp hcodecs
      cases hcodecs
      rw [List.forall_mem_cons]
      exact ⟨h.printable_codecOf hfound hrtpmap, ih hmore⟩

/-- The extensions that are read are made of words. -/
theorem not_mem_writeExtension {entry : Attribute} {extension : ExtMap}
    (h : parseExtmap entry = .ok extension) : Writable (writeExtension extension) := by
  unfold parseExtmap at h
  split at h
  · cases h
  · next value hvalue =>
    split at h
    · next idAndDirection uri remaining hwords =>
      have hword : ∀ word ∈ idAndDirection :: uri :: remaining, IsWord word := by
        rw [← hwords]
        exact fun word hword => isWord_of_mem_splitWhitespace hword
      simp only [List.forall_mem_cons] at hword
      obtain ⟨⟨id, direction⟩, -, h⟩ := bind_eq_ok.mp h
      obtain ⟨number, -, h⟩ := bind_eq_ok.mp h
      cases h
      refine ⟨(by decide : PlainName "extmap".toList), ?_⟩
      rintro _ ⟨⟩
      have hnumber : '\n' ∉ numeral number.toNat := (isWord_numeral _).not_mem (by decide)
      have huri : '\n' ∉ uri := hword.2.1.not_mem (by decide)
      have hdirection : '\n' ∉ direction.elim [] (fun direction => '/' :: direction.reciprocal.asStr) := by
        cases direction with
        | none => simp
        | some direction => cases direction <;> decide
      have hattributes : '\n' ∉ (if remaining = [] then none else some (joinWords remaining)).elim []
          (' ' :: ·) := by
        split_ifs
        · simp
        · simpa using not_mem_joinWords hword.2.2 (c := '\n') (by decide) (by decide)
      simp only [List.mem_append, List.mem_cons, not_or]
      exact ⟨⟨⟨hnumber, hdirection⟩, by decide, huri⟩, hattributes⟩
    · cases h

end MediaDescription

open MediaDescription

/-! ## What is written -/

/-- The text has neither a carriage return nor a newline. -/
def Clean (text : Text) : Prop := '\r' ∉ text ∧ '\n' ∉ text

instance (text : Text) : Decidable (Clean text) := inferInstanceAs (Decidable (_ ∧ _))

/-- The strings of a configuration hold neither carriage returns nor newlines. -/
structure AnswerConfig.Clean (config : AnswerConfig) : Prop where
  iceUfrag : Sdp.Clean config.iceUfrag
  icePassword : Sdp.Clean config.icePassword
  fingerprintAlgorithm : Sdp.Clean config.fingerprintAlgorithm
  fingerprint : Sdp.Clean config.fingerprint
  candidates : ∀ candidate ∈ config.candidates, Sdp.Clean candidate
  audioCodecs : ∀ capability ∈ config.audioCodecs, Sdp.Clean capability.name
  videoCodecs : ∀ capability ∈ config.videoCodecs, Sdp.Clean capability.name
  extensionUris : ∀ uri ∈ config.extensionUris, Sdp.Clean uri

section

variable {media : MediaDescription} {mid : Text} {config : AnswerConfig} {direction : Direction}

theorem writable_valued {name : String} (hname : PlainName name.toList) {value : Text}
    (hvalue : '\n' ∉ value) : Writable (valued name value) := by
  refine ⟨hname, ?_⟩
  rintro _ ⟨⟩
  exact hvalue

theorem writable_bare {name : Text} (hname : PlainName name) : Writable (bare name) :=
  ⟨hname, nofun⟩

theorem plainName_asStr (direction : Direction) : PlainName direction.asStr := by
  cases direction <;> decide

theorem writable_transportAttributes (hmid : '\n' ∉ mid) (hconfig : config.Clean) :
    ∀ entry ∈ writeTransportAttributes mid direction config, Writable entry := by
  unfold writeTransportAttributes
  simp only [List.forall_mem_cons, List.not_mem_nil, false_implies, implies_true, and_true]
  exact ⟨writable_valued (by decide) hmid,
    writable_valued (by decide) hconfig.iceUfrag.2,
    writable_valued (by decide) hconfig.icePassword.2,
    writable_valued (by decide) (by decide), writable_bare (plainName_asStr _)⟩

theorem writable_candidates (hconfig : config.Clean) :
    ∀ entry ∈ writeCandidates config, Writable entry := by
  unfold writeCandidates
  simp only [List.forall_mem_append, List.forall_mem_map, List.forall_mem_singleton]
  exact ⟨fun candidate hmem => writable_valued (by decide) (hconfig.candidates candidate hmem).2,
    writable_bare (by decide)⟩

theorem not_mem_numeral {n : ℕ} {c : Char} (hc : c.isDigit = false) : c ∉ numeral n := by
  intro hmem
  rw [isDigit_of_mem_numeral hmem] at hc
  cases hc

theorem not_mem_channelsText {c : Char} (hc : c.isDigit = false) (hslash : c ≠ '/')
    (channels : UInt16) : c ∉ channelsText channels := by
  unfold channelsText
  split_ifs
  · rw [List.mem_cons, not_or]
    exact ⟨hslash, not_mem_numeral hc⟩
  · exact List.not_mem_nil

theorem writable_writeCodec {codec : RtpCodec} (h : Printable codec) :
    ∀ entry ∈ writeCodec codec, Writable entry := by
  have htarget : '\n' ∉ numeral codec.payloadType.toNat := not_mem_numeral (by decide)
  have htext : ∀ text, '\n' ∉ text → '\n' ∉ numeral codec.payloadType.toNat ++ ' ' :: text := by
    intro text htext
    simp [htarget, htext]
  have hrtpmap : '\n' ∉ rtpmapText codec := by
    unfold rtpmapText
    simp only [List.mem_append, List.mem_cons, not_or]
    exact ⟨⟨h.name.1, by decide, not_mem_numeral (by decide)⟩,
      not_mem_channelsText (by decide) (by decide) _⟩
  unfold writeCodec
  simp only [List.cons_append, List.forall_mem_cons, List.forall_mem_append, List.forall_mem_map]
  refine ⟨writable_valued (by decide) (htext _ hrtpmap), fun fmtp hfmtp => ?_,
    fun feedback hfeedback => ?_⟩
  · exact writable_valued (by decide) (htext _ (h.fmtp fmtp (by simpa using hfmtp)))
  · exact writable_valued (by decide) (htext _ (h.rtcpFeedback feedback hfeedback))

theorem writable_extensions {extensions : List Attribute}
    (h : writeExtensions media config = .ok extensions) : ∀ entry ∈ extensions, Writable entry := by
  obtain ⟨extmaps, hextmaps, h⟩ := bind_eq_ok.mp h
  cases h
  have hall : ∀ {entries : List Attribute} {extmaps : List ExtMap},
      extmapsOf entries = .ok extmaps → ∀ extension ∈ extmaps, Writable (writeExtension extension) := by
    intro entries
    induction entries with
    | nil =>
      intro extmaps hextmaps
      cases hextmaps
      simp
    | cons entry entries ih =>
      intro extmaps hextmaps
      obtain ⟨extension, hextension, hextmaps⟩ := bind_eq_ok.mp hextmaps
      obtain ⟨more, hmore, hextmaps⟩ := bind_eq_ok.mp hextmaps
      cases hextmaps
      rw [List.forall_mem_cons]
      exact ⟨not_mem_writeExtension hextension, ih hmore⟩
  rw [List.forall_mem_map]
  exact fun extension hmem => hall hextmaps extension (List.mem_filter.mp hmem).1

end

/-- The RTPMAP that is written for a codec is read back. -/
theorem parseRtpmap_rtpmapText {codec : RtpCodec} (h : Printable codec) :
    parseRtpmap (rtpmapText codec) = .ok (codec.name, codec.clockRate, codec.channels) := by
  have hclock : parseU32 (numeral codec.clockRate.toNat) = some codec.clockRate := by
    have hle : codec.clockRate.toNat ≤ 4294967295 := Nat.le_of_lt_succ codec.clockRate.toNat_lt
    rw [parseU32, parseNumeral_numeral hle, Option.map_some, UInt32.ofNat_toNat]
  have hchannels : parseU16 (numeral codec.channels.toNat) = some codec.channels := by
    have hle : codec.channels.toNat ≤ 65535 := Nat.le_of_lt_succ codec.channels.toNat_lt
    rw [parseU16, parseNumeral_numeral hle, Option.map_some, UInt16.ofNat_toNat]
  have hslash : ∀ n, '/' ∉ numeral n := fun n => not_mem_numeral (by decide)
  have hname : ([codec.name].head?.filter fun name => decide (name ≠ [])) = some codec.name := by
    simp [Option.filter, h.name.2.2]
  unfold rtpmapText channelsText
  split_ifs with hmany
  · have hparts : (codec.name ++ '/' :: numeral codec.clockRate.toNat ++
        '/' :: numeral codec.channels.toNat).splitOn '/' =
        [codec.name, numeral codec.clockRate.toNat, numeral codec.channels.toNat] := by
      rw [List.append_assoc, List.cons_append, List.splitOn_append_cons_self_of_not_mem h.name.2.1,
        List.splitOn_append_cons_self_of_not_mem (hslash _), List.splitOn_eq_singleton (hslash _)]
    unfold parseRtpmap
    rw [hparts]
    simp [hclock, hchannels, h.name.2.2, h.clockRate, h.channels, Option.filter]
  · have hone : codec.channels = 1 := by
      have hpositive := h.channels
      rw [UInt16.lt_iff_toNat_lt] at hmany hpositive
      rw [← UInt16.toNat_inj]
      have hzero : (0 : UInt16).toNat = 0 := rfl
      have hunit : (1 : UInt16).toNat = 1 := rfl
      omega
    have hparts : (codec.name ++ '/' :: numeral codec.clockRate.toNat ++ []).splitOn '/' =
        [codec.name, numeral codec.clockRate.toNat] := by
      rw [List.append_nil, List.splitOn_append_cons_self_of_not_mem h.name.2.1,
        List.splitOn_eq_singleton (hslash _)]
    unfold parseRtpmap
    rw [hparts]
    simp [hclock, hone, h.name.2.2, h.clockRate, Option.filter]

/-! ## The codecs of an answer -/

/-- The SFU can forward the codec. -/
def Compatible (config : AnswerConfig) (kind : MediaKind) (codec : RtpCodec) : Prop :=
  eqIgnoreAsciiCase codec.name "rtx".toList = false ∧
    ∃ capability ∈ (capabilities config kind).getD [], capability.fits codec = true

/-- The codec has the payload type of a compatible codec, or is an RTX codec for one. -/
def Chosen (config : AnswerConfig) (kind : MediaKind) (offered : List RtpCodec) (codec : RtpCodec) :
    Prop :=
  ∃ primary ∈ offered, Compatible config kind primary ∧
    (codec.payloadType = primary.payloadType ∨
      codec.associatedPayloadType = some primary.payloadType)

instance (config : AnswerConfig) (kind : MediaKind) (codec : RtpCodec) :
    Decidable (Compatible config kind codec) :=
  inferInstanceAs (Decidable (_ ∧ _))

instance (config : AnswerConfig) (kind : MediaKind) (offered : List RtpCodec) (codec : RtpCodec) :
    Decidable (Chosen config kind offered codec) :=
  inferInstanceAs (Decidable (∃ primary ∈ offered, _))

/-- The codecs that an answer lists, in offered order. -/
def chosenCodecs (config : AnswerConfig) (kind : MediaKind) (offered : List RtpCodec) :
    List RtpCodec :=
  offered.filter fun codec => Chosen config kind offered codec

theorem isSelected_iff {config : AnswerConfig} {kind : MediaKind} {codecs : List CodecCapability}
    (hcodecs : capabilities config kind = some codecs) (offered : List RtpCodec) (codec : RtpCodec) :
    isSelected (selectedPrimary codecs offered) codec = true ↔ Chosen config kind offered codec := by
  have hprimary : ∀ payloadType, payloadType ∈ selectedPrimary codecs offered ↔
      ∃ primary ∈ offered, Compatible config kind primary ∧ primary.payloadType = payloadType := by
    intro payloadType
    unfold selectedPrimary Compatible
    rw [hcodecs]
    simp [and_assoc]
  unfold isSelected Chosen
  rw [Bool.or_eq_true, decide_eq_true_eq, hprimary, Option.any_eq_true]
  simp only [decide_eq_true_eq, hprimary]
  constructor
  · rintro (⟨primary, hmem, hcompatible, heq⟩ | ⟨_, hassociated, primary, hmem, hcompatible, rfl⟩)
    · exact ⟨primary, hmem, hcompatible, .inl heq.symm⟩
    · exact ⟨primary, hmem, hcompatible, .inr hassociated⟩
  · rintro ⟨primary, hmem, hcompatible, heq | hassociated⟩
    · exact .inl ⟨primary, hmem, hcompatible, heq.symm⟩
    · exact .inr ⟨_, hassociated, primary, hmem, hcompatible, rfl⟩

/-- What is selected for a section that is offered with a port. -/
theorem selectCodecs_eq_ok {media : MediaDescription} {config : AnswerConfig}
    (hrtp : media.kind.isRtp = true) (hport : media.port ≠ 0) {selected : List RtpCodec}
    (h : selectCodecs media config = .ok selected) :
    ∃ offered, media.codecs = .ok offered ∧ selected = chosenCodecs config media.kind offered ∧
      selected ≠ [] := by
  obtain ⟨offered, hoffered, h⟩ := bind_eq_ok.mp h
  obtain ⟨codecs, hcodecs⟩ : ∃ codecs, capabilities config media.kind = some codecs := by
    cases hkind : media.kind with
    | audio => exact ⟨_, rfl⟩
    | video => exact ⟨_, rfl⟩
    | application => simp [hkind, MediaKind.isRtp] at hrtp
    | other value => simp [hkind, MediaKind.isRtp] at hrtp
  rw [hcodecs] at h
  dsimp only at h
  rw [ite_error_eq_ok] at h
  obtain ⟨hne, h⟩ := h
  cases h
  have hprimary : selectedPrimary codecs offered ≠ [] := fun hnil => hne ⟨hnil, hport⟩
  refine ⟨offered, hoffered, ?_, ?_⟩
  · refine List.filter_congr fun codec _ => ?_
    rw [Bool.eq_iff_iff, decide_eq_true_eq]
    exact isSelected_iff hcodecs offered codec
  · obtain ⟨payloadType, hmem⟩ := List.exists_mem_of_ne_nil _ hprimary
    have hmem' := hmem
    obtain ⟨primary, hfound, rfl⟩ := List.mem_map.mp hmem'
    refine List.ne_nil_of_mem (List.mem_filter.mpr ⟨(List.mem_filter.mp hfound).1, ?_⟩)
    rw [isSelected, decide_eq_true hmem, Bool.true_or]

/-! ## Sections -/

/-- The names of the attributes of codecs. -/
def codecNames : List Text := ["rtpmap".toList, "fmtp".toList, "rtcp-fb".toList]

/-- The attributes of codecs, in order. -/
def codecAttributes (attributes : List Attribute) : List Attribute :=
  attributes.filter fun entry => entry.name ∈ codecNames

/-- The section lists these codecs, with their RTPMAP, FMTP and feedback, and no others. -/
structure ListsCodecs (codecs : List RtpCodec) (answered : MediaDescription) : Prop where
  formats : answered.formats = codecs.map fun codec => numeral codec.payloadType.toNat
  attributes : codecAttributes answered.attributes = (codecs.flatMap writeCodec).map trimmed
  rtpmaps : ∀ codec ∈ codecs,
    parseRtpmap (rtpmapText codec) = .ok (codec.name, codec.clockRate, codec.channels)

/-- One section of an answer answers one section of the offer. -/
structure Corresponds (config : AnswerConfig) (offered answered : MediaDescription) : Prop where
  kind : answered.kind = offered.kind
  protocol : answered.protocol = offered.protocol
  mid : answered.mid = offered.mid
  accepted : Accepted config offered →
    answered.port = 9 ∧ answered.direction = offered.direction.reciprocal
  codecs : Accepted config offered → offered.kind.isRtp = true →
    ∃ codecs, offered.codecs = .ok codecs ∧
      ListsCodecs (chosenCodecs config offered.kind codecs) answered
  rejected : ¬Accepted config offered →
    answered.port = 0 ∧ answered.direction = .inactive ∧ answered.formats = offered.formats

section

variable {media : MediaDescription} {mid : Text} {config : AnswerConfig} {lines : List Text}

theorem ofName_asStr (direction : Direction) :
    Direction.ofName direction.asStr = some direction := by
  cases direction <;> decide

theorem ofName_other : Direction.ofName "mid".toList = none ∧
    Direction.ofName "ice-ufrag".toList = none ∧ Direction.ofName "ice-pwd".toList = none ∧
    Direction.ofName "setup".toList = none := by
  decide

theorem firstAttribute_cons (entry : Attribute) (more : List Attribute) :
    firstAttribute (entry :: more) entry.name = entry.value := by
  simp [firstAttribute]

/-- The direction of a section is that of the first attribute whose name is one. -/
theorem direction_cons (entry : Attribute) (more : List Attribute) :
    (entry :: more).findSome? (fun entry => Direction.ofName entry.name) =
      (Direction.ofName entry.name).or (more.findSome? fun entry => Direction.ofName entry.name) := by
  rw [List.findSome?_cons]
  cases Direction.ofName entry.name <;> rfl

theorem mid_readSection (hmid : IsWord mid) (port : UInt16) (formats : List Text)
    (more : List Attribute) :
    (readSection media port formats (valued "mid" mid :: more)).mid = some mid := by
  have hreturn : stripReturn mid = mid := stripReturn_of_not_mem (hmid.not_mem (by decide))
  have hfirst := firstAttribute_cons (trimmed (valued "mid" mid)) (more.map trimmed)
  have hvalue : (trimmed (valued "mid" mid)).value = some (stripReturn mid) := rfl
  rw [hvalue, hreturn] at hfirst
  exact hfirst

/-- The transport attributes come first and decide the direction. -/
theorem direction_readSection (port : UInt16) (formats : List Text) (direction : Direction)
    (more : List Attribute) :
    (readSection media port formats
      (writeTransportAttributes mid direction config ++ more)).direction = direction := by
  obtain ⟨hmid, hufrag, hpwd, hsetup⟩ := ofName_other
  unfold MediaDescription.direction readSection writeTransportAttributes
  simp only [List.cons_append, List.map_cons, direction_cons, name_trimmed]
  simp only [valued, bare]
  rw [hmid, hufrag, hpwd, hsetup, ofName_asStr]
  rfl

theorem codecAttributes_append (first second : List Attribute) :
    codecAttributes (first ++ second) = codecAttributes first ++ codecAttributes second :=
  List.filter_append _ _

theorem codecAttributes_map_trimmed (attributes : List Attribute) :
    codecAttributes (attributes.map trimmed) = (codecAttributes attributes).map trimmed := by
  unfold codecAttributes
  rw [List.filter_map]
  rfl

theorem codecAttributes_eq_nil {attributes : List Attribute}
    (h : ∀ entry ∈ attributes, entry.name ∉ codecNames) : codecAttributes attributes = [] := by
  unfold codecAttributes
  rw [List.filter_eq_nil_iff]
  simpa using h

/-- Of the attributes of an accepted RTP section those of its codecs are the codecs'. -/
theorem codecAttributes_rtpAttributes (codecs : List RtpCodec) {extensions : List Attribute}
    (hextensions : writeExtensions media config = .ok extensions) :
    codecAttributes (rtpAttributes media mid codecs extensions config) =
      codecs.flatMap writeCodec := by
  have htransport : codecAttributes
      (writeTransportAttributes mid media.direction.reciprocal config) = [] := by
    refine codecAttributes_eq_nil ?_
    unfold writeTransportAttributes
    simp only [List.forall_mem_cons, List.not_mem_nil, false_implies, implies_true, and_true]
    refine ⟨(by decide : "mid".toList ∉ codecNames),
      (by decide : "ice-ufrag".toList ∉ codecNames),
      (by decide : "ice-pwd".toList ∉ codecNames),
      (by decide : "setup".toList ∉ codecNames), ?_⟩
    cases media.direction.reciprocal <;> decide
  have hmux : codecAttributes [bare "rtcp-mux".toList] = [] := by decide
  have hcodecs : codecAttributes (codecs.flatMap writeCodec) = codecs.flatMap writeCodec := by
    unfold codecAttributes
    rw [List.filter_eq_self]
    intro entry hentry
    obtain ⟨codec, -, hentry⟩ := List.mem_flatMap.mp hentry
    rw [decide_eq_true_eq]
    unfold writeCodec at hentry
    simp only [List.cons_append, List.mem_cons, List.mem_append, List.mem_map] at hentry
    rcases hentry with rfl | ⟨fmtp, -, rfl⟩ | ⟨feedback, -, rfl⟩
    · exact (by decide : "rtpmap".toList ∈ codecNames)
    · exact (by decide : "fmtp".toList ∈ codecNames)
    · exact (by decide : "rtcp-fb".toList ∈ codecNames)
  have hextmaps : codecAttributes extensions = [] := by
    obtain ⟨extmaps, -, h⟩ := bind_eq_ok.mp hextensions
    cases h
    refine codecAttributes_eq_nil ?_
    rw [List.forall_mem_map]
    exact fun extension _ => (by decide : "extmap".toList ∉ codecNames)
  have hcandidates : codecAttributes (writeCandidates config) = [] := by
    refine codecAttributes_eq_nil ?_
    unfold writeCandidates
    simp only [List.forall_mem_append, List.forall_mem_map, List.forall_mem_singleton]
    exact ⟨fun candidate _ => (by decide : "candidate".toList ∉ codecNames),
      (by decide : "end-of-candidates".toList ∉ codecNames)⟩
  unfold rtpAttributes
  rw [codecAttributes_append, codecAttributes_append, codecAttributes_append,
    codecAttributes_append, htransport, hmux, hcodecs, hextmaps, hcandidates]
  simp

theorem numeral_nine : ['9'] = numeral (9 : UInt16).toNat := by decide

theorem numeral_zero : ['0'] = numeral (0 : UInt16).toNat := by decide

/-- How a section is answered: the lines are printed, and what is read of them corresponds. -/
def PrintedAnswer (config : AnswerConfig) (media : MediaDescription) (lines : List Text) : Prop :=
  ∃ port formats attributes, Printed media port formats attributes lines ∧
    Corresponds config media (readSection media port formats attributes)

theorem printedAnswer_rejected (h : media.Parsed) (hmid : media.mid = some mid) (hword : IsWord mid)
    (hrejected : ¬Accepted config media) :
    PrintedAnswer config media (writeRejectedMedia media mid) := by
  have hinactive : Direction.ofName "inactive".toList = some .inactive := by decide
  refine ⟨0, media.formats, [valued "mid" mid, bare "inactive".toList],
    ⟨by rw [← numeral_zero]; rfl, h.formats_ne_nil, h.formats, ?_⟩, ?_⟩
  · simp only [List.forall_mem_cons, List.not_mem_nil, false_implies, implies_true, and_true]
    exact ⟨writable_valued (by decide) (hword.not_mem (by decide)),
      writable_bare (by decide)⟩
  · refine ⟨rfl, rfl, ?_, fun hyes => absurd hyes hrejected, fun hyes => absurd hyes hrejected,
      fun _ => ⟨rfl, ?_, rfl⟩⟩
    · rw [mid_readSection hword, hmid]
    · unfold MediaDescription.direction readSection
      simp only [List.map_cons, direction_cons, name_trimmed]
      simp only [valued, bare]
      rw [ofName_other.1, hinactive]
      rfl

theorem printedAnswer_application (h : media.Parsed) (hmid : media.mid = some mid)
    (hword : IsWord mid) (hconfig : config.Clean) (hkind : media.kind = .application)
    (haccepted : Accepted config media) :
    PrintedAnswer config media (writeApplicationMedia media mid config) := by
  refine ⟨9, media.formats, applicationAttributes media mid config,
    ⟨by rw [← numeral_nine]; rfl, h.formats_ne_nil, h.formats, ?_⟩, ?_⟩
  · unfold applicationAttributes
    simp only [List.forall_mem_append, List.forall_mem_map]
    refine ⟨⟨⟨writable_transportAttributes (hword.not_mem (by decide)) hconfig, ?_⟩, ?_⟩,
      writable_candidates hconfig⟩
    · exact fun value hvalue =>
        writable_valued (by decide) (h.not_mem_attributeValues hvalue)
    · exact fun value hvalue =>
        writable_valued (by decide) (h.not_mem_attributeValues hvalue)
  · refine ⟨rfl, rfl, ?_, fun _ => ⟨rfl, ?_⟩, fun _ hrtp => ?_, fun hno => absurd haccepted hno⟩
    · exact (mid_readSection hword _ _ _).trans hmid.symm
    · unfold applicationAttributes
      rw [List.append_assoc, List.append_assoc, direction_readSection]
    · rw [hkind] at hrtp
      cases hrtp

theorem printedAnswer_rtp (h : media.Parsed) (hmid : media.mid = some mid) (hword : IsWord mid)
    (hconfig : config.Clean) (hrtp : media.kind.isRtp = true) (haccepted : Accepted config media)
    {selected : List RtpCodec} (hselected : selectCodecs media config = .ok selected)
    (hlines : writeRtpMedia media mid selected config = .ok lines) :
    PrintedAnswer config media lines := by
  obtain ⟨offered, hoffered, hchosen, hne⟩ := selectCodecs_eq_ok hrtp haccepted.1 hselected
  obtain ⟨extensions, hextensions, hlines⟩ := bind_eq_ok.mp hlines
  cases hlines
  have hprintable : ∀ codec ∈ selected, Printable codec := by
    intro codec hcodec
    rw [hchosen] at hcodec
    exact h.printable_codecs hoffered codec (List.mem_filter.mp hcodec).1
  refine ⟨9, selected.map fun codec => numeral codec.payloadType.toNat,
    rtpAttributes media mid selected extensions config, ⟨?_, ?_, ?_, ?_⟩, ?_⟩
  · have hformats : (selected.map fun codec => numeral codec.payloadType.toNat) ≠ [] := by
      simpa using hne
    rw [← numeral_nine, ← flatMap_blank hformats, List.flatMap_map]
  · simpa using hne
  · rw [List.forall_mem_map]
    exact fun codec _ => isWord_numeral _
  · unfold rtpAttributes
    simp only [List.forall_mem_append, List.forall_mem_singleton]
    refine ⟨⟨⟨⟨writable_transportAttributes (hword.not_mem (by decide)) hconfig,
      writable_bare (by decide)⟩, ?_⟩, writable_extensions hextensions⟩,
      writable_candidates hconfig⟩
    intro entry hentry
    obtain ⟨codec, hcodec, hentry⟩ := List.mem_flatMap.mp hentry
    exact writable_writeCodec (hprintable codec hcodec) entry hentry
  · refine ⟨rfl, rfl, ?_, fun _ => ⟨rfl, ?_⟩, fun _ _ => ⟨offered, hoffered, ?_⟩,
      fun hno => absurd haccepted hno⟩
    · exact (mid_readSection hword _ _ _).trans hmid.symm
    · unfold rtpAttributes
      rw [List.append_assoc, List.append_assoc, List.append_assoc, direction_readSection]
    · rw [← hchosen]
      refine ⟨rfl, ?_, fun codec hcodec => parseRtpmap_rtpmapText (hprintable codec hcodec)⟩
      show codecAttributes (List.map trimmed _) = _
      rw [codecAttributes_map_trimmed, codecAttributes_rtpAttributes selected hextensions]

/-- Every section of a parsed offer is answered by a section that corresponds. -/
theorem printedAnswer (h : media.Parsed) (hmid : media.mid = some mid) (hword : IsWord mid)
    (hconfig : config.Clean) (hlines : writeMediaAnswer media config = .ok lines) :
    PrintedAnswer config media lines := by
  have hrtp : media.kind.isRtp = true → (selectCodecs media config >>= fun selected =>
      if media.port = 0 ∨ selected = [] then pure (writeRejectedMedia media mid)
      else writeRtpMedia media mid selected config) = .ok lines →
      PrintedAnswer config media lines := by
    intro hkind hlines
    obtain ⟨selected, hselected, hlines⟩ := bind_eq_ok.mp hlines
    by_cases hport : media.port = 0
    · rw [if_pos (.inl hport)] at hlines
      cases hlines
      exact printedAnswer_rejected h hmid hword fun haccepted => haccepted.1 hport
    · obtain ⟨-, -, -, hne⟩ := selectCodecs_eq_ok hkind hport hselected
      rw [if_neg (not_or.mpr ⟨hport, hne⟩)] at hlines
      exact printedAnswer_rtp h hmid hword hconfig hkind ⟨hport, .inl hkind⟩ hselected hlines
  unfold writeMediaAnswer at hlines
  rw [hmid] at hlines
  cases hkind : media.kind with
  | audio =>
    rw [hkind] at hlines
    exact hrtp (by rw [hkind]; rfl) hlines
  | video =>
    rw [hkind] at hlines
    exact hrtp (by rw [hkind]; rfl) hlines
  | application =>
    rw [hkind] at hlines
    dsimp only at hlines
    split_ifs at hlines with haccepts
    · cases hlines
      exact printedAnswer_application h hmid hword hconfig hkind
        ⟨haccepts.2, .inr ⟨hkind, haccepts.1⟩⟩
    · cases hlines
      refine printedAnswer_rejected h hmid hword ?_
      rintro ⟨hport, hrtp | ⟨-, haccept⟩⟩
      · rw [hkind] at hrtp
        cases hrtp
      · exact haccepts ⟨haccept, hport⟩
  | other value =>
    rw [hkind] at hlines
    cases hlines
    refine printedAnswer_rejected h hmid hword ?_
    rintro ⟨-, hrtp | ⟨happlication, -⟩⟩
    · rw [hkind] at hrtp
      cases hrtp
    · rw [hkind] at happlication
      cases happlication

end

/-! ## The whole answer -/

variable {offer : SessionDescription} {config : AnswerConfig}

theorem isWord_of_mem_bundleMids {mid : Text} (h : mid ∈ offer.bundleMids) : IsWord mid := by
  unfold SessionDescription.bundleMids at h
  cases hgroup : (valuesOf offer.attributes "group".toList).findSome? SessionDescription.parseBundle with
  | none =>
    rw [hgroup] at h
    cases h
  | some mids =>
    rw [hgroup] at h
    obtain ⟨value, -, hvalue⟩ := List.exists_of_findSome?_eq_some hgroup
    unfold SessionDescription.parseBundle at hvalue
    split at hvalue
    · next semantics words hwords =>
      split_ifs at hvalue
      cases hvalue
      refine @isWord_of_mem_splitWhitespace value _ ?_
      rw [hwords]
      exact List.mem_cons_of_mem _ h
    · cases hvalue

/-- The sections of an answer, one for each of the offer. -/
theorem printedAnswers (hconfig : config.Clean) {sections : List MediaDescription}
    {answers : List (List Text)} (hanswered : Answered config sections answers)
    (hparsed : ∀ media ∈ sections, media.Parsed)
    (hmids : ∀ media ∈ sections, ∃ mid, media.mid = some mid ∧ IsWord mid) :
    List.Forall₂ (fun media lines => media.Parsed ∧ PrintedAnswer config media lines)
      sections answers := by
  induction hanswered with
  | nil => exact .nil
  | cons hfirst hrest ih =>
    rw [List.forall_mem_cons] at hparsed hmids
    obtain ⟨mid, hmid, hword⟩ := hmids.1
    exact .cons ⟨hparsed.1, printedAnswer hparsed.1 hmid hword hconfig hfirst⟩
      (ih hparsed.2 hmids.2)

theorem not_mem_answers {sections : List MediaDescription} {answers : List (List Text)}
    (h : List.Forall₂ (fun media lines => media.Parsed ∧ PrintedAnswer config media lines)
      sections answers) : ∀ line ∈ answers.flatten, '\n' ∉ line := by
  induction h with
  | nil => simp
  | cons hfirst hrest ih =>
    rw [List.flatten_cons, List.forall_mem_append]
    obtain ⟨hparsed, port, formats, attributes, hprinted, -⟩ := hfirst
    exact ⟨hprinted.not_mem hparsed, ih⟩

/-- The sections are read one after the other. -/
theorem reads_answers {sections : List MediaDescription} {answers : List (List Text)}
    (h : List.Forall₂ (fun media lines => media.Parsed ∧ PrintedAnswer config media lines)
      sections answers)
    (hshort : ∀ line ∈ answers.flatten, byteLength (stripReturn line) ≤ maxLineBytes)
    (builder : SessionBuilder) :
    ∃ answered, List.Forall₂ (Corresponds config) sections answered ∧
      SessionBuilder.Reads builder answers.flatten
        { builder with media := builder.media ++ answered } := by
  induction h generalizing builder with
  | nil =>
    refine ⟨[], .nil, ?_⟩
    rw [List.append_nil]
    exact .refl builder
  | cons hfirst hrest ih =>
    rw [List.flatten_cons, List.forall_mem_append] at hshort
    obtain ⟨hparsed, port, formats, attributes, hprinted, hcorresponds⟩ := hfirst
    have hreads := hprinted.reads hparsed hshort.1 builder
    obtain ⟨answered, hanswered, hmore⟩ := ih hshort.2
      { builder with media := builder.media ++ [readSection _ port formats attributes] }
    refine ⟨_ :: answered, .cons hcorresponds hanswered, ?_⟩
    rw [List.flatten_cons]
    simp only [List.append_assoc, List.singleton_append] at hmore
    exact hreads.trans hmore

/-- The value of the BUNDLE attribute of an answer. -/
def bundleValue (offer : SessionDescription) : Text :=
  "BUNDLE".toList ++ offer.mids.flatMap (' ' :: ·)

theorem sessionLines_eq :
    sessionLines config ("a=group:BUNDLE".toList ++ offer.mids.flatMap (' ' :: ·)) =
      ['v' :: '=' :: ['0'],
        'o' :: '=' :: ("- ".toList ++ numeral config.sessionId.toNat ++
          " 2 IN IP4 0.0.0.0".toList),
        's' :: '=' :: ['-'], 't' :: '=' :: "0 0".toList,
        attributeLine (bare "ice-lite".toList),
        attributeLine (valued "group" (bundleValue offer)),
        attributeLine (valued "fingerprint"
          (config.fingerprintAlgorithm ++ ' ' :: config.fingerprint))] := by
  have hversion : "v=0".toList = 'v' :: '=' :: ['0'] := by decide
  have horigin : "o=- ".toList = 'o' :: '=' :: "- ".toList := by decide
  have hname : "s=-".toList = 's' :: '=' :: ['-'] := by decide
  have htiming : "t=0 0".toList = 't' :: '=' :: "0 0".toList := by decide
  have hlite : "a=ice-lite".toList = attributeLine (bare "ice-lite".toList) := by decide
  have hgroup : "a=group:BUNDLE".toList =
      "a=".toList ++ "group".toList ++ ':' :: "BUNDLE".toList := by decide
  have hfingerprint : "a=fingerprint:".toList =
      "a=".toList ++ "fingerprint".toList ++ [':'] := by decide
  unfold sessionLines
  rw [hversion, horigin, hname, htiming, hlite, hgroup, hfingerprint]
  delta bundleValue
  simp only [attributeLine, valued, Option.elim, List.append_assoc, List.cons_append,
    List.nil_append]

theorem writable_session (hconfig : config.Clean)
    (hmids : ∀ mid ∈ offer.mids, IsWord mid) :
    Writable (bare "ice-lite".toList) ∧ Writable (valued "group" (bundleValue offer)) ∧
      Writable (valued "fingerprint"
        (config.fingerprintAlgorithm ++ ' ' :: config.fingerprint)) := by
  refine ⟨writable_bare (by decide), writable_valued (by decide) ?_,
    writable_valued (by decide) ?_⟩
  · have hbundle : '\n' ∉ "BUNDLE".toList := by decide
    delta bundleValue
    rw [List.mem_append, List.mem_flatMap, not_or]
    refine ⟨hbundle, ?_⟩
    rintro ⟨mid, hmid, hmem⟩
    rcases List.mem_cons.mp hmem with heq | hmem
    · cases heq
    · exact (hmids mid hmid).not_mem (by decide) hmem
  · simp [hconfig.fingerprintAlgorithm.2, hconfig.fingerprint.2]

theorem not_mem_origin {c : Char} (hc : c = '\n' ∨ c = '\r') (n : ℕ) :
    c ∉ 'o' :: '=' :: ("- ".toList ++ numeral n ++ " 2 IN IP4 0.0.0.0".toList) := by
  have hdigit : c.isDigit = false := by rcases hc with rfl | rfl <;> decide
  have hfront : c ∉ "- ".toList := by rcases hc with rfl | rfl <;> decide
  have hback : c ∉ " 2 IN IP4 0.0.0.0".toList := by rcases hc with rfl | rfl <;> decide
  simp only [List.mem_cons, List.mem_append, not_or]
  refine ⟨?_, ?_, ⟨hfront, not_mem_numeral hdigit⟩, hback⟩
  · rcases hc with rfl | rfl <;> decide
  · rcases hc with rfl | rfl <;> decide

/-- The lines in front of the sections are read. -/
theorem reads_session (hconfig : config.Clean) (hmids : ∀ mid ∈ offer.mids, IsWord mid)
    (hshort : ∀ line ∈ sessionLines config
      ("a=group:BUNDLE".toList ++ offer.mids.flatMap (' ' :: ·)),
      byteLength (stripReturn line) ≤ maxLineBytes) :
    ∃ origin attributes, SessionBuilder.Reads {}
      (sessionLines config ("a=group:BUNDLE".toList ++ offer.mids.flatMap (' ' :: ·)))
      ⟨some ['0'], some origin, some ['-'], some "0 0".toList, none, attributes, []⟩ := by
  obtain ⟨hlite, hgroup, hfingerprint⟩ := writable_session hconfig hmids
  rw [sessionLines_eq] at hshort ⊢
  simp only [List.forall_mem_cons, List.not_mem_nil, false_implies, implies_true, and_true] at hshort
  obtain ⟨h₁, h₂, h₃, h₄, h₅, h₆, h₇⟩ := hshort
  have hfield : ∀ {builder next : SessionBuilder} (first : Char) (value : Text),
      first.toNat < 128 → '\r' ∉ first :: '=' :: value →
      byteLength (stripReturn (first :: '=' :: value)) ≤ maxLineBytes →
      (∀ lineNumber, builder.applyLine lineNumber first value = .ok next) →
      SessionBuilder.Reads builder [first :: '=' :: value] next := by
    intro builder next first value hfirst hreturn hlength happly
    refine SessionBuilder.reads_line ?_ hlength fun lineNumber => ?_
    · rw [stripReturn_of_not_mem hreturn]
      exact List.cons_ne_nil _ _
    · rw [stripReturn_of_not_mem hreturn, SessionBuilder.parseLine, if_pos hfirst, happly]
  refine ⟨"- ".toList ++ numeral config.sessionId.toNat ++ " 2 IN IP4 0.0.0.0".toList,
    [trimmed (bare "ice-lite".toList), trimmed (valued "group" (bundleValue offer)),
      trimmed (valued "fingerprint" (config.fingerprintAlgorithm ++ ' ' :: config.fingerprint))], ?_⟩
  refine (hfield 'v' ['0'] (by decide) (by decide) h₁ fun _ => rfl).trans ?_
  refine (hfield 'o' _ (by decide) (not_mem_origin (.inr rfl) _) h₂ fun _ => rfl).trans ?_
  refine (hfield 's' ['-'] (by decide) (by decide) h₃ fun _ => rfl).trans ?_
  refine (hfield 't' "0 0".toList (by decide) (by decide) h₄ fun _ => rfl).trans ?_
  refine (SessionBuilder.reads_sessionAttribute hlite h₅ rfl).trans ?_
  refine (SessionBuilder.reads_sessionAttribute hgroup h₆ rfl).trans ?_
  exact SessionBuilder.reads_sessionAttribute hfingerprint h₇ rfl

theorem byteLength_written_le {lines : List Text}
    (hshort : ∀ line ∈ lines, byteLength (stripReturn line) ≤ maxLineBytes) :
    byteLength (written lines) ≤ lines.length * (maxLineBytes + 3) := by
  induction lines with
  | nil => exact Nat.le_refl 0
  | cons line rest ih =>
    rw [List.forall_mem_cons] at hshort
    have hline := byteLength_le_stripReturn line
    have hend : byteLength ['\r', '\n'] = 2 := by decide
    have hsplit : written (line :: rest) = line ++ ['\r', '\n'] ++ written rest := by
      simp [written]
    rw [hsplit, byteLength_append, byteLength_append, hend, List.length_cons, Nat.succ_mul]
    have hrest := ih hshort.2
    have hfirst := hshort.1
    omega

/-- The answer to an offer that has been parsed: if none of its lines is too long it is parsed again,
and its sections answer those of the offer one to one, in order. -/
theorem answer_corresponds {input answer : Text}
    (hoffer : SessionDescription.parse input = .ok offer) (hconfig : config.Clean)
    (hanswer : createSfuAnswer offer config = .ok answer)
    (hshort : ∀ line ∈ lines answer, byteLength (stripReturn line) ≤ maxLineBytes) :
    ∃ parsed, SessionDescription.parse answer = .ok parsed ∧
      List.Forall₂ (Corresponds config) offer.media parsed.media := by
  obtain ⟨hvalid, answers, hanswered, hwritten, hsize⟩ := createSfuAnswer_eq_ok.mp hanswer
  have hwords : ∀ media ∈ offer.media, ∃ mid, media.mid = some mid ∧ IsWord mid := by
    intro media hmedia
    obtain ⟨mid, hmid, hbundle, -⟩ := hvalid.sections media hmedia
    exact ⟨mid, hmid, isWord_of_mem_bundleMids hbundle⟩
  have hmids : ∀ mid ∈ offer.mids, IsWord mid := by
    intro mid hmid
    obtain ⟨media, hmedia, hsome⟩ := List.mem_filterMap.mp hmid
    obtain ⟨other, hother, hword⟩ := hwords media hmedia
    rw [hsome, Option.some.injEq] at hother
    exact hother ▸ hword
  have hprinted := printedAnswers hconfig hanswered (SessionDescription.parsed_of_parse hoffer) hwords
  -- the lines of the answer are those that were written
  have hlines : lines answer = answerLines offer config answers := by
    rw [hwritten]
    refine lines_written ?_
    unfold answerLines
    rw [List.forall_mem_append]
    refine ⟨?_, not_mem_answers hprinted⟩
    obtain ⟨hlite, hgroup, hfingerprint⟩ := writable_session hconfig hmids
    rw [sessionLines_eq]
    simp only [List.forall_mem_cons, List.not_mem_nil, false_implies, implies_true, and_true]
    exact ⟨by decide, not_mem_origin (.inl rfl) _, by decide, by decide,
      not_mem_attributeLine hlite, not_mem_attributeLine hgroup, not_mem_attributeLine hfingerprint⟩
  rw [hlines] at hshort
  have hshort' := hshort
  unfold answerLines at hshort
  rw [List.forall_mem_append] at hshort
  obtain ⟨origin, attributes, hsession⟩ := reads_session hconfig hmids hshort.1
  obtain ⟨answered, hcorresponds, hsections⟩ := reads_answers hprinted hshort.2
    ⟨some ['0'], some origin, some ['-'], some "0 0".toList, none, attributes, []⟩
  have hall := hsession.trans hsections
  have hlength : byteLength answer ≤ maxSdpBytes := by
    by_cases hmedia : offer.media = []
    · rw [hmedia] at hanswered
      cases hanswered
      rw [hwritten]
      have hcount : (answerLines offer config []).length = 7 := rfl
      refine (byteLength_written_le hshort').trans ?_
      rw [hcount]
      decide
    · exact hsize hmedia
  refine ⟨⟨['0'], origin, ['-'], "0 0".toList, none, attributes, answered⟩, ?_, hcorresponds⟩
  unfold SessionDescription.parse
  rw [if_neg (Nat.not_lt.mpr hlength), hlines]
  have hread := hall 1 []
  rw [List.append_nil] at hread
  unfold answerLines
  rw [hread]
  rfl

/-- An offer with a stopped video section, and with a carriage return too many behind a parameter. -/
def Sample.document : Text :=
  written ["v=0".toList, "o=- 1 1 IN IP4 0.0.0.0".toList, "s=-".toList, "t=0 0".toList,
    "a=group:BUNDLE 0 1".toList, "a=ice-ufrag:abcd".toList, "a=ice-pwd:secret".toList,
    "a=fingerprint:sha-256 CC:DD".toList, "a=setup:actpass".toList,
    "m=audio 9 UDP/TLS/RTP/SAVPF 111".toList, "a=mid:0".toList, "a=rtcp-mux".toList,
    "a=rtpmap:111 opus/48000/2".toList, "a=fmtp:111 minptime=10\r\r".toList,
    "m=video 0 UDP/TLS/RTP/SAVPF 96".toList, "a=mid:1".toList, "a=rtpmap:96 VP8/90000".toList]

/-- What is read of an answer to a document. -/
def answerTo (document : Text) (config : AnswerConfig) :
    Except SdpError (SessionDescription × Text × SessionDescription) := do
  let offer ← SessionDescription.parse document
  let answer ← createSfuAnswer offer config
  let parsed ← SessionDescription.parse answer
  return (offer, answer, parsed)

theorem clean_sample : Sample.configured.Clean where
  iceUfrag := by decide
  icePassword := by decide
  fingerprintAlgorithm := by decide
  fingerprint := by decide
  candidates := nofun
  audioCodecs := by decide
  videoCodecs := by decide
  extensionUris := nofun

theorem sample_answer_corresponds :
    ∃ offer answer parsed, SessionDescription.parse Sample.document = .ok offer ∧
      createSfuAnswer offer Sample.configured = .ok answer ∧
      SessionDescription.parse answer = .ok parsed ∧
      List.Forall₂ (Corresponds Sample.configured) offer.media parsed.media := by
  have hshort : (answerTo Sample.document Sample.configured).toOption.any
      (fun read => (lines read.2.1).all fun line =>
        byteLength (stripReturn line) ≤ maxLineBytes) = true := by
    decide +kernel
  cases hread : answerTo Sample.document Sample.configured with
  | error error =>
    rw [hread] at hshort
    cases hshort
  | ok read =>
    rw [hread] at hshort
    obtain ⟨offer, hoffer, hread⟩ := bind_eq_ok.mp hread
    obtain ⟨answer, hanswer, hread⟩ := bind_eq_ok.mp hread
    obtain ⟨parsed, -, hread⟩ := bind_eq_ok.mp hread
    cases hread
    have hlines : ∀ line ∈ lines answer, byteLength (stripReturn line) ≤ maxLineBytes := by
      simpa [Except.toOption] using hshort
    obtain ⟨parsed', hparsed', hcorresponds⟩ :=
      answer_corresponds hoffer clean_sample hanswer hlines
    exact ⟨offer, answer, parsed', hoffer, hanswer, hparsed', hcorresponds⟩

/-- The directions and the parameters of a payload type, section by section. -/
def Sample.outline (description : SessionDescription) : List (Direction × Option Text) :=
  description.media.map fun media =>
    (media.direction, media.attributeMap "fmtp".toList "111".toList)

/-- A rejected section has no direction, whatever was offered, and a parameter loses a carriage
return. -/
theorem answer_not_reciprocal :
    ∃ offer answer parsed, answerTo Sample.document Sample.configured = .ok (offer, answer, parsed) ∧
      Sample.outline offer = [(.sendRecv, some "minptime=10\r".toList), (.sendRecv, none)] ∧
      Sample.outline parsed = [(.sendRecv, some "minptime=10".toList), (.inactive, none)] := by
  have houtlines : (answerTo Sample.document Sample.configured).toOption.any (fun read =>
      Sample.outline read.1 = [(.sendRecv, some "minptime=10\r".toList), (.sendRecv, none)] ∧
        Sample.outline read.2.2 = [(.sendRecv, some "minptime=10".toList), (.inactive, none)]) =
      true := by
    decide +kernel
  cases hread : answerTo Sample.document Sample.configured with
  | error error =>
    rw [hread] at houtlines
    cases houtlines
  | ok read =>
    rw [hread] at houtlines
    exact ⟨_, _, _, rfl, of_decide_eq_true houtlines⟩

end Fluvora.Sdp

import Fluvora.Sdp.Answer

/-!
# Rejected media sections

A section that is offered with port 0 is answered with port 0 and the offered formats.  To say that
it is otherwise harmless the offer is compared with what is left of it without such sections
(`live`): both are answered, or neither, as long as the codecs of rejected RTP sections can be read,
every rejected section has a mid of its own in the offered BUNDLE group, and the whole answer is not
too large.  The BUNDLE group of an answer lists the mids of all sections.
-/

namespace Fluvora.Sdp

open Results Words

/-! ## The offer without its rejected sections -/

namespace SessionDescription

variable {offer : SessionDescription} {config : AnswerConfig}

/-- The mids of the sections. -/
def mids (offer : SessionDescription) : List Text := offer.media.filterMap MediaDescription.mid

def liveMedia (offer : SessionDescription) : List MediaDescription :=
  offer.media.filter fun media => media.port ≠ 0

/-- The mid is one of a rejected section only. -/
def Gone (offer : SessionDescription) (mid : Text) : Prop :=
  mid ∈ offer.mids ∧ mid ∉ offer.liveMedia.filterMap MediaDescription.mid

instance (offer : SessionDescription) (mid : Text) : Decidable (offer.Gone mid) :=
  inferInstanceAs (Decidable (_ ∧ _))

/-- A BUNDLE group without the mids of rejected sections. -/
def liveGroup (offer : SessionDescription) (value : Text) : Text :=
  match splitWhitespace value with
  | semantics :: mids =>
      if eqIgnoreAsciiCase semantics "BUNDLE".toList then
        joinWords (semantics :: mids.filter fun mid => ¬offer.Gone mid)
      else value
  | [] => value

def liveAttribute (offer : SessionDescription) (entry : Attribute) : Attribute :=
  if entry.name = "group".toList then { entry with value := entry.value.map offer.liveGroup }
  else entry

/-- The offer without its rejected sections. -/
def live (offer : SessionDescription) : SessionDescription :=
  { offer with
    attributes := offer.attributes.map offer.liveAttribute
    media := offer.liveMedia }

theorem name_liveAttribute (entry : Attribute) : (offer.liveAttribute entry).name = entry.name := by
  unfold liveAttribute
  split_ifs <;> rfl

theorem parseBundle_liveGroup (value : Text) :
    parseBundle (offer.liveGroup value) =
      (parseBundle value).map (List.filter fun mid => ¬offer.Gone mid) := by
  unfold liveGroup
  cases hwords : splitWhitespace value with
  | nil => simp [parseBundle, hwords]
  | cons semantics mids =>
    have hword : ∀ word ∈ semantics :: mids, IsWord word := by
      rw [← hwords]
      exact fun word hword => isWord_of_mem_splitWhitespace hword
    dsimp only
    split_ifs with hbundle
    · have hjoined : splitWhitespace (joinWords (semantics :: mids.filter fun mid => ¬offer.Gone mid)) =
          semantics :: mids.filter fun mid => ¬offer.Gone mid := by
        refine splitWhitespace_joinWords ?_
        rw [List.forall_mem_cons] at hword ⊢
        exact ⟨hword.1, fun word hmem => hword.2 word (List.mem_filter.mp hmem).1⟩
      rw [parseBundle, hjoined, parseBundle, hwords]
      dsimp only
      rw [if_pos hbundle, if_pos hbundle, Option.map_some]
    · rw [parseBundle, hwords]
      dsimp only
      rw [if_neg hbundle, Option.map_none]

theorem findSome?_live (attributes : List Attribute) :
    (valuesOf (attributes.map offer.liveAttribute) "group".toList).findSome? parseBundle =
      ((valuesOf attributes "group".toList).findSome? parseBundle).map
        (List.filter fun mid => ¬offer.Gone mid) := by
  unfold valuesOf
  induction attributes with
  | nil => rfl
  | cons entry attributes ih =>
    rw [List.map_cons, List.filter_cons, List.filter_cons]
    simp only [name_liveAttribute]
    split_ifs with hname
    · rw [List.filterMap_cons, List.filterMap_cons]
      have hname : entry.name = "group".toList := of_decide_eq_true hname
      unfold liveAttribute
      rw [if_pos hname]
      cases hvalue : entry.value with
      | none =>
        dsimp only [Option.map_none]
        rw [← ih]
        rfl
      | some value =>
        dsimp only [Option.map_some]
        rw [List.findSome?_cons, List.findSome?_cons, parseBundle_liveGroup]
        cases parseBundle value with
        | none => exact ih
        | some mids => rfl
    · exact ih

theorem bundleMids_live : offer.live.bundleMids = offer.bundleMids.filter fun mid => ¬offer.Gone mid := by
  unfold bundleMids live
  dsimp only
  rw [findSome?_live]
  cases (valuesOf offer.attributes "group".toList).findSome? parseBundle <;> rfl

theorem getAttribute_live {name : Text} (hname : name ≠ "group".toList) :
    offer.live.getAttribute name = offer.getAttribute name := by
  unfold getAttribute firstAttribute live
  dsimp only
  induction offer.attributes with
  | nil => rfl
  | cons entry attributes ih =>
    rw [List.map_cons, List.find?_cons, List.find?_cons, name_liveAttribute]
    by_cases hentry : entry.name = name
    · have hgroup : entry.name ≠ "group".toList := hentry ▸ hname
      rw [decide_eq_true hentry, liveAttribute, if_neg hgroup]
    · rw [decide_eq_false hentry]
      exact ih

theorem validateMedia_live (media : MediaDescription) (mid : Text) :
    offer.live.validateMedia media mid = offer.validateMedia media mid := by
  unfold validateMedia effectiveAttribute
  rw [getAttribute_live (by decide), getAttribute_live (by decide),
    getAttribute_live (by decide), getAttribute_live (by decide)]

/-! ## Valid offers -/

/-- The section has a mid in the group, and passes its own checks. -/
def SectionValid (offer : SessionDescription) (media : MediaDescription) : Prop :=
  ∃ mid, media.mid = some mid ∧ mid ∈ offer.bundleMids ∧ offer.validateMedia media mid = .ok ()

/-- What `validate_webrtc_offer` checks. -/
structure Valid (offer : SessionDescription) : Prop where
  sections : ∀ media ∈ offer.media, offer.SectionValid media
  nodup : offer.mids.Nodup
  known : ∀ mid ∈ offer.bundleMids, mid ∈ offer.mids

theorem validateSections_eq_ok {sections : List MediaDescription} {seen seen' : List Text} :
    offer.validateSections sections seen = .ok seen' ↔
      (∀ media ∈ sections, offer.SectionValid media) ∧
        (sections.filterMap MediaDescription.mid).Nodup ∧
        (∀ mid ∈ sections.filterMap MediaDescription.mid, mid ∉ seen) ∧
        seen' = (sections.filterMap MediaDescription.mid).reverse ++ seen := by
  induction sections generalizing seen with
  | nil => simp [validateSections, eq_comm]
  | cons media rest ih =>
    rw [validateSections, List.forall_mem_cons]
    cases hmid : media.mid with
    | none =>
      dsimp only
      refine iff_of_false (by simp) ?_
      rintro ⟨⟨⟨mid, hsome, -⟩, -⟩, -⟩
      rw [hmid] at hsome
      cases hsome
    | some mid =>
      dsimp only
      rw [ite_error_eq_ok, ite_error_eq_ok, bind_eq_ok, List.filterMap_cons_some hmid,
        List.nodup_cons, List.forall_mem_cons, List.reverse_cons, List.append_assoc,
        List.singleton_append, not_not]
      have hsection : offer.SectionValid media ↔
          mid ∈ offer.bundleMids ∧ offer.validateMedia media mid = .ok () := by
        unfold SectionValid
        rw [hmid]
        simp
      rw [hsection]
      constructor
      · rintro ⟨hseen, hbundle, ⟨⟩, hvalid, hrest⟩
        obtain ⟨hsections, hnodup, hfresh, hresult⟩ := ih.mp hrest
        refine ⟨⟨⟨hbundle, hvalid⟩, hsections⟩, ⟨?_, hnodup⟩, ⟨hseen, ?_⟩, hresult⟩
        · exact fun hmem => hfresh mid hmem List.mem_cons_self
        · exact fun other hother hmem => hfresh other hother (List.mem_cons_of_mem _ hmem)
      · rintro ⟨⟨⟨hbundle, hvalid⟩, hsections⟩, ⟨hmem, hnodup⟩, ⟨hseen, hfresh⟩, hresult⟩
        refine ⟨hseen, hbundle, (), hvalid, ih.mpr ⟨hsections, hnodup, ?_, hresult⟩⟩
        intro other hother hother'
        rcases List.mem_cons.mp hother' with rfl | hother'
        · exact hmem hother
        · exact hfresh other hother hother'

theorem validateWebrtcOffer_eq_ok : offer.validateWebrtcOffer = .ok () ↔ offer.Valid := by
  unfold validateWebrtcOffer
  rw [bind_eq_ok]
  constructor
  · rintro ⟨seen, hseen, hknown⟩
    obtain ⟨hsections, hnodup, -, rfl⟩ := validateSections_eq_ok.mp hseen
    refine ⟨hsections, hnodup, fun mid hmid => ?_⟩
    split at hknown
    · cases hknown
    · next hfind =>
      have hmem := List.find?_eq_none.mp hfind mid hmid
      simpa [mids] using hmem
  · rintro ⟨hsections, hnodup, hknown⟩
    refine ⟨_, validateSections_eq_ok.mpr ⟨hsections, hnodup, by simp, rfl⟩, ?_⟩
    have hfind : offer.bundleMids.find?
        (· ∉ (offer.media.filterMap MediaDescription.mid).reverse ++ []) = none := by
      rw [List.find?_eq_none]
      intro mid hmid
      simpa [mids] using hknown mid hmid
    rw [hfind]

/-- Every rejected section is in the offered BUNDLE group, under a mid of its own. -/
structure RejectedBundled (offer : SessionDescription) : Prop where
  bundled : ∀ media ∈ offer.media, media.port = 0 → ∃ mid ∈ offer.bundleMids, media.mid = some mid
  nodup : offer.mids.Nodup

theorem mem_live {media : MediaDescription} :
    media ∈ offer.live.media ↔ media ∈ offer.media ∧ media.port ≠ 0 := by
  simp [live, liveMedia]

theorem mids_live_sublist : offer.live.mids.Sublist offer.mids :=
  List.Sublist.filterMap _ List.filter_sublist

/-- An offer is valid exactly if the rest of it is, and its rejected sections are bundled. -/
theorem valid_iff_live : offer.Valid ↔ offer.live.Valid ∧ offer.RejectedBundled := by
  constructor
  · rintro ⟨hsections, hnodup, hknown⟩
    refine ⟨⟨?_, hnodup.sublist mids_live_sublist, ?_⟩, ?_, hnodup⟩
    · intro media hmedia
      obtain ⟨mid, hmid, hbundle, hvalid⟩ := hsections media (mem_live.mp hmedia).1
      refine ⟨mid, hmid, ?_, by rw [validateMedia_live, hvalid]⟩
      rw [bundleMids_live, List.mem_filter, decide_eq_true_eq]
      exact ⟨hbundle, fun hgone => hgone.2 (List.mem_filterMap.mpr ⟨media, hmedia, hmid⟩)⟩
    · intro mid hmid
      rw [bundleMids_live, List.mem_filter, decide_eq_true_eq] at hmid
      by_contra hnot
      exact hmid.2 ⟨hknown mid hmid.1, hnot⟩
    · intro media hmedia _
      obtain ⟨mid, hmid, hbundle, -⟩ := hsections media hmedia
      exact ⟨mid, hbundle, hmid⟩
  · rintro ⟨⟨hsections, -, hknown⟩, hbundled, hnodup⟩
    refine ⟨?_, hnodup, ?_⟩
    · intro media hmedia
      by_cases hport : media.port = 0
      · obtain ⟨mid, hbundle, hmid⟩ := hbundled media hmedia hport
        exact ⟨mid, hmid, hbundle, by rw [validateMedia, if_pos hport]⟩
      · obtain ⟨mid, hmid, hbundle, hvalid⟩ := hsections media (mem_live.mpr ⟨hmedia, hport⟩)
        rw [bundleMids_live, List.mem_filter] at hbundle
        rw [validateMedia_live] at hvalid
        exact ⟨mid, hmid, hbundle.1, hvalid⟩
    · intro mid hmid
      by_cases hgone : offer.Gone mid
      · exact hgone.1
      · refine mids_live_sublist.subset (hknown mid ?_)
        rw [bundleMids_live, List.mem_filter, decide_eq_true_eq]
        exact ⟨hmid, hgone⟩

end SessionDescription

/-! ## Answered sections -/

open SessionDescription

variable {offer : SessionDescription} {config : AnswerConfig}

/-- The lines answer the sections one by one. -/
def Answered (config : AnswerConfig) (sections : List MediaDescription)
    (answers : List (List Text)) : Prop :=
  List.Forall₂ (fun media lines => writeMediaAnswer media config = .ok lines) sections answers

theorem exists_answered_iff {sections : List MediaDescription} :
    (∃ answers, Answered config sections answers) ↔
      ∀ media ∈ sections, ∃ lines, writeMediaAnswer media config = .ok lines := by
  induction sections with
  | nil => exact ⟨fun _ => by simp, fun _ => ⟨[], .nil⟩⟩
  | cons media rest ih =>
    rw [List.forall_mem_cons, ← ih]
    constructor
    · rintro ⟨_, _ | ⟨hfirst, hrest⟩⟩
      exact ⟨⟨_, hfirst⟩, _, hrest⟩
    · rintro ⟨⟨lines, hfirst⟩, answers, hrest⟩
      exact ⟨lines :: answers, .cons hfirst hrest⟩

theorem Answered.eq {sections : List MediaDescription} {answers answers' : List (List Text)}
    (h : Answered config sections answers) (h' : Answered config sections answers') :
    answers = answers' := by
  induction h generalizing answers' with
  | nil =>
    cases h'
    rfl
  | cons hfirst hrest ih =>
    cases h' with
    | cons hfirst' hrest' =>
      rw [hfirst] at hfirst'
      cases hfirst'
      rw [ih hrest']

theorem written_append (lines more : List Text) : written (lines ++ more) = written lines ++ written more :=
  List.flatMap_append

/-- The loop writes all the answers, unless they are too large together. -/
theorem writeMediaAnswers_eq_ok {sections : List MediaDescription} {output result : List Text} :
    writeMediaAnswers config sections output = .ok result ↔
      ∃ answers, Answered config sections answers ∧ result = output ++ answers.flatten ∧
        (sections ≠ [] → byteLength (written result) ≤ maxAnswerBytes) := by
  induction sections generalizing output with
  | nil =>
    rw [writeMediaAnswers]
    constructor
    · intro h
      cases h
      exact ⟨[], .nil, by simp, fun h => absurd rfl h⟩
    · rintro ⟨answers, ⟨⟩, rfl, -⟩
      simp
  | cons media rest ih =>
    rw [writeMediaAnswers, bind_eq_ok]
    constructor
    · rintro ⟨lines, hlines, h⟩
      rw [ite_error_eq_ok, ih] at h
      obtain ⟨hsize, answers, hanswers, rfl, hrest⟩ := h
      refine ⟨lines :: answers, .cons hlines hanswers, by simp, fun _ => ?_⟩
      cases rest with
      | nil =>
        cases hanswers
        simpa using Nat.not_lt.mp hsize
      | cons next rest => exact hrest (List.cons_ne_nil _ _)
    · rintro ⟨_, hanswered, rfl, hsize⟩
      have hsize := hsize (List.cons_ne_nil _ _)
      obtain _ | @⟨_, lines, _, answers, hlines, hanswers⟩ := hanswered
      refine ⟨lines, hlines, ?_⟩
      rw [ite_error_eq_ok, ih, List.flatten_cons, ← List.append_assoc]
      rw [List.flatten_cons, ← List.append_assoc] at hsize
      refine ⟨?_, answers, hanswers, rfl, fun _ => hsize⟩
      rw [written_append, byteLength_append] at hsize
      omega

/-- The BUNDLE line lists the mids of all sections. -/
theorem writeBundleLine_eq_ok {line : Text} :
    writeBundleLine offer = .ok line ↔
      (∀ media ∈ offer.media, media.mid ≠ none) ∧
        line = "a=group:BUNDLE".toList ++ offer.mids.flatMap (' ' :: ·) := by
  have hmembers : ∀ {sections : List MediaDescription} {members : Text},
      bundleMembers sections = .ok members ↔ (∀ media ∈ sections, media.mid ≠ none) ∧
        members = (sections.filterMap MediaDescription.mid).flatMap (' ' :: ·) := by
    intro sections
    induction sections with
    | nil => simp [bundleMembers, eq_comm]
    | cons media rest ih =>
      intro members
      rw [bundleMembers, List.forall_mem_cons]
      cases hmid : media.mid with
      | none =>
        dsimp only
        exact iff_of_false (by simp) fun h => h.1.1 rfl
      | some mid =>
        dsimp only
        rw [bind_eq_ok, List.filterMap_cons_some hmid, List.flatMap_cons]
        constructor
        · rintro ⟨more, hmore, h⟩
          obtain ⟨hrest, rfl⟩ := ih.mp hmore
          cases h
          exact ⟨⟨by simp, hrest⟩, rfl⟩
        · rintro ⟨⟨-, hrest⟩, rfl⟩
          exact ⟨_, ih.mpr ⟨hrest, rfl⟩, rfl⟩
  unfold writeBundleLine
  rw [bind_eq_ok]
  constructor
  · rintro ⟨members, h, hline⟩
    obtain ⟨hmids, rfl⟩ := hmembers.mp h
    cases hline
    exact ⟨hmids, rfl⟩
  · rintro ⟨hmids, rfl⟩
    exact ⟨_, hmembers.mpr ⟨hmids, rfl⟩, rfl⟩

/-- All lines of an answer. -/
def answerLines (offer : SessionDescription) (config : AnswerConfig) (answers : List (List Text)) :
    List Text :=
  sessionLines config ("a=group:BUNDLE".toList ++ offer.mids.flatMap (' ' :: ·)) ++ answers.flatten

/-- When an offer is answered, and how. -/
theorem createSfuAnswer_eq_ok {answer : Text} :
    createSfuAnswer offer config = .ok answer ↔
      offer.Valid ∧ ∃ answers, Answered config offer.media answers ∧
        answer = written (answerLines offer config answers) ∧
        (offer.media ≠ [] → byteLength answer ≤ maxAnswerBytes) := by
  unfold createSfuAnswer
  rw [bind_eq_ok]
  constructor
  · rintro ⟨⟨⟩, hvalid, h⟩
    rw [bind_eq_ok] at h
    obtain ⟨line, hline, h⟩ := h
    obtain ⟨output, houtput, h⟩ := bind_eq_ok.mp h
    cases h
    obtain ⟨-, rfl⟩ := writeBundleLine_eq_ok.mp hline
    obtain ⟨answers, hanswers, rfl, hsize⟩ := writeMediaAnswers_eq_ok.mp houtput
    exact ⟨validateWebrtcOffer_eq_ok.mp hvalid, answers, hanswers, rfl, hsize⟩
  · rintro ⟨hvalid, answers, hanswers, rfl, hsize⟩
    refine ⟨(), validateWebrtcOffer_eq_ok.mpr hvalid, ?_⟩
    rw [bind_eq_ok]
    have hmids : ∀ media ∈ offer.media, media.mid ≠ none := by
      intro media hmedia
      obtain ⟨mid, hmid, -⟩ := hvalid.sections media hmedia
      simp [hmid]
    refine ⟨_, writeBundleLine_eq_ok.mpr ⟨hmids, rfl⟩, ?_⟩
    exact bind_eq_ok.mpr ⟨_, writeMediaAnswers_eq_ok.mpr ⟨answers, hanswers, rfl, hsize⟩, rfl⟩

/-- A rejected section is answered with a rejection, if its codecs can be read. -/
theorem writeMediaAnswer_rejected {media : MediaDescription} (hport : media.port = 0) {mid : Text}
    (hmid : media.mid = some mid) {lines : List Text} :
    writeMediaAnswer media config = .ok lines ↔
      (media.kind.isRtp = true → media.codecs.isOk = true) ∧ lines = writeRejectedMedia media mid := by
  have hrtp : (∃ codecs, capabilities config media.kind = some codecs) →
      ((selectCodecs media config >>= fun selected =>
        if media.port = 0 ∨ selected = [] then pure (writeRejectedMedia media mid)
        else writeRtpMedia media mid selected config) = .ok lines ↔
      media.codecs.isOk = true ∧ lines = writeRejectedMedia media mid) := by
    rintro ⟨codecs, hcodecs⟩
    unfold selectCodecs
    cases media.codecs with
    | error error =>
      rw [bind_error, bind_error]
      constructor
      · intro h
        cases h
      · rintro ⟨h, -⟩
        cases h
    | ok offered =>
      rw [bind_ok, hcodecs]
      dsimp only
      rw [if_neg fun h => h.2 hport, pure_bind, if_pos (.inl hport), pure_eq_ok]
      simp [Except.isOk, Except.toBool, eq_comm]
  unfold writeMediaAnswer
  rw [hmid]
  cases hkind : media.kind with
  | audio =>
    dsimp only
    rw [hrtp (by rw [hkind]; exact ⟨_, rfl⟩)]
    simp [MediaKind.isRtp]
  | video =>
    dsimp only
    rw [hrtp (by rw [hkind]; exact ⟨_, rfl⟩)]
    simp [MediaKind.isRtp]
  | application =>
    dsimp only
    rw [if_neg fun h => h.2 hport, Except.ok.injEq]
    simp only [MediaKind.isRtp, Bool.false_eq_true, false_implies, true_and]
    exact eq_comm
  | other value =>
    dsimp only
    rw [Except.ok.injEq]
    simp only [MediaKind.isRtp, Bool.false_eq_true, false_implies, true_and]
    exact eq_comm

/-- Without rejected sections an answer only gets shorter. -/
theorem exists_answered_live {answers : List (List Text)}
    (h : Answered config offer.media answers) :
    ∃ live, Answered config offer.live.media live ∧ live.Sublist answers := by
  have hsections : ∀ {sections : List MediaDescription} {answers : List (List Text)},
      Answered config sections answers → ∃ live,
        Answered config (sections.filter fun media => media.port ≠ 0) live ∧ live.Sublist answers := by
    intro sections answers h
    induction h with
    | nil => exact ⟨[], .nil, .slnil⟩
    | @cons media lines rest answers hfirst hrest ih =>
      obtain ⟨live, hlive, hsub⟩ := ih
      by_cases hport : media.port = 0
      · rw [List.filter_cons_of_neg (by simp [hport])]
        exact ⟨live, hlive, hsub.cons lines⟩
      · rw [List.filter_cons_of_pos (by simp [hport])]
        exact ⟨lines :: live, .cons hfirst hlive, hsub.cons_cons lines⟩
  exact hsections h

theorem written_sublist {lines more : List Text} (h : lines.Sublist more) :
    (written lines).Sublist (written more) := by
  rw [written, written, List.flatMap_def, List.flatMap_def]
  exact (h.map _).flatten

theorem byteLength_live {answers live : List (List Text)} (h : live.Sublist answers) :
    byteLength (written (answerLines offer.live config live)) ≤
      byteLength (written (answerLines offer config answers)) := by
  have hmids : (offer.live.mids.flatMap (' ' :: ·)).Sublist (offer.mids.flatMap (' ' :: ·)) := by
    rw [List.flatMap_def, List.flatMap_def]
    exact (mids_live_sublist.map _).flatten
  have hsections := byteLength_le_of_sublist (written_sublist h.flatten)
  have hmids := byteLength_le_of_sublist hmids
  unfold answerLines sessionLines written at *
  simp only [List.flatMap_append, List.flatMap_cons, List.flatMap_nil, byteLength_append] at *
  omega

/-- The whole answer is not too large. -/
def Fits (offer : SessionDescription) (config : AnswerConfig) : Prop :=
  offer.media ≠ [] → ∀ answers, Answered config offer.media answers →
    byteLength (written (answerLines offer config answers)) ≤ maxAnswerBytes

/-- An offer is answered exactly if the rest of it is, its rejected sections are bundled and the
answer is not too large. -/
theorem exists_answer_iff_live
    (hcodecs : ∀ media ∈ offer.media, media.port = 0 → media.kind.isRtp = true →
      media.codecs.isOk = true) :
    (∃ answer, createSfuAnswer offer config = .ok answer) ↔
      (∃ answer, createSfuAnswer offer.live config = .ok answer) ∧ offer.RejectedBundled ∧
        Fits offer config := by
  simp only [createSfuAnswer_eq_ok]
  constructor
  · rintro ⟨answer, hvalid, answers, hanswers, rfl, hsize⟩
    obtain ⟨hlive, hbundled⟩ := valid_iff_live.mp hvalid
    obtain ⟨liveAnswers, hliveAnswers, hsub⟩ := exists_answered_live hanswers
    refine ⟨⟨_, hlive, liveAnswers, hliveAnswers, rfl, fun hne => ?_⟩, hbundled, ?_⟩
    · refine (byteLength_live hsub).trans (hsize ?_)
      intro hnil
      simp [live, liveMedia, hnil] at hne
    · intro hne other hother
      rw [← hanswers.eq hother]
      exact hsize hne
  · rintro ⟨⟨answer, hlive, liveAnswers, hliveAnswers, -, -⟩, hbundled, hfits⟩
    obtain ⟨answers, hanswers⟩ : ∃ answers, Answered config offer.media answers := by
      rw [exists_answered_iff]
      intro media hmedia
      by_cases hport : media.port = 0
      · obtain ⟨mid, -, hmid⟩ := hbundled.bundled media hmedia hport
        exact ⟨_, (writeMediaAnswer_rejected hport hmid).mpr ⟨hcodecs media hmedia hport, rfl⟩⟩
      · exact exists_answered_iff.mp ⟨liveAnswers, hliveAnswers⟩ media
          (mem_live.mpr ⟨hmedia, hport⟩)
    exact ⟨_, valid_iff_live.mpr ⟨hlive, hbundled⟩, answers, hanswers, rfl,
      fun hne => hfits hne answers hanswers⟩

theorem rejections_of_answered {sections : List MediaDescription} {answers : List (List Text)}
    (h : Answered config sections answers) (hmids : ∀ media ∈ sections, ∃ mid, media.mid = some mid) :
    List.Forall₂ (fun media lines => media.port = 0 → lines =
      ["m=".toList ++ media.kind.asStr ++ " 0 ".toList ++ media.protocol ++
          ' ' :: joinWords media.formats, "c=IN IP4 0.0.0.0".toList,
        "a=mid:".toList ++ media.mid.getD [], "a=inactive".toList]) sections answers := by
  induction h with
  | nil => exact .nil
  | cons hfirst hrest ih =>
    rw [List.forall_mem_cons] at hmids
    obtain ⟨mid, hmid⟩ := hmids.1
    refine .cons (fun hport => ?_) (ih hmids.2)
    rw [((writeMediaAnswer_rejected hport hmid).mp hfirst).2, hmid]
    simp [writeRejectedMedia, sectionLines, mediaLine, attributeLine, valued, bare]

/-- Rejected sections: each is answered with port 0, its offered formats, its mid and no direction;
the BUNDLE group of an answer lists the mids of all sections in order; and as long as the codecs of
rejected RTP sections can be read, an offer is answered exactly if the rest of it is, its rejected
sections are bundled under mids of their own, and the answer is not too large. -/
theorem rejected_sections (offer : SessionDescription) (config : AnswerConfig) :
    (∀ answer, createSfuAnswer offer config = .ok answer →
      ∃ answers, answer = written (answerLines offer config answers) ∧
        (∀ media ∈ offer.media, media.mid ≠ none) ∧
        List.Forall₂ (fun media lines => media.port = 0 → lines =
          ["m=".toList ++ media.kind.asStr ++ " 0 ".toList ++ media.protocol ++
              ' ' :: joinWords media.formats, "c=IN IP4 0.0.0.0".toList,
            "a=mid:".toList ++ media.mid.getD [], "a=inactive".toList]) offer.media answers) ∧
    ((∀ media ∈ offer.media, media.port = 0 → media.kind.isRtp = true →
        media.codecs.isOk = true) →
      ((∃ answer, createSfuAnswer offer config = .ok answer) ↔
        (∃ answer, createSfuAnswer offer.live config = .ok answer) ∧ offer.RejectedBundled ∧
          Fits offer config)) := by
  refine ⟨fun answer h => ?_, exists_answer_iff_live⟩
  obtain ⟨hvalid, answers, hanswers, rfl, -⟩ := createSfuAnswer_eq_ok.mp h
  have hmids : ∀ media ∈ offer.media, ∃ mid, media.mid = some mid := by
    intro media hmedia
    obtain ⟨mid, hmid, -⟩ := hvalid.sections media hmedia
    exact ⟨mid, hmid⟩
  refine ⟨answers, rfl, fun media hmedia => ?_, ?_⟩
  · obtain ⟨mid, hmid⟩ := hmids media hmedia
    simp [hmid]
  · exact rejections_of_answered hanswers hmids

/-! ## Rejected sections and the BUNDLE group -/

/-- The section is accepted: it is offered with a port, and it is RTP or a data channel that the
configuration accepts. -/
def Accepted (config : AnswerConfig) (media : MediaDescription) : Prop :=
  media.port ≠ 0 ∧ (media.kind.isRtp = true ∨
    media.kind = .application ∧ config.acceptDataChannel = true)

instance (config : AnswerConfig) (media : MediaDescription) : Decidable (Accepted config media) :=
  inferInstanceAs (Decidable (_ ∧ _))

/-- Rejected sections neither decide whether an offer is answered, nor are they in the BUNDLE group of
the answer. -/
def Harmless (offer : SessionDescription) (config : AnswerConfig) : Prop :=
  ((∃ answer, createSfuAnswer offer config = .ok answer) ↔
    ∃ answer, createSfuAnswer offer.live config = .ok answer) ∧
  ∀ answer, createSfuAnswer offer config = .ok answer →
    "a=group:BUNDLE".toList ++ ((offer.media.filter fun media => Accepted config media).filterMap
      MediaDescription.mid).flatMap (' ' :: ·) ∈ Lines.lines answer

def Sample.configured : AnswerConfig where
  sessionId := 1
  iceUfrag := "ufrag".toList
  icePassword := "password".toList
  fingerprintAlgorithm := "sha-256".toList
  fingerprint := "AA:BB".toList
  candidates := []
  audioCodecs := [⟨"opus".toList, 48000, 2⟩]
  videoCodecs := [⟨"VP8".toList, 90000, 1⟩]
  extensionUris := []
  acceptDataChannel := false

def Sample.audio : MediaDescription where
  kind := .audio
  port := 9
  protocol := "UDP/TLS/RTP/SAVPF".toList
  formats := ["111".toList]
  connection := none
  attributes := [valued "mid" ['0'], bare "rtcp-mux".toList,
    valued "rtpmap" "111 opus/48000/2".toList]

/-- A video section that has been stopped. -/
def Sample.stopped : MediaDescription where
  kind := .video
  port := 0
  protocol := "UDP/TLS/RTP/SAVPF".toList
  formats := ["96".toList]
  connection := none
  attributes := [valued "mid" ['1'], valued "rtpmap" "96 VP8/90000".toList]

/-- An audio section and a stopped one, with a BUNDLE group. -/
def Sample.offering (group : String) : SessionDescription where
  version := ['0']
  origin := "- 1 1 IN IP4 0.0.0.0".toList
  sessionName := ['-']
  timing := "0 0".toList
  connection := none
  attributes := [valued "group" group.toList, valued "ice-ufrag" "abcd".toList,
    valued "ice-pwd" "secret".toList, valued "fingerprint" "sha-256 CC:DD".toList,
    valued "setup" "actpass".toList]
  media := [Sample.audio, Sample.stopped]

/-- The mid of a rejected section is in the BUNDLE group of the answer, and a rejected section that is
not in the offered group makes the offer fail. -/
theorem rejected_section_bundled :
    ¬Harmless (Sample.offering "BUNDLE 0 1") Sample.configured ∧
    ¬Harmless (Sample.offering "BUNDLE 0") Sample.configured := by
  constructor
  · rintro ⟨-, hbundle⟩
    have hlisted : (createSfuAnswer (Sample.offering "BUNDLE 0 1") Sample.configured).toOption.any
        (fun answer => "a=group:BUNDLE 0".toList ∉ Lines.lines answer) = true := by
      decide +kernel
    cases hanswer : createSfuAnswer (Sample.offering "BUNDLE 0 1") Sample.configured with
    | error error =>
      rw [hanswer] at hlisted
      cases hlisted
    | ok answer =>
      rw [hanswer] at hlisted
      have hmids : "a=group:BUNDLE".toList ++ (((Sample.offering "BUNDLE 0 1").media.filter
          fun media => Accepted Sample.configured media).filterMap
            MediaDescription.mid).flatMap (' ' :: ·) = "a=group:BUNDLE 0".toList := by
        decide
      have hmem := hbundle answer hanswer
      rw [hmids] at hmem
      exact of_decide_eq_true hlisted hmem
  · rintro ⟨hiff, -⟩
    have hlive : (createSfuAnswer (Sample.offering "BUNDLE 0").live Sample.configured).isOk = true := by
      decide +kernel
    have hwhole : (createSfuAnswer (Sample.offering "BUNDLE 0") Sample.configured).isOk = false := by
      decide
    cases hanswer : createSfuAnswer (Sample.offering "BUNDLE 0").live Sample.configured with
    | error error =>
      rw [hanswer] at hlive
      cases hlive
    | ok answer =>
      obtain ⟨whole, hok⟩ := hiff.mpr ⟨answer, hanswer⟩
      rw [hok] at hwhole
      cases hwhole

end Fluvora.Sdp

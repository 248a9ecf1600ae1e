import Fluvora.Sdp.Parser
import Fluvora.Sdp.Rejected

/-!
# Answers are read back

An answer that is written line by line is parsed line by line: each of its lines is read on its own,
without a carriage return that its text may end in (`trimmed`).  The sections of the answer are those
of the offer, in order, with the same kind, protocol and mid (`Corresponds`); accepted ones have the
reciprocal direction and, if they are RTP, exactly the codecs that the SFU can forward and the RTX
codecs for them; rejected ones have port 0, the offered formats and no direction.
-/

namespace Fluvora.Sdp

open Lines Results Words

/-! ## Lines without a carriage return -/

theorem stripReturn_append {back : Text} (h : back ≠ []) (front : Text) :
    stripReturn (front ++ back) = front ++ stripReturn back := by
  unfold stripReturn
  rw [List.getLast?_append_of_ne_nil _ h]
  split_ifs
  · exact List.dropLast_append_of_ne_nil h
  · rfl

theorem stripReturn_of_not_mem {line : Text} (h : '\r' ∉ line) : stripReturn line = line := by
  rw [stripReturn, if_neg fun hlast => h (List.mem_of_getLast? hlast)]

theorem stripReturn_cons {c : Char} (hc : c ≠ '\r') (line : Text) :
    stripReturn (c :: line) = c :: stripReturn line := by
  by_cases hline : line = []
  · subst hline
    exact stripReturn_of_not_mem (by simpa using Ne.symm hc)
  · exact stripReturn_append hline [c]

theorem byteLength_le_stripReturn (line : Text) :
    byteLength line ≤ byteLength (stripReturn line) + 1 := by
  unfold stripReturn
  split_ifs with hlast
  · conv_lhs => rw [← List.dropLast_append_getLast? _ hlast]
    rw [byteLength_append]
    exact Nat.add_le_add_left (by decide) _
  · omega

/-- A text that is written line by line is read line by line. -/
theorem lines_written {written : List Text} (h : ∀ line ∈ written, '\n' ∉ line) :
    lines (Sdp.written written) = written := by
  induction written with
  | nil => rfl
  | cons line rest ih =>
    rw [List.forall_mem_cons] at h
    have hline : Sdp.written (line :: rest) = (line ++ ['\r']) ++ '\n' :: Sdp.written rest := by
      simp [Sdp.written]
    rw [hline, lines_append, List.append_assoc, List.singleton_append,
      (lines_of_not_mem h.1).2, ih h.2]
    rfl

/-! ## Attributes -/

/-- An attribute as it is read: without a carriage return at the end of its value. -/
def trimmed (entry : Attribute) : Attribute := { entry with value := entry.value.map stripReturn }

/-- The name of an attribute that can be written on a line. -/
def PlainName (name : Text) : Prop := name ≠ [] ∧ ':' ∉ name ∧ '\n' ∉ name ∧ '\r' ∉ name

instance (name : Text) : Decidable (PlainName name) := inferInstanceAs (Decidable (_ ∧ _))

/-- The attribute can be written on a line. -/
structure Writable (entry : Attribute) : Prop where
  name : PlainName entry.name
  value : ∀ value ∈ entry.value, '\n' ∉ value

theorem attributePrefix : "a=".toList = ['a', '='] := by decide

theorem not_mem_attributeLine {entry : Attribute} (h : Writable entry) :
    '\n' ∉ attributeLine entry := by
  obtain ⟨⟨-, -, hname, -⟩, hvalue⟩ := h
  rw [attributeLine, attributePrefix]
  cases hentry : entry.value with
  | none => simpa using hname
  | some value =>
    have hvalue := hvalue value hentry
    simp [hname, hvalue]

/-- The text of an attribute line, and what is read of it. -/
theorem stripReturn_attributeLine {entry : Attribute} (h : Writable entry) :
    ∃ text, stripReturn (attributeLine entry) = 'a' :: '=' :: text ∧
      SessionBuilder.splitAttribute text = trimmed entry := by
  obtain ⟨⟨-, hcolon, -, hreturn⟩, -⟩ := h
  rw [attributeLine, attributePrefix]
  obtain ⟨name, _ | value⟩ := entry
  · refine ⟨name, ?_, ?_⟩
    · rw [stripReturn_of_not_mem (by simpa using hreturn)]
      simp
    · rw [SessionBuilder.splitAttribute, splitOnce_of_not_mem hcolon]
      rfl
  · refine ⟨name ++ ':' :: stripReturn value, ?_, ?_⟩
    · show stripReturn (['a', '='] ++ name ++ ':' :: value) = _
      rw [stripReturn_append (List.cons_ne_nil _ _), stripReturn_cons (by decide)]
      simp
    · rw [SessionBuilder.splitAttribute, splitOnce_append hcolon]
      rfl

theorem name_trimmed (entry : Attribute) : (trimmed entry).name = entry.name := rfl

namespace SessionBuilder

variable {builder next last : SessionBuilder}

/-- The parser gets from one builder to the other over these lines, whatever their numbers are. -/
def Reads (builder : SessionBuilder) (lines : List Text) (next : SessionBuilder) : Prop :=
  ∀ lineNumber rest, builder.parseLines lineNumber (lines ++ rest) =
    next.parseLines (lineNumber + lines.length) rest

theorem Reads.refl (builder : SessionBuilder) : Reads builder [] builder := fun _ _ => rfl

theorem Reads.trans {lines more : List Text} (h : Reads builder lines next)
    (h' : Reads next more last) : Reads builder (lines ++ more) last := by
  intro lineNumber rest
  rw [List.append_assoc, h, h', List.length_append, Nat.add_assoc]

theorem reads_line {line : Text} (hne : stripReturn line ≠ [])
    (hshort : byteLength (stripReturn line) ≤ maxLineBytes)
    (hparse : ∀ lineNumber, builder.parseLine lineNumber (stripReturn line) = .ok next) :
    Reads builder [line] next := by
  intro lineNumber rest
  rw [List.singleton_append, parseLines, if_neg hne, if_neg (Nat.not_lt.mpr hshort), hparse, bind_ok]
  rfl

/-- An attribute in front of the first media section. -/
theorem reads_sessionAttribute {entry : Attribute} (h : Writable entry)
    (hshort : byteLength (stripReturn (attributeLine entry)) ≤ maxLineBytes)
    (hmedia : builder.media = []) :
    Reads builder [attributeLine entry]
      { builder with attributes := builder.attributes ++ [trimmed entry] } := by
  obtain ⟨text, hline, hsplit⟩ := stripReturn_attributeLine h
  refine reads_line (by simp [hline]) hshort fun lineNumber => ?_
  rw [hline]
  show builder.pushAttribute text = _
  unfold pushAttribute
  dsimp only
  rw [hsplit, name_trimmed, if_neg h.name.1, hmedia]
  rfl

theorem withLast_append (front : List MediaDescription) (media media' : MediaDescription) :
    ({ builder with media := front ++ [media] } : SessionBuilder).withLast media' =
      { builder with media := front ++ [media'] } := by
  unfold withLast
  rw [List.dropLast_concat]

/-- The attributes of the last media section. -/
theorem reads_mediaAttributes (builder : SessionBuilder) {entries : List Attribute} (h : ∀ entry ∈ entries, Writable entry)
    (hshort : ∀ entry ∈ entries, byteLength (stripReturn (attributeLine entry)) ≤ maxLineBytes)
    (front : List MediaDescription) (media : MediaDescription) :
    Reads { builder with media := front ++ [media] } (entries.map attributeLine)
      { builder with media := front ++
        [{ media with attributes := media.attributes ++ entries.map trimmed }] } := by
  induction entries generalizing media with
  | nil =>
    simp only [List.map_nil, List.append_nil]
    exact .refl _
  | cons entry entries ih =>
    rw [List.forall_mem_cons] at h hshort
    have hfirst : Reads { builder with media := front ++ [media] } [attributeLine entry]
        { builder with media := front ++
          [{ media with attributes := media.attributes ++ [trimmed entry] }] } := by
      obtain ⟨text, hline, hsplit⟩ := stripReturn_attributeLine h.1
      refine reads_line (by simp [hline]) hshort.1 fun lineNumber => ?_
      rw [hline]
      show pushAttribute _ text = _
      unfold pushAttribute
      dsimp only
      rw [hsplit, name_trimmed, if_neg h.1.name.1, List.getLast?_concat]
      dsimp only
      rw [withLast_append]
    have hrest := ih h.2 hshort.2 { media with attributes := media.attributes ++ [trimmed entry] }
    rw [List.map_cons, List.map_cons]
    have hall := hfirst.trans hrest
    simp only [List.append_assoc, List.singleton_append] at hall
    exact hall

end SessionBuilder

/-! ## Sections -/

/-- The section is written under its own kind and protocol, with this port, these formats and these
attributes. -/
structure Printed (media : MediaDescription) (port : UInt16) (formats : List Text)
    (attributes : List Attribute) (lines : List Text) : Prop where
  lines : lines = sectionLines
    (mediaLine media (numeral port.toNat) (' ' :: joinWords formats)) attributes
  formats_ne_nil : formats ≠ []
  formats : ∀ format ∈ formats, IsWord format
  attributes : ∀ entry ∈ attributes, Writable entry

/-- The section as it is read. -/
def readSection (media : MediaDescription) (port : UInt16) (formats : List Text)
    (attributes : List Attribute) : MediaDescription where
  kind := media.kind
  port := port
  protocol := media.protocol
  formats := formats
  connection := some "IN IP4 0.0.0.0".toList
  attributes := attributes.map trimmed

theorem MediaKind.asStr_parse (token : Text) : (MediaKind.parse token).asStr = token := by
  unfold MediaKind.parse
  split_ifs with haudio hvideo happlication
  · exact haudio.symm
  · exact hvideo.symm
  · exact happlication.symm
  · rfl

theorem MediaDescription.Parsed.kind_word {media : MediaDescription} (h : media.Parsed) :
    IsWord media.kind.asStr ∧ MediaKind.parse media.kind.asStr = media.kind := by
  obtain ⟨token, htoken, hkind⟩ := h.kind
  rw [hkind, MediaKind.asStr_parse]
  exact ⟨htoken, rfl⟩

section

variable {media : MediaDescription} {port : UInt16} {formats : List Text}
  {attributes : List Attribute} {lines : List Text}

/-- The words of an `m=` line. -/
theorem mediaLine_eq (media : MediaDescription) (port : UInt16) (hformats : formats ≠ []) :
    mediaLine media (numeral port.toNat) (' ' :: joinWords formats) =
      'm' :: '=' :: joinWords
        (media.kind.asStr :: numeral port.toNat :: media.protocol :: formats) := by
  have hprefix : "m=".toList = ['m', '='] := by decide
  obtain ⟨first, more, rfl⟩ := List.exists_cons_of_ne_nil hformats
  rw [mediaLine, hprefix, joinWords_cons_cons, joinWords_cons_cons, joinWords_cons_cons]
  simp

theorem words_of_mediaLine (h : media.Parsed) (hformats : ∀ format ∈ formats, IsWord format) :
    ∀ word ∈ media.kind.asStr :: numeral port.toNat :: media.protocol :: formats, IsWord word := by
  simp only [List.forall_mem_cons]
  exact ⟨h.kind_word.1, isWord_numeral _, h.protocol, hformats⟩

/-- Words with blanks between them hold no other white space. -/
theorem not_mem_joinWords {words : List Text} (h : ∀ word ∈ words, IsWord word) {c : Char}
    (hc : isWhitespace c = true) (hblank : c ≠ ' ') : c ∉ joinWords words := by
  induction words with
  | nil => simp [joinWords]
  | cons word words ih =>
    rw [List.forall_mem_cons] at h
    cases words with
    | nil => simpa [joinWords] using h.1.not_mem hc
    | cons next words =>
      rw [joinWords_cons_cons, List.mem_append, List.mem_cons, not_or, not_or]
      exact ⟨h.1.not_mem hc, hblank, ih h.2⟩

theorem parseMedia_joinWords (h : media.Parsed) (hne : formats ≠ [])
    (hformats : ∀ format ∈ formats, IsWord format) :
    SessionBuilder.parseMedia (joinWords
      (media.kind.asStr :: numeral port.toNat :: media.protocol :: formats)) =
      some ⟨media.kind, port, media.protocol, formats, none, []⟩ := by
  have hport : parseU16 (numeral port.toNat) = some port := by
    have hle : port.toNat ≤ 65535 := Nat.le_of_lt_succ port.toNat_lt
    rw [parseU16, parseNumeral_numeral hle, Option.map_some, UInt16.ofNat_toNat]
  rw [SessionBuilder.parseMedia, splitWhitespace_joinWords (words_of_mediaLine h hformats)]
  dsimp only
  rw [hport, h.kind_word.2]
  simp [hne]

theorem not_mem_mediaLine (h : media.Parsed) (hprinted : Printed media port formats attributes lines)
    {c : Char} (hc : isWhitespace c = true) (hblank : c ≠ ' ') :
    c ∉ mediaLine media (numeral port.toNat) (' ' :: joinWords formats) := by
  have hm : isWhitespace 'm' = false := by decide
  have heq : isWhitespace '=' = false := by decide
  rw [mediaLine_eq media port hprinted.formats_ne_nil]
  simp only [List.mem_cons, not_or]
  refine ⟨?_, ?_, not_mem_joinWords (words_of_mediaLine h hprinted.formats) hc hblank⟩
  · rintro rfl
    rw [hm] at hc
    cases hc
  · rintro rfl
    rw [heq] at hc
    cases hc

theorem Printed.not_mem (hprinted : Printed media port formats attributes lines) (h : media.Parsed) :
    ∀ line ∈ lines, '\n' ∉ line := by
  have hconnection : '\n' ∉ "c=IN IP4 0.0.0.0".toList := by decide
  rw [hprinted.lines, sectionLines]
  simp only [List.forall_mem_cons, List.forall_mem_map]
  exact ⟨not_mem_mediaLine h hprinted (by decide) (by decide), hconnection,
    fun entry hentry => not_mem_attributeLine (hprinted.attributes entry hentry)⟩

/-- A written section is read back. -/
theorem Printed.reads (hprinted : Printed media port formats attributes lines) (h : media.Parsed)
    (hshort : ∀ line ∈ lines, byteLength (stripReturn line) ≤ maxLineBytes)
    (builder : SessionBuilder) :
    SessionBuilder.Reads builder lines
      { builder with media := builder.media ++ [readSection media port formats attributes] } := by
  have hreturn := not_mem_mediaLine h hprinted (c := '\r') (by decide) (by decide)
  have hline := mediaLine_eq media port hprinted.formats_ne_nil
  rw [hprinted.lines, sectionLines] at hshort ⊢
  simp only [List.forall_mem_cons, List.forall_mem_map] at hshort
  obtain ⟨hfirst, hsecond, hothers⟩ := hshort
  -- the `m=` line starts the section, the `c=` line adds the connection
  have hmedia : SessionBuilder.Reads builder
      [mediaLine media (numeral port.toNat) (' ' :: joinWords formats)]
      { builder with media := builder.media ++
        [⟨media.kind, port, media.protocol, formats, none, []⟩] } := by
    refine SessionBuilder.reads_line ?_ hfirst fun lineNumber => ?_
    · rw [stripReturn_of_not_mem hreturn, hline]
      exact List.cons_ne_nil _ _
    · rw [stripReturn_of_not_mem hreturn, hline]
      show builder.pushMedia lineNumber _ = _
      rw [SessionBuilder.pushMedia, parseMedia_joinWords h hprinted.formats_ne_nil hprinted.formats]
  have htext : stripReturn "c=IN IP4 0.0.0.0".toList = 'c' :: '=' :: "IN IP4 0.0.0.0".toList := by
    decide
  have hconnection : SessionBuilder.Reads
      { builder with media := builder.media ++
        [⟨media.kind, port, media.protocol, formats, none, []⟩] }
      ["c=IN IP4 0.0.0.0".toList]
      { builder with media := builder.media ++
        [⟨media.kind, port, media.protocol, formats, some "IN IP4 0.0.0.0".toList, []⟩] } := by
    refine SessionBuilder.reads_line ?_ hsecond fun lineNumber => ?_
    · rw [htext]
      exact List.cons_ne_nil _ _
    · rw [htext]
      show SessionBuilder.setConnection _ lineNumber _ = _
      unfold SessionBuilder.setConnection
      rw [List.getLast?_concat]
      dsimp only
      rw [if_neg (by simp), SessionBuilder.withLast_append]
  have hattributes := SessionBuilder.reads_mediaAttributes builder hprinted.attributes
    hothers builder.media
    ⟨media.kind, port, media.protocol, formats, some "IN IP4 0.0.0.0".toList, []⟩
  exact (hmedia.trans hconnection).trans hattributes

end

end Fluvora.Sdp

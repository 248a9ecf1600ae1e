import Fluvora.Sdp.Model

/-!
# The parser of session descriptions

`SessionDescription::parse`.  A document is read line by line into a builder; a carriage return at
the end of a line is dropped, and once more if there is another.  Of a document that is accepted we
need that its media sections are made of words and that no attribute holds a newline.
-/

namespace Fluvora.Sdp

open Lines Results Words

def maxSdpBytes : ℕ := 256 * 1024

def maxLineBytes : ℕ := 4096

structure SessionBuilder where
  version : Option Text := none
  origin : Option Text := none
  sessionName : Option Text := none
  timing : Option Text := none
  connection : Option Text := none
  attributes : List Attribute := []
  media : List MediaDescription := []
deriving DecidableEq

/-- A line without a carriage return at its end. -/
def stripReturn (line : Text) : Text :=
  if line.getLast? = some '\r' then line.dropLast else line

def setOnce (target : Option Text) (value : Text) (lineNumber : ℕ) (field : String) :
    Except SdpError (Option Text) :=
  match target with
  | some _ =>
      .error (.atLine lineNumber (.invalidAttribute field.toList "duplicate session field"))
  | none => .ok (some value)

namespace SessionBuilder

/-- The builder with its last media section changed. -/
def withLast (builder : SessionBuilder) (media : MediaDescription) : SessionBuilder :=
  { builder with media := builder.media.dropLast ++ [media] }

def setConnection (builder : SessionBuilder) (lineNumber : ℕ) (value : Text) :
    Except SdpError SessionBuilder :=
  match builder.media.getLast? with
  | some media =>
      if media.connection ≠ none then
        .error (.atLine lineNumber (.invalidAttribute ['c'] "duplicate media connection"))
      else
        .ok (builder.withLast { media with connection := some value })
  | none => do
      let connection ← setOnce builder.connection value lineNumber "session connection"
      return { builder with connection }

/-- Name and value of an attribute line. -/
def splitAttribute (value : Text) : Attribute :=
  match splitOnce ':' value with
  | some (name, value) => ⟨name, some value⟩
  | none => ⟨value, none⟩

def pushAttribute (builder : SessionBuilder) (value : Text) : Except SdpError SessionBuilder :=
  let entry := splitAttribute value
  if entry.name = [] then
    .error (.new (.invalidAttribute [] "empty attribute name"))
  else
    match builder.media.getLast? with
    | some media => .ok (builder.withLast { media with attributes := media.attributes ++ [entry] })
    | none => .ok { builder with attributes := builder.attributes ++ [entry] }

/-- The media section of an `m=` line. -/
def parseMedia (value : Text) : Option MediaDescription :=
  match splitWhitespace value with
  | kind :: port :: protocol :: formats => do
      let port ← parseU16 port
      if formats = [] then none
      else some ⟨.parse kind, port, protocol, formats, none, []⟩
  | _ => none

def pushMedia (builder : SessionBuilder) (lineNumber : ℕ) (value : Text) :
    Except SdpError SessionBuilder :=
  match parseMedia value with
  | some media => .ok { builder with media := builder.media ++ [media] }
  | none => .error (.atLine lineNumber .invalidMediaLine)

/-- What a line with a prefix does. -/
def applyLine (builder : SessionBuilder) (lineNumber : ℕ) (first : Char) (value : Text) :
    Except SdpError SessionBuilder :=
  match first with
  | 'v' => do
      let version ← setOnce builder.version value lineNumber "v"
      return { builder with version }
  | 'o' => do
      let origin ← setOnce builder.origin value lineNumber "o"
      return { builder with origin }
  | 's' => do
      let sessionName ← setOnce builder.sessionName value lineNumber "s"
      return { builder with sessionName }
  | 't' => do
      let timing ← setOnce builder.timing value lineNumber "t"
      return { builder with timing }
  | 'c' => builder.setConnection lineNumber value
  | 'a' => builder.pushAttribute value
  | 'm' => builder.pushMedia lineNumber value
  | 'i' | 'b' | 'k' =>
      if builder.media = [] then .error (.atLine lineNumber (.mediaLineWithoutMedia first))
      else .ok builder
  | _ => .ok builder

def parseLine (builder : SessionBuilder) (lineNumber : ℕ) (line : Text) :
    Except SdpError SessionBuilder :=
  match line with
  | first :: '=' :: value =>
      if first.toNat < 128 then builder.applyLine lineNumber first value
      else .error (.atLine lineNumber .invalidLine)
  | _ => .error (.atLine lineNumber .invalidLine)

/-- The loop of `parse` over the lines. -/
def parseLines (builder : SessionBuilder) (lineNumber : ℕ) :
    List Text → Except SdpError SessionBuilder
  | [] => .ok builder
  | rawLine :: rest =>
      let line := stripReturn rawLine
      if line = [] then
        builder.parseLines (lineNumber + 1) rest
      else if maxLineBytes < byteLength line then
        .error (.atLine lineNumber (.lineTooLong (byteLength line)))
      else do
        let builder ← builder.parseLine lineNumber line
        builder.parseLines (lineNumber + 1) rest

def required (field : Option Text) (name : String) : Except SdpError Text :=
  match field with
  | some value => .ok value
  | none => .error (.new (.missingSessionField name))

def finish (builder : SessionBuilder) : Except SdpError SessionDescription := do
  let version ← required builder.version "v"
  if version ≠ ['0'] then
    .error (.new (.unsupportedVersion version))
  else
    let origin ← required builder.origin "o"
    let sessionName ← required builder.sessionName "s"
    let timing ← required builder.timing "t"
    return ⟨version, origin, sessionName, timing, builder.connection, builder.attributes,
      builder.media⟩

end SessionBuilder

/-- Parses a complete SDP document. -/
def SessionDescription.parse (input : Text) : Except SdpError SessionDescription :=
  if maxSdpBytes < byteLength input then
    .error (.new (.documentTooLarge (byteLength input)))
  else do
    let builder ← SessionBuilder.parseLines {} 1 (lines input)
    builder.finish

/-! ## What is accepted -/

/-- The media section could have been written on lines. -/
structure MediaDescription.Parsed (media : MediaDescription) : Prop where
  kind : ∃ token, IsWord token ∧ media.kind = .parse token
  protocol : IsWord media.protocol
  formats_ne_nil : media.formats ≠ []
  formats : ∀ format ∈ media.formats, IsWord format
  attributes : ∀ entry ∈ media.attributes, ∀ value ∈ entry.value, '\n' ∉ value

namespace SessionBuilder

variable {builder builder' : SessionBuilder} {lineNumber : ℕ} {line value : Text}

theorem parsed_parseMedia {media : MediaDescription} (h : parseMedia value = some media) :
    media.Parsed := by
  unfold parseMedia at h
  split at h
  · next kind port protocol formats hwords =>
    have hword : ∀ word ∈ kind :: port :: protocol :: formats, IsWord word := by
      rw [← hwords]
      exact fun word hword => isWord_of_mem_splitWhitespace hword
    obtain ⟨port', -, h⟩ := Option.bind_eq_some_iff.mp h
    split_ifs at h with hformats
    cases h
    exact ⟨⟨kind, hword kind (by simp), rfl⟩, hword protocol (by simp), hformats,
      fun format hformat => hword format (by simp [hformat]), by simp⟩
  · cases h

/-- Every media section of the builder could have been written on lines. -/
def Parsed (builder : SessionBuilder) : Prop := ∀ media ∈ builder.media, media.Parsed

theorem Parsed.of_eq (h : builder.Parsed) (hmedia : builder'.media = builder.media) :
    builder'.Parsed := by
  unfold Parsed
  rw [hmedia]
  exact h

theorem Parsed.withLast (h : builder.Parsed) {media : MediaDescription} (hmedia : media.Parsed) :
    (builder.withLast media).Parsed := by
  intro other hother
  rcases List.mem_append.mp hother with hother | hother
  · exact h other (List.mem_of_mem_dropLast hother)
  · rw [List.mem_singleton.mp hother]
    exact hmedia

theorem Parsed.last (h : builder.Parsed) {media : MediaDescription}
    (hlast : builder.media.getLast? = some media) : media.Parsed :=
  h media (List.mem_of_getLast? hlast)

theorem parsed_setConnection (h : builder.Parsed)
    (hset : builder.setConnection lineNumber value = .ok builder') : builder'.Parsed := by
  unfold setConnection at hset
  split at hset
  · next media hlast =>
    rw [ite_error_eq_ok] at hset
    obtain ⟨-, hset⟩ := hset
    cases hset
    obtain ⟨hkind, hprotocol, hne, hformats, hattributes⟩ := h.last hlast
    exact h.withLast ⟨hkind, hprotocol, hne, hformats, hattributes⟩
  · obtain ⟨connection, -, hset⟩ := bind_eq_ok.mp hset
    cases hset
    exact h.of_eq rfl

/-- The value of an attribute is the end of the line. -/
theorem not_mem_splitAttribute (h : '\n' ∉ line) :
    ∀ value ∈ (splitAttribute line).value, '\n' ∉ value := by
  intro value hvalue
  unfold splitAttribute at hvalue
  split at hvalue
  · next name back hsplit =>
    cases hvalue
    obtain ⟨rfl, -⟩ := splitOnce_eq_some hsplit
    exact fun hmem => h (by simp [hmem])
  · cases hvalue

theorem parsed_pushAttribute (h : builder.Parsed) (hvalue : '\n' ∉ value)
    (hpush : builder.pushAttribute value = .ok builder') : builder'.Parsed := by
  unfold pushAttribute at hpush
  dsimp only at hpush
  rw [ite_error_eq_ok] at hpush
  obtain ⟨-, hpush⟩ := hpush
  split at hpush
  · next media hlast =>
    cases hpush
    obtain ⟨hkind, hprotocol, hne, hformats, hattributes⟩ := h.last hlast
    refine h.withLast ⟨hkind, hprotocol, hne, hformats, ?_⟩
    intro entry hentry
    rcases List.mem_append.mp hentry with hentry | hentry
    · exact hattributes entry hentry
    · rw [List.mem_singleton.mp hentry]
      exact not_mem_splitAttribute hvalue
  · cases hpush
    exact h.of_eq rfl

theorem parsed_pushMedia (h : builder.Parsed)
    (hpush : builder.pushMedia lineNumber value = .ok builder') : builder'.Parsed := by
  unfold pushMedia at hpush
  split at hpush
  · next media hmedia =>
    cases hpush
    intro other hother
    rcases List.mem_append.mp hother with hother | hother
    · exact h other hother
    · rw [List.mem_singleton.mp hother]
      exact parsed_parseMedia hmedia
  · cases hpush

theorem parsed_applyLine (h : builder.Parsed) {first : Char} (hvalue : '\n' ∉ value)
    (happly : builder.applyLine lineNumber first value = .ok builder') : builder'.Parsed := by
  unfold applyLine at happly
  split at happly
  · obtain ⟨version, -, hset⟩ := bind_eq_ok.mp happly
    cases hset
    exact h.of_eq rfl
  · obtain ⟨origin, -, hset⟩ := bind_eq_ok.mp happly
    cases hset
    exact h.of_eq rfl
  · obtain ⟨sessionName, -, hset⟩ := bind_eq_ok.mp happly
    cases hset
    exact h.of_eq rfl
  · obtain ⟨timing, -, hset⟩ := bind_eq_ok.mp happly
    cases hset
    exact h.of_eq rfl
  · exact parsed_setConnection h happly
  · exact parsed_pushAttribute h hvalue happly
  · exact parsed_pushMedia h happly
  · rw [ite_error_eq_ok] at happly
    cases happly.2
    exact h
  · rw [ite_error_eq_ok] at happly
    cases happly.2
    exact h
  · rw [ite_error_eq_ok] at happly
    cases happly.2
    exact h
  · cases happly
    exact h

theorem parsed_parseLine (h : builder.Parsed) (hline : '\n' ∉ line)
    (hparse : builder.parseLine lineNumber line = .ok builder') : builder'.Parsed := by
  unfold parseLine at hparse
  split at hparse
  · split_ifs at hparse
    refine parsed_applyLine h ?_ hparse
    exact fun hmem => hline (by simp [hmem])
  · cases hparse

theorem stripReturn_sublist (line : Text) : (stripReturn line).Sublist line := by
  unfold stripReturn
  split_ifs
  · exact List.dropLast_sublist line
  · exact List.Sublist.refl line

theorem parsed_parseLines {rawLines : List Text} (h : builder.Parsed)
    (hlines : ∀ line ∈ rawLines, '\n' ∉ line)
    (hparse : builder.parseLines lineNumber rawLines = .ok builder') : builder'.Parsed := by
  induction rawLines generalizing builder lineNumber with
  | nil =>
    cases hparse
    exact h
  | cons rawLine rest ih =>
    rw [List.forall_mem_cons] at hlines
    unfold parseLines at hparse
    dsimp only at hparse
    split_ifs at hparse
    · exact ih h hlines.2 hparse
    · obtain ⟨next, hline, hrest⟩ := bind_eq_ok.mp hparse
      refine ih (parsed_parseLine h ?_ hline) hlines.2 hrest
      exact fun hmem => hlines.1 ((stripReturn_sublist rawLine).subset hmem)

theorem media_finish {description : SessionDescription} (h : builder.finish = .ok description) :
    description.media = builder.media := by
  obtain ⟨version, -, h⟩ := bind_eq_ok.mp h
  rw [ite_error_eq_ok] at h
  obtain ⟨-, h⟩ := h
  obtain ⟨origin, -, h⟩ := bind_eq_ok.mp h
  obtain ⟨sessionName, -, h⟩ := bind_eq_ok.mp h
  obtain ⟨timing, -, h⟩ := bind_eq_ok.mp h
  cases h
  rfl

end SessionBuilder

/-- The media sections of a document that is accepted. -/
theorem SessionDescription.parsed_of_parse {input : Text} {offer : SessionDescription}
    (h : SessionDescription.parse input = .ok offer) : ∀ media ∈ offer.media, media.Parsed := by
  unfold SessionDescription.parse at h
  rw [ite_error_eq_ok] at h
  obtain ⟨builder, hlines, hfinish⟩ := bind_eq_ok.mp h.2
  rw [SessionBuilder.media_finish hfinish]
  refine @SessionBuilder.parsed_parseLines {} _ _ _ ?_ ?_ hlines
  · intro media hmedia
    cases hmedia
  · exact fun line hline => not_mem_of_mem_lines hline

end Fluvora.Sdp

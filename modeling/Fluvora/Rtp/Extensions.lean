import Fluvora.Rtp.RoundTrip

/-!
# What the rewrites keep

The two rewrites of the SFU on packets that parse.  `rewriteHeaderExtensions` builds the packet anew
around the rewritten elements, so its result parses to the fields of the old packet and to these
elements (`Rewritten`); `Rewrite.apply` writes over the fixed header, and a field that it does not name
parses as before.
-/

namespace Fluvora.Rtp

open Results

/-! ## The elements -/

/-- The elements of a packet behind a list of rewrites: an element without a rewrite is kept, and of
several rewrites of its identifier the first one removes it or gives it another identifier and, if it
has one, another value. -/
inductive Rewritten (rewrites : List ExtensionRewrite) :
    List HeaderExtension → List HeaderExtension → Prop
  | nil : Rewritten rewrites [] []
  | kept {extension : HeaderExtension} {before after : List HeaderExtension}
      (h : ∀ rewrite ∈ rewrites, rewrite.sourceId ≠ extension.id)
      (hrest : Rewritten rewrites before after) :
      Rewritten rewrites (extension :: before) (extension :: after)
  | removed {extension : HeaderExtension} {before after : List HeaderExtension}
      {passed others : List ExtensionRewrite} {rewrite : ExtensionRewrite}
      (h : rewrites = passed ++ rewrite :: others)
      (hpassed : ∀ other ∈ passed, other.sourceId ≠ extension.id)
      (hsource : rewrite.sourceId = extension.id) (hdestination : rewrite.destinationId = none)
      (hrest : Rewritten rewrites before after) : Rewritten rewrites (extension :: before) after
  | mapped {extension : HeaderExtension} {before after : List HeaderExtension}
      {passed others : List ExtensionRewrite} {rewrite : ExtensionRewrite} {id : UInt8}
      (h : rewrites = passed ++ rewrite :: others)
      (hpassed : ∀ other ∈ passed, other.sourceId ≠ extension.id)
      (hsource : rewrite.sourceId = extension.id) (hdestination : rewrite.destinationId = some id)
      (hrest : Rewritten rewrites before after) :
      Rewritten rewrites (extension :: before)
        (⟨id, rewrite.replacement.getD extension.value⟩ :: after)

theorem rewritten_filterMap (rewrites : List ExtensionRewrite) (extensions : List HeaderExtension) :
    Rewritten rewrites extensions (extensions.filterMap (rewriteExtension rewrites)) := by
  induction extensions with
  | nil => exact .nil
  | cons extension extensions ih =>
    rw [List.filterMap_cons, rewriteExtension]
    cases hfind : rewrites.find? fun rewrite => rewrite.sourceId == extension.id with
    | none =>
      rw [List.find?_eq_none] at hfind
      exact .kept (fun rewrite hrewrite => by simpa using hfind rewrite hrewrite) ih
    | some rewrite =>
      obtain ⟨hsource, passed, others, hrewrites, hpassed⟩ := List.find?_eq_some_iff_append.mp hfind
      have hsource : rewrite.sourceId = extension.id := by simpa using hsource
      have hpassed (other : ExtensionRewrite) (hother : other ∈ passed) :
          other.sourceId ≠ extension.id := by simpa using hpassed other hother
      dsimp only
      cases hdestination : rewrite.destinationId with
      | none => exact .removed hrewrites hpassed hsource hdestination ih
      | some id => exact .mapped hrewrites hpassed hsource hdestination ih

theorem rewriteExtension_nil (extension : HeaderExtension) :
    rewriteExtension [] extension = some extension := rfl

/-- The packet with rewritten elements parses to the fields of the old one. -/
theorem rewriteHeaderExtensions_parse {input out : Bytes} {packet : Packet}
    {rewrites : List ExtensionRewrite} (hparse : Packet.parse input = .ok packet)
    (h : rewriteHeaderExtensions input rewrites = .ok out) :
    ∃ result, Packet.parse out = .ok result ∧ result.header = packet.header ∧
      result.payload = packet.payload ∧ result.paddingLen = packet.paddingLen ∧
      result.extensions = packet.extensions.filterMap (rewriteExtension rewrites) := by
  unfold rewriteHeaderExtensions at h
  split_ifs at h with hempty
  · rw [List.isEmpty_iff] at hempty
    rw [pure_eq_ok] at h
    refine ⟨packet, h ▸ hparse, rfl, rfl, rfl, ?_⟩
    rw [hempty, funext rewriteExtension_nil, List.filterMap_some]
  · rw [hparse, bind_ok] at h
    have hbuilt (format : ExtensionFormat)
        (hbuild : PacketBuilder.build ⟨packet.header, packet.payload, some format,
          packet.extensions.filterMap (rewriteExtension rewrites), packet.paddingLen⟩ = .ok out) :
        ∃ result, Packet.parse out = .ok result ∧ result.header = packet.header ∧
          result.payload = packet.payload ∧ result.paddingLen = packet.paddingLen ∧
          result.extensions = packet.extensions.filterMap (rewriteExtension rewrites) := by
      obtain ⟨result, hresult, hheader, hextensions, hpayload, hpadding⟩ :=
        parse_of_build (fun hnone => by cases hnone) hbuild
      exact ⟨result, hresult, hheader, hpayload, hpadding, hextensions⟩
    split at h
    · cases h
    · cases h
    · exact hbuilt _ h

/-! ## The fixed header -/

/-- A packet is its fixed header, as it is parsed, and what follows. -/
theorem eq_headed_of_parse {input : Bytes} {packet : Packet}
    (h : Packet.parse input = .ok packet) :
    input = headed (input.getD 0 0) (input.getD 1 0) packet.header.sequenceNumber
      packet.header.timestamp packet.header.ssrc (input.drop fixedHeaderLen) := by
  have hheader := Packet.headerOf_parse h
  obtain ⟨-, hsequence, htimestamp, hssrc⟩ := Packet.carries_parse h
  obtain ⟨b2, b3, b4, b5, b6, b7, b8, b9, b10, b11, hinput⟩ :=
    exists_headed (hheader.fixed.trans hheader.inside)
  generalize input.getD 0 0 = b0 at hinput ⊢
  generalize input.getD 1 0 = b1 at hinput ⊢
  generalize input.drop fixedHeaderLen = body at hinput ⊢
  subst hinput
  have hsequence : Bytes.toU16 b2 b3 = packet.header.sequenceNumber := Option.some.inj hsequence
  have htimestamp : Bytes.toU32 b4 b5 b6 b7 = packet.header.timestamp := Option.some.inj htimestamp
  have hssrc : Bytes.toU32 b8 b9 b10 b11 = packet.header.ssrc := Option.some.inj hssrc
  rw [headed, ← hsequence, ← htimestamp, ← hssrc, Bytes.ofU16_toU16, Bytes.ofU32_toU32,
    Bytes.ofU32_toU32]
  rfl

theorem marker_of_parse {input : Bytes} {packet : Packet} (h : Packet.parse input = .ok packet) :
    packet.header.marker = (input.getD 1 0 &&& 0x80 != 0) := by
  rw [Packet.parse, ite_error_eq_ok] at h
  obtain ⟨-, h⟩ := h
  dsimp only at h
  rw [ite_error_eq_ok, bind_eq_ok] at h
  obtain ⟨-, csrcs, -, h⟩ := h
  rw [bind_eq_ok] at h
  obtain ⟨block, -, h⟩ := h
  rw [bind_eq_ok] at h
  obtain ⟨paddingLen, -, h⟩ := h
  rw [bind_eq_ok] at h
  obtain ⟨sequenceNumber, -, h⟩ := h
  rw [bind_eq_ok] at h
  obtain ⟨timestamp, -, h⟩ := h
  rw [bind_eq_ok] at h
  obtain ⟨ssrc, -, h⟩ := h
  rw [pure_eq_ok] at h
  subst h
  rfl

theorem or_and_mask (a b mask : UInt8) : (a ||| b) &&& mask = a &&& mask ||| b &&& mask := by
  apply UInt8.toNat_inj.mp
  simp only [UInt8.toNat_and, UInt8.toNat_or, Nat.and_or_distrib_right]

/-- A payload type has no marker bit. -/
theorem and_128_of_le {payloadType : UInt8} (h : payloadType ≤ 127) :
    payloadType &&& (0x80 : UInt8) = 0 := by
  have hall : ∀ payloadType < 128, UInt8.ofNat payloadType &&& (0x80 : UInt8) = 0 := by decide
  rw [UInt8.le_iff_toNat_le] at h
  have hand := hall payloadType.toNat (Nat.lt_succ_of_le h)
  rwa [UInt8.ofNat_toNat] at hand

namespace Rewrite

variable {rewrite : Rewrite}

/-- The second byte with another payload type. -/
def payloadByte (rewrite : Rewrite) (second : UInt8) : UInt8 :=
  rewrite.payloadType.elim second fun payloadType => second &&& (0x80 : UInt8) ||| payloadType

/-- The second byte with another payload type and another marker. -/
def secondByte (rewrite : Rewrite) (second : UInt8) : UInt8 :=
  rewrite.marker.elim (rewrite.payloadByte second) fun marker =>
    rewrite.payloadByte second &&& (0x7f : UInt8) ||| marker.toUInt8 <<< 7

section

variable (hsafe : ∀ payloadType ∈ rewrite.payloadType, payloadType ≤ 127) (second : UInt8)
include hsafe

theorem payloadByte_payloadType :
    rewrite.payloadByte second &&& (0x7f : UInt8) =
      rewrite.payloadType.getD (second &&& (0x7f : UInt8)) := by
  unfold payloadByte
  cases hpayload : rewrite.payloadType with
  | none => rfl
  | some payloadType =>
    exact marker_or_and (toNat_and_128_mod second) (hsafe payloadType hpayload)

theorem payloadByte_marker :
    rewrite.payloadByte second &&& (0x80 : UInt8) = second &&& (0x80 : UInt8) := by
  unfold payloadByte
  cases hpayload : rewrite.payloadType with
  | none => rfl
  | some payloadType =>
    rw [Option.elim_some, or_and_mask, and_128_of_le (hsafe payloadType hpayload), UInt8.or_zero,
      UInt8.and_assoc]
    rfl

theorem secondByte_payloadType :
    rewrite.secondByte second &&& (0x7f : UInt8) =
      rewrite.payloadType.getD (second &&& (0x7f : UInt8)) := by
  rw [← payloadByte_payloadType hsafe second, secondByte]
  cases rewrite.marker with
  | none => rfl
  | some marker =>
    have hmarker : marker.toUInt8 <<< 7 &&& (0x7f : UInt8) = 0 := by cases marker <;> decide
    rw [Option.elim_some, or_and_mask, hmarker, UInt8.or_zero, UInt8.and_assoc]
    rfl

theorem secondByte_marker :
    (rewrite.secondByte second &&& (0x80 : UInt8) != 0) =
      rewrite.marker.getD (second &&& (0x80 : UInt8) != 0) := by
  rw [← payloadByte_marker hsafe second, secondByte]
  cases rewrite.marker with
  | none => rfl
  | some marker =>
    have hlow : (0x7f : UInt8) &&& (0x80 : UInt8) = 0 := by decide
    rw [Option.elim_some, or_and_mask, UInt8.and_assoc, hlow, UInt8.and_zero, UInt8.zero_or,
      Option.getD_some]
    cases marker <;> decide

end

section

variable {first second : UInt8} {sequenceNumber : UInt16} {timestamp ssrc : UInt32} {body : Bytes}

theorem overwriteWith_second (encode : UInt8 → UInt8) (field : Option UInt8) :
    overwriteWith (fun value => [encode value]) 1 field
        (headed first second sequenceNumber timestamp ssrc body) =
      headed first (field.elim second encode) sequenceNumber timestamp ssrc body := by
  cases field <;> rfl

theorem overwriteWith_marker (encode : Bool → UInt8) (field : Option Bool) :
    overwriteWith (fun value => [encode value]) 1 field
        (headed first second sequenceNumber timestamp ssrc body) =
      headed first (field.elim second encode) sequenceNumber timestamp ssrc body := by
  cases field <;> rfl

theorem overwriteWith_sequenceNumber (field : Option UInt16) :
    overwriteWith Bytes.ofU16 2 field (headed first second sequenceNumber timestamp ssrc body) =
      headed first second (field.getD sequenceNumber) timestamp ssrc body := by
  cases field <;> rfl

theorem overwriteWith_timestamp (field : Option UInt32) :
    overwriteWith Bytes.ofU32 4 field (headed first second sequenceNumber timestamp ssrc body) =
      headed first second sequenceNumber (field.getD timestamp) ssrc body := by
  cases field <;> rfl

theorem overwriteWith_ssrc (field : Option UInt32) :
    overwriteWith Bytes.ofU32 8 field (headed first second sequenceNumber timestamp ssrc body) =
      headed first second sequenceNumber timestamp (field.getD ssrc) body := by
  cases field <;> rfl

theorem getD_headed : (headed first second sequenceNumber timestamp ssrc body).getD 1 0 = second :=
  rfl

/-- What `apply` writes over a packet, from its fixed header. -/
theorem apply_headed {out : Bytes}
    (h : rewrite.apply (headed first second sequenceNumber timestamp ssrc body) = .ok out) :
    (∀ payloadType ∈ rewrite.payloadType, payloadType ≤ 127) ∧
      out = headed first (rewrite.secondByte second)
        (rewrite.sequenceNumber.getD sequenceNumber) (rewrite.timestamp.getD timestamp)
        (rewrite.ssrc.getD ssrc) body := by
  rw [Rewrite.apply, bind_eq_ok] at h
  obtain ⟨packet, -, h⟩ := h
  split at h
  next => cases h
  next hfilter =>
    rw [Option.filter_eq_none_iff] at hfilter
    refine ⟨fun payloadType hpayload => ?_, ?_⟩
    · have hsmall := hfilter payloadType hpayload
      simpa using hsmall
    · rw [pure_eq_ok] at h
      rw [← h, overwriteWith_second, overwriteWith_marker, overwriteWith_sequenceNumber,
        overwriteWith_timestamp, overwriteWith_ssrc, getD_headed, getD_headed, secondByte,
        payloadByte]

end

/-- A rewritten packet parses to the named fields, and to the other fields of the old packet; outside
the fixed header not a byte is changed. -/
theorem apply_parse {input out : Bytes} {packet : Packet} (hparse : Packet.parse input = .ok packet)
    (h : rewrite.apply input = .ok out) :
    Packet.parse out = .ok { packet with
      header := { packet.header with
        marker := rewrite.marker.getD packet.header.marker
        payloadType := rewrite.payloadType.getD packet.header.payloadType
        sequenceNumber := rewrite.sequenceNumber.getD packet.header.sequenceNumber
        timestamp := rewrite.timestamp.getD packet.header.timestamp
        ssrc := rewrite.ssrc.getD packet.header.ssrc } } ∧
      out.getD 0 0 = input.getD 0 0 ∧ out.drop fixedHeaderLen = input.drop fixedHeaderLen := by
  have hinput := eq_headed_of_parse hparse
  have hcarries := Packet.carries_parse hparse
  have hmarker := marker_of_parse hparse
  rw [hinput] at h
  obtain ⟨hsafe, hout⟩ := apply_headed h
  have hfirst : out.getD 0 0 = input.getD 0 0 := by rw [hout]; rfl
  have hbody : out.drop fixedHeaderLen = input.drop fixedHeaderLen := by
    rw [hout]
    rfl
  have hlen : out.length = input.length := by
    rw [hout, congrArg List.length hinput]
    rfl
  obtain ⟨header, hresult, hcsrcs, -⟩ := Packet.parse_of_body hlen hbody hfirst hparse
  have hpayload : rewrite.secondByte (input.getD 1 0) &&& 0x7f =
      rewrite.payloadType.getD packet.header.payloadType := by
    rw [secondByte_payloadType hsafe, hcarries.payloadType]
  have hfields := (Packet.carries_parse hresult).unique (by
    rw [hout]
    exact carries_headed hpayload)
  have hmarker' := marker_of_parse hresult
  have hsecond : out.getD 1 0 = rewrite.secondByte (input.getD 1 0) := by rw [hout]; rfl
  rw [hsecond, secondByte_marker hsafe, ← hmarker] at hmarker'
  refine ⟨?_, hfirst, hbody⟩
  rw [hresult]
  obtain ⟨marker, payloadType, sequenceNumber, timestamp, ssrc, csrcs⟩ := header
  obtain ⟨rfl, rfl, rfl, rfl⟩ := hfields
  dsimp only at hmarker' hcsrcs
  rw [hmarker', hcsrcs]

end Rewrite

/-- For every packet that parses: if its header extensions are rewritten, the result parses to the same
header, payload and padding and to the rewritten elements; if fields of its fixed header are, it parses
to these fields and is the same packet otherwise. -/
theorem rewrites_parse {input : Bytes} {packet : Packet} (hparse : Packet.parse input = .ok packet) :
    (∀ rewrites out, rewriteHeaderExtensions input rewrites = .ok out →
      ∃ result, Packet.parse out = .ok result ∧ result.header = packet.header ∧
        result.payload = packet.payload ∧ result.paddingLen = packet.paddingLen ∧
        Rewritten rewrites packet.extensions result.extensions) ∧
    ∀ (rewrite : Rewrite) out, rewrite.apply input = .ok out →
      Packet.parse out = .ok { packet with
        header := { packet.header with
          marker := rewrite.marker.getD packet.header.marker
          payloadType := rewrite.payloadType.getD packet.header.payloadType
          sequenceNumber := rewrite.sequenceNumber.getD packet.header.sequenceNumber
          timestamp := rewrite.timestamp.getD packet.header.timestamp
          ssrc := rewrite.ssrc.getD packet.header.ssrc } } ∧
        out.getD 0 0 = input.getD 0 0 ∧ out.drop fixedHeaderLen = input.drop fixedHeaderLen := by
  refine ⟨fun rewrites out h => ?_, fun rewrite out h => Rewrite.apply_parse hparse h⟩
  obtain ⟨result, hresult, hheader, hpayload, hpadding, hextensions⟩ :=
    rewriteHeaderExtensions_parse hparse h
  refine ⟨result, hresult, hheader, hpayload, hpadding, ?_⟩
  rw [hextensions]
  exact rewritten_filterMap rewrites packet.extensions

/-- A packet with one element of one byte and three bytes of padding behind it. -/
def Sample.extended : Bytes :=
  [0x90, 96, 0, 1, 0, 0, 0, 2, 0, 0, 0, 3, 0xbe, 0xde, 0, 1, 0x10, 5, 0, 0, 9, 9]

def Sample.extendedPacket : Packet :=
  ⟨⟨false, 96, 1, 2, 3, []⟩, 20, some .oneByte, some [0x10, 5, 0, 0], [⟨1, [5]⟩], [9, 9], 0⟩

theorem rewrites_parse_sample :
    (∀ rewrites out, rewriteHeaderExtensions Sample.extended rewrites = .ok out →
      ∃ result, Packet.parse out = .ok result ∧ result.header = ⟨false, 96, 1, 2, 3, []⟩ ∧
        result.payload = [9, 9] ∧ result.paddingLen = 0 ∧
        Rewritten rewrites [⟨1, [5]⟩] result.extensions) ∧
    ∀ (rewrite : Rewrite) out, rewrite.apply Sample.extended = .ok out →
      Packet.parse out = .ok { Sample.extendedPacket with
        header := { Sample.extendedPacket.header with
          marker := rewrite.marker.getD false
          payloadType := rewrite.payloadType.getD 96
          sequenceNumber := rewrite.sequenceNumber.getD 1
          timestamp := rewrite.timestamp.getD 2
          ssrc := rewrite.ssrc.getD 3 } } ∧
        out.getD 0 0 = Sample.extended.getD 0 0 ∧
        out.drop fixedHeaderLen = Sample.extended.drop fixedHeaderLen :=
  @rewrites_parse Sample.extended Sample.extendedPacket (by decide)

end Fluvora.Rtp

import Fluvora.Rtp.Header
import Fluvora.Srtp.Keystream

/-!
# SRTP from end to end

A sending context protects packets, and the results reach a receiving context with the same keys in
some order, with losses and repetitions.  `sentLog` are the protected packets of a run with their
indices; a delivery order is admissible when every index is close to the highest one delivered for
its SSRC.  The receiver's windows then represent exactly the delivered indices (`Received`), so every
packet is decrypted once and refused from then on.
-/

open Std (ExtTreeMap)

namespace Fluvora.Srtp

open Fallible

/-! ## Decryption -/

theorem length_keystream (crypto : Crypto) (key : Vector UInt8 16) (iv : Bytes) (length : ℕ) :
    (keystream crypto key iv length).length = (length + 15) / 16 * 16 := by
  simp [keystream, counterBlocks, List.length_flatMap, Function.comp_def]

@[simp] theorem length_crypt (crypto : Crypto) (payload : Bytes) (keys : SessionKeys)
    (ssrc : UInt32) (index : ℕ) : (crypt crypto payload keys ssrc index).length = payload.length := by
  rw [crypt, applyKeystream, List.length_zipWith, length_keystream]
  omega

theorem zipWith_xor_zipWith_xor {payload stream : Bytes} (h : payload.length ≤ stream.length) :
    List.zipWith (· ^^^ ·) (List.zipWith (· ^^^ ·) payload stream) stream = payload := by
  induction payload generalizing stream with
  | nil => simp
  | cons byte payload ih =>
    cases stream with
    | nil => simp at h
    | cons mask stream =>
      simp only [List.length_cons, Nat.add_le_add_iff_right] at h
      simp [ih h]

/-- Encrypting twice under one index gives the payload back. -/
theorem crypt_crypt (crypto : Crypto) (payload : Bytes) (keys : SessionKeys) (ssrc : UInt32)
    (index : ℕ) :
    crypt crypto (crypt crypto payload keys ssrc index) keys ssrc index = payload := by
  have hlen := length_crypt crypto payload keys ssrc index
  unfold crypt applyKeystream at hlen ⊢
  rw [hlen]
  apply zipWith_xor_zipWith_xor
  rw [length_keystream]
  omega

theorem length_tag (crypto : Crypto) (keys : SessionKeys) (packet : Bytes) (roc : ℕ)
    (profile : ProtectionProfile) :
    ((authenticateRtp crypto keys packet roc).take profile.rtpTagLen).length =
      profile.rtpTagLen := by
  cases profile <;> simp [authenticateRtp, ProtectionProfile.rtpTagLen]

namespace SrtpContext

/-! ## What was sent -/

/-- A protected packet: what went in, what came out, and the index between them. -/
structure Sent where
  packet : Bytes
  wire : Bytes
  ssrc : UInt32
  index : ℕ
deriving DecidableEq

/-- What a call protects: its index is the one that it leaves as the highest of the SSRC. -/
def sentRtp (crypto : Crypto) (s : SrtpContext) : Call → Option Sent
  | .protectRtp packet =>
    match (protectRtp crypto packet).run s, Rtp.Packet.parse packet with
    | (.ok wire, t), .ok parsed =>
      (t.highest parsed.header.ssrc).map fun index => ⟨packet, wire, parsed.header.ssrc, index⟩
    | _, _ => none
  | _ => none

/-- The packets that a run protects. -/
def sentLog (crypto : Crypto) (s : SrtpContext) (calls : List Call) : List Sent :=
  Runs.produced (step crypto) (sentRtp crypto) s calls

/-- A packet that is protected as the context does it. -/
structure Sealed (crypto : Crypto) (s : SrtpContext) (sent : Sent) (parsed : Rtp.Packet) :
    Prop where
  parse : Rtp.Packet.parse sent.packet = .ok parsed
  ssrc : parsed.header.ssrc = sent.ssrc
  sequenceNumber : parsed.header.sequenceNumber.toNat = sent.index % 2 ^ 16
  index : sent.index ≤ maxSrtpIndex
  wire : sent.wire = sealRtp crypto s parsed sent.packet sent.index

/-- A packet that a later call protects. -/
def AheadSent (crypto : Crypto) (s : SrtpContext) (sent : Sent) : Prop :=
  (∃ parsed, Sealed crypto s sent parsed) ∧
    ∀ highest, s.highest sent.ssrc = some highest → highest < sent.index

theorem sentRtp_eq_some {crypto : Crypto} {s : SrtpContext} {call : Call} {sent : Sent}
    (h : sentRtp crypto s call = some sent) :
    AheadSent crypto s sent ∧ step crypto s call = s.withHighest sent.ssrc sent.index := by
  cases call with
  | protectRtp packet =>
    obtain ⟨error, t, hrun, -⟩ | ⟨parsed, index, hparsed, hindex, hmono, hmax, hrun⟩ :=
      protectRtp_run crypto packet s
    · simp [sentRtp, hrun] at h
    · simp only [sentRtp, hrun, hparsed, highest_withHighest, Option.map_some,
        Option.some.injEq] at h
      subst h
      have hsequence : parsed.header.sequenceNumber.toNat = index % 2 ^ 16 := by
        rw [hindex]
        refine (estimateIndex_mod _ _ fun n hn => ?_).symm
        have hlt := hmono n hn
        unfold maxSrtpIndex at hmax
        omega
      exact ⟨⟨⟨parsed, hparsed, rfl, hsequence, hmax, rfl⟩, hmono⟩, by rw [step, hrun]⟩
  | unprotectRtp packet => simp [sentRtp] at h
  | protectRtcp packet => simp [sentRtp] at h
  | unprotectRtcp packet => simp [sentRtp] at h

theorem Sealed.of_advanced {crypto : Crypto} {s t : SrtpContext} {sent : Sent}
    {parsed : Rtp.Packet} (hst : Advanced s t) (h : Sealed crypto t sent parsed) :
    Sealed crypto s sent parsed := by
  refine ⟨h.parse, h.ssrc, h.sequenceNumber, h.index, ?_⟩
  rw [h.wire, sealRtp, sealRtp, hst.rtpKeys, hst.profile]

theorem AheadSent.of_advanced {crypto : Crypto} {s t : SrtpContext} {sent : Sent}
    (hst : Advanced s t) (h : AheadSent crypto t sent) : AheadSent crypto s sent := by
  obtain ⟨⟨parsed, hsealed⟩, hahead⟩ := h
  refine ⟨⟨parsed, hsealed.of_advanced hst⟩, ?_⟩
  intro highest hhighest
  obtain ⟨later, hlater, hle⟩ := hst.highest _ highest hhighest
  exact hle.trans_lt (hahead later hlater)

/-- Every packet of the log is sealed under the keys of the context. -/
theorem exists_sealed {crypto : Crypto} {s : SrtpContext} {calls : List Call} {sent : Sent}
    (h : sent ∈ sentLog crypto s calls) : ∃ parsed, Sealed crypto s sent parsed := by
  have hahead : AheadSent crypto s sent :=
    Runs.ahead_of_mem_produced (AheadSent crypto)
      (fun s call sent (_ : True) hsent => (sentRtp_eq_some hsent).1)
      (fun s call sent => AheadSent.of_advanced (advanced_step crypto s call))
      (fun _ _ => trivial) h
  exact hahead.1

/-- The SSRC and the index tell the packets of a log apart. -/
theorem eq_of_mem_sentLog {crypto : Crypto} {s : SrtpContext} {calls : List Call} {a b : Sent}
    (ha : a ∈ sentLog crypto s calls) (hb : b ∈ sentLog crypto s calls) (hssrc : a.ssrc = b.ssrc)
    (hindex : a.index = b.index) : a = b := by
  have hpairs : (sentLog crypto s calls).Pairwise
      fun a b => ¬(a.ssrc = b.ssrc ∧ a.index = b.index) := by
    refine Runs.pairwise_produced (AheadSent crypto)
      (fun s call sent (_ : True) hsent => (sentRtp_eq_some hsent).1)
      (fun s call sent => AheadSent.of_advanced (advanced_step crypto s call))
      ?_ (fun _ _ => trivial) s
    rintro s call a b - hsent ⟨-, hahead⟩ ⟨hssrc, hindex⟩
    rw [(sentRtp_eq_some hsent).2, ← hssrc, highest_withHighest] at hahead
    exact (hahead a.index rfl).ne hindex
  by_contra hne
  have hsymm : Std.Symm fun a b : Sent => ¬(a.ssrc = b.ssrc ∧ a.index = b.index) :=
    ⟨fun a b h hba => h ⟨hba.1.symm, hba.2.symm⟩⟩
  exact hpairs.forall ha hb hne ⟨hssrc, hindex⟩

/-! ## What a receiver makes of it -/

/-- The window of an SSRC. -/
def window (r : SrtpContext) (ssrc : UInt32) : ReplayWindow := r.inboundRtp[ssrc]?.getD {}

/-- The context after an index has been accepted. -/
def withAccepted (r : SrtpContext) (ssrc : UInt32) (index : ℕ) : SrtpContext :=
  { r with inboundRtp := r.inboundRtp.insert ssrc ((r.window ssrc).accept index) }

theorem window_withAccepted (r : SrtpContext) (ssrc : UInt32) (index : ℕ) :
    (r.withAccepted ssrc index).window ssrc = (r.window ssrc).accept index := by
  simp [window, withAccepted]

theorem window_withAccepted_of_ne (r : SrtpContext) {ssrc other : UInt32} (index : ℕ)
    (h : ssrc ≠ other) : (r.withAccepted ssrc index).window other = r.window other := by
  simp [window, withAccepted, Maps.getElem?_insert_of_ne h]

/-- The packet with its payload encrypted. -/
def encryptRtp (crypto : Crypto) (keys : SessionKeys) (parsed : Rtp.Packet) (packet : Bytes)
    (index : ℕ) : Bytes :=
  packet.take parsed.headerLen ++
    crypt crypto (packet.drop parsed.headerLen) keys parsed.header.ssrc index

/-- What a receiver reads off an encrypted packet: the header is in clear, and the payload decrypts
under the same index. -/
structure Readable (crypto : Crypto) (keys : SessionKeys) (parsed : Rtp.Packet) (packet : Bytes)
    (index : ℕ) (encrypted : Bytes) : Prop where
  headerLen : Rtp.parseHeaderLength encrypted = .ok parsed.headerLen
  sequenceNumber : readU16 encrypted 2 = .ok parsed.header.sequenceNumber
  ssrc : readU32 encrypted 8 = .ok parsed.header.ssrc
  plaintext : encrypted.take parsed.headerLen ++
    crypt crypto (encrypted.drop parsed.headerLen) keys parsed.header.ssrc index = packet

theorem readable_encryptRtp (crypto : Crypto) (keys : SessionKeys) {parsed : Rtp.Packet}
    {packet : Bytes} (hparse : Rtp.Packet.parse packet = .ok parsed) (index : ℕ) :
    Readable crypto keys parsed packet index (encryptRtp crypto keys parsed packet index) := by
  obtain ⟨encrypted, hencrypted⟩ : ∃ encrypted, encrypted =
    encryptRtp crypto keys parsed packet index := ⟨_, rfl⟩
  have hheader := Rtp.Packet.headerOf_parse hparse
  have hfixed : 12 ≤ parsed.headerLen := hheader.fixed
  have hinside := hheader.inside
  have hlen : encrypted.length = packet.length := by
    simp [hencrypted, encryptRtp, hinside]
  have hfront : encrypted.take parsed.headerLen = packet.take parsed.headerLen := by
    rw [hencrypted, encryptRtp, List.take_left' (by simpa using hinside)]
  have hback : encrypted.drop parsed.headerLen =
      crypt crypto (packet.drop parsed.headerLen) keys parsed.header.ssrc index := by
    rw [hencrypted, encryptRtp, List.drop_left' (by simpa using hinside)]
  rw [← hencrypted]
  refine ⟨?_, ?_, ?_, ?_⟩
  · exact Rtp.parseHeaderLength_of_take hheader.headerLength hheader.fixed hlen hfront
  · rw [readU16, Bytes.u16At_eq_of_take hfront (by omega), hheader.sequenceNumber]
    rfl
  · rw [readU32, Bytes.u32At_eq_of_take hfront (by omega), hheader.ssrc]
    rfl
  · rw [hfront, hback, crypt_crypt, List.take_append_drop]

/-- A sealed packet whose index the receiver estimates right goes through, unless the window
refuses the index. -/
theorem unprotectRtp_sealed {crypto : Crypto} {s r : SrtpContext} {sent : Sent}
    {parsed : Rtp.Packet} (hsealed : Sealed crypto s sent parsed) (hprofile : r.profile = s.profile)
    (hkeys : r.inboundRtpKeys = s.outboundRtpKeys)
    (hestimate : estimateIndex (r.window sent.ssrc).maximum parsed.header.sequenceNumber =
      sent.index) :
    (unprotectRtp crypto sent.wire).run r =
      match (r.window sent.ssrc).check sent.index with
      | .error error => (.error (.replay error), r)
      | .ok () => (.ok sent.packet, r.withAccepted sent.ssrc sent.index) := by
  obtain ⟨hparse, hssrc, -, hmax, hwire⟩ := hsealed
  rw [← hssrc] at hestimate ⊢
  have hreadable := readable_encryptRtp crypto r.inboundRtpKeys hparse sent.index
  have hroc : rolloverCounter sent.index = .ok (sent.index / 2 ^ 16) := by
    rw [rolloverCounter, if_pos]
    unfold maxSrtpIndex at hmax
    omega
  rw [sealRtp, ← encryptRtp, ← hkeys, ← hprofile] at hwire
  generalize encryptRtp crypto r.inboundRtpKeys parsed sent.packet sent.index = encrypted
    at hwire hreadable
  have htag := length_tag crypto r.inboundRtpKeys encrypted (sent.index / 2 ^ 16) r.profile
  have hlen : sent.wire.length = encrypted.length + r.profile.rtpTagLen := by
    rw [hwire, List.length_append, htag]
  have htake : sent.wire.take encrypted.length = encrypted := by
    rw [hwire]
    exact List.take_left
  have hdrop : sent.wire.drop encrypted.length =
      (authenticateRtp crypto r.inboundRtpKeys encrypted (sent.index / 2 ^ 16)).take
        r.profile.rtpTagLen := by
    rw [hwire]
    exact List.drop_left
  rw [unprotectRtp, run_get_bind]
  dsimp only
  rw [run_ensure_bind, if_pos (by omega), hlen, Nat.add_sub_cancel, htake, hdrop,
    run_ofExcept_bind, hreadable.headerLen]
  dsimp only [Except.mapError]
  rw [run_ofExcept_bind, hreadable.sequenceNumber]
  dsimp only
  rw [run_ofExcept_bind, hreadable.ssrc]
  dsimp only
  rw [← window, hestimate, run_ofExcept_bind]
  rcases hcheck : (r.window parsed.header.ssrc).check sent.index with error | _
  · rfl
  dsimp only [Except.mapError]
  rw [run_ofExcept_bind, hroc]
  dsimp only
  rw [run_ofExcept_bind, verifyTag, if_pos rfl]
  dsimp only
  rw [hreadable.plaintext, run_ofExcept_bind, hparse]
  rfl

/-! ## Delivery orders -/

/-- The indices delivered for an SSRC. -/
def deliveredIndices (earlier : List Sent) (ssrc : UInt32) : List ℕ :=
  (earlier.filter fun sent => sent.ssrc = ssrc).map Sent.index

/-- A delivery that the receiver can place: the first index of an SSRC has rollover counter zero, and
any other is less than 64 below or less than 2^15 above the highest index so far. -/
def Admissible (earlier : List Sent) (next : Sent) : Prop :=
  match (deliveredIndices earlier next.ssrc).max? with
  | none => next.index < 2 ^ 16
  | some highest => highest < next.index + 64 ∧ next.index < highest + 2 ^ 15

instance (earlier : List Sent) (next : Sent) : Decidable (Admissible earlier next) :=
  match h : (deliveredIndices earlier next.ssrc).max? with
  | none => decidable_of_iff (next.index < 2 ^ 16) (by simp [Admissible, h])
  | some highest => decidable_of_iff (highest < next.index + 64 ∧ next.index < highest + 2 ^ 15)
      (by simp [Admissible, h])

/-- Every delivery of the order is admissible after those before it. -/
def AdmissibleOrder (order : List Sent) : Prop :=
  ∀ earlier next, earlier ++ [next] <+: order → Admissible earlier next

theorem admissibleOrder_nil : AdmissibleOrder [] := by
  intro earlier next h
  simp at h

theorem admissibleOrder_append {order : List Sent} {next : Sent} :
    AdmissibleOrder (order ++ [next]) ↔ AdmissibleOrder order ∧ Admissible order next := by
  constructor
  · intro h
    refine ⟨fun earlier sent hsent => h earlier sent ?_, h order next List.prefix_rfl⟩
    exact hsent.trans (List.prefix_append _ _)
  · rintro ⟨horder, hnext⟩ earlier sent hsent
    rw [List.prefix_concat_iff] at hsent
    rcases hsent with heq | hsent
    · obtain ⟨hearlier, hlast⟩ := List.append_inj' heq rfl
      rw [hearlier, List.singleton_inj.mp hlast]
      exact hnext
    · exact horder earlier sent hsent

def deliver (crypto : Crypto) (r : SrtpContext) (sent : Sent) : SrtpContext :=
  ((unprotectRtp crypto sent.wire).run r).2

/-- The receiving context after a sequence of deliveries. -/
def deliverAll (crypto : Crypto) (order : List Sent) (r : SrtpContext) : SrtpContext :=
  order.foldl (deliver crypto) r

/-- The receiver is in step with what was delivered. -/
structure Received (s r : SrtpContext) (earlier : List Sent) : Prop where
  profile : r.profile = s.profile
  keys : r.inboundRtpKeys = s.outboundRtpKeys
  window : ∀ ssrc, (r.window ssrc).Represents (deliveredIndices earlier ssrc).toFinset

theorem Received.maximum_eq {s r : SrtpContext} {earlier : List Sent} (h : Received s r earlier)
    (ssrc : UInt32) : (r.window ssrc).maximum = (deliveredIndices earlier ssrc).max? := by
  apply Option.ext
  intro m
  rw [(h.window ssrc).maximum, List.max?_eq_some_iff]
  simp

theorem deliveredIndices_append (earlier : List Sent) (next : Sent) (ssrc : UInt32) :
    (deliveredIndices (earlier ++ [next]) ssrc).toFinset =
      if next.ssrc = ssrc then insert next.index (deliveredIndices earlier ssrc).toFinset
      else (deliveredIndices earlier ssrc).toFinset := by
  by_cases h : next.ssrc = ssrc
  · simp [deliveredIndices, h]
  · simp [deliveredIndices, h]

/-- The receiver estimates an admissible index right, and the index is inside the window. -/
theorem Received.estimate {s r : SrtpContext} {earlier : List Sent} {next : Sent}
    {sequenceNumber : UInt16} (h : Received s r earlier) (hadmissible : Admissible earlier next)
    (hsequence : sequenceNumber.toNat = next.index % 2 ^ 16) (hmax : next.index ≤ maxSrtpIndex) :
    estimateIndex (r.window next.ssrc).maximum sequenceNumber = next.index ∧
      ∀ m, (r.window next.ssrc).maximum = some m → m < next.index + 64 := by
  rw [h.maximum_eq]
  unfold Admissible at hadmissible
  unfold maxSrtpIndex at hmax
  cases hhighest : (deliveredIndices earlier next.ssrc).max? with
  | none =>
    rw [hhighest] at hadmissible
    exact ⟨estimateIndex_none hsequence hadmissible, by simp⟩
  | some highest =>
    rw [hhighest] at hadmissible
    obtain ⟨hlow, hhigh⟩ := hadmissible
    refine ⟨estimateIndex_eq hsequence (by omega) hhigh (by omega), ?_⟩
    rintro m ⟨⟩
    exact hlow

/-- One delivery: a new index is accepted and the packet returned, a known one is refused. -/
theorem Received.unprotectRtp_run {crypto : Crypto} {s r : SrtpContext} {earlier : List Sent}
    {next : Sent} {parsed : Rtp.Packet} (h : Received s r earlier)
    (hsealed : Sealed crypto s next parsed) (hadmissible : Admissible earlier next) :
    (unprotectRtp crypto next.wire).run r =
      if next.index ∈ deliveredIndices earlier next.ssrc then
        (.error (.replay .replayDetected), r)
      else (.ok next.packet, r.withAccepted next.ssrc next.index) := by
  obtain ⟨hestimate, hwindow⟩ := h.estimate hadmissible hsealed.sequenceNumber hsealed.index
  rw [unprotectRtp_sealed hsealed h.profile h.keys hestimate,
    (h.window next.ssrc).check_eq hwindow]
  by_cases hmem : next.index ∈ deliveredIndices earlier next.ssrc
  · simp [hmem]
  · simp [hmem]

/-- A delivery keeps the receiver in step. -/
theorem Received.deliver {crypto : Crypto} {s r : SrtpContext} {earlier : List Sent} {next : Sent}
    {parsed : Rtp.Packet} (h : Received s r earlier) (hsealed : Sealed crypto s next parsed)
    (hadmissible : Admissible earlier next) :
    Received s (deliver crypto r next) (earlier ++ [next]) := by
  rw [SrtpContext.deliver, h.unprotectRtp_run hsealed hadmissible]
  split_ifs with hmem
  · refine ⟨h.profile, h.keys, fun ssrc => ?_⟩
    rw [deliveredIndices_append]
    split_ifs with hssrc
    · subst hssrc
      rw [Finset.insert_eq_of_mem (List.mem_toFinset.mpr hmem)]
      exact h.window _
    · exact h.window ssrc
  · refine ⟨h.profile, h.keys, fun ssrc => ?_⟩
    rw [deliveredIndices_append]
    split_ifs with hssrc
    · subst hssrc
      rw [window_withAccepted]
      exact (h.window _).accept
        (h.estimate hadmissible hsealed.sequenceNumber hsealed.index).2
    · rw [window_withAccepted_of_ne r next.index hssrc]
      exact h.window ssrc

/-- A whole delivery order keeps the receiver in step. -/
theorem received_deliverAll {crypto : Crypto} {s r : SrtpContext} (hprofile : r.profile = s.profile)
    (hkeys : r.inboundRtpKeys = s.outboundRtpKeys) (hfresh : r.inboundRtp = ∅) {order : List Sent}
    (hsealed : ∀ sent ∈ order, ∃ parsed, Sealed crypto s sent parsed)
    (hadmissible : AdmissibleOrder order) : Received s (deliverAll crypto order r) order := by
  induction order using List.reverseRecOn with
  | nil =>
    refine ⟨hprofile, hkeys, fun ssrc => ?_⟩
    simp only [window, deliverAll, hfresh, List.foldl_nil]
    simpa [deliveredIndices] using ReplayWindow.represents_empty
  | append_singleton earlier next ih =>
    obtain ⟨hbefore, hnext⟩ := admissibleOrder_append.mp hadmissible
    have hearlier : Received s (deliverAll crypto earlier r) earlier :=
      ih (fun sent hsent => hsealed sent (by simp [hsent])) hbefore
    obtain ⟨parsed, hparsed⟩ := hsealed next (by simp)
    rw [deliverAll, List.foldl_append]
    exact hearlier.deliver hparsed hnext

/-- Protected packets that are delivered in an admissible order to a context with the matching keys
come out as they went in, each exactly once. -/
theorem unprotectRtp_of_protectRtp (crypto : Crypto) (profile : ProtectionProfile)
    (outbound inbound : KeyingMaterial) (calls : List Call) (r : SrtpContext)
    (hprofile : r.profile = profile) (hkeys : r.inboundRtpKeys = outbound.deriveSrtp crypto)
    (hfresh : r.inboundRtp = ∅) (order : List Sent)
    (hsent : ∀ sent ∈ order, sent ∈ sentLog crypto (new crypto profile outbound inbound) calls)
    (hadmissible : AdmissibleOrder order) (earlier : List Sent) (next : Sent)
    (hnext : earlier ++ [next] <+: order) :
    (next ∉ earlier → ∃ t, (unprotectRtp crypto next.wire).run (deliverAll crypto earlier r) =
      (.ok next.packet, t)) ∧
    (next ∈ earlier → (unprotectRtp crypto next.wire).run (deliverAll crypto earlier r) =
      (.error (.replay .replayDetected), deliverAll crypto earlier r)) := by
  have hlog : ∀ sent ∈ earlier ++ [next],
      sent ∈ sentLog crypto (new crypto profile outbound inbound) calls :=
    fun sent h => hsent sent (hnext.subset h)
  obtain ⟨parsed, hsealed⟩ := exists_sealed (hlog next (by simp))
  have hreceived : Received (new crypto profile outbound inbound) (deliverAll crypto earlier r)
      earlier := by
    refine received_deliverAll hprofile hkeys hfresh
      (fun sent h => exists_sealed (hlog sent (by simp [h]))) ?_
    intro before sent hbefore
    exact hadmissible before sent (hbefore.trans ((List.prefix_append _ _).trans hnext))
  have hrun := hreceived.unprotectRtp_run hsealed (hadmissible earlier next hnext)
  have hmem : next.index ∈ deliveredIndices earlier next.ssrc ↔ next ∈ earlier := by
    simp only [deliveredIndices, List.mem_map, List.mem_filter, decide_eq_true_eq]
    constructor
    · rintro ⟨sent, ⟨hearlier, hssrc⟩, hindex⟩
      rwa [← eq_of_mem_sentLog (hlog sent (by simp [hearlier])) (hlog next (by simp)) hssrc hindex]
    · intro hearlier
      exact ⟨next, ⟨hearlier, rfl⟩, rfl⟩
  constructor
  · intro hnew
    rw [hrun, if_neg (mt hmem.mp hnew)]
    exact ⟨_, rfl⟩
  · intro hold
    rw [hrun, if_pos (hmem.mpr hold)]

/-- A context that sends and receives under the same keys. -/
def Sample.peer : SrtpContext :=
  new Srtp.Sample.crypto .aes128CmSha1_32 Srtp.Sample.material Srtp.Sample.material

/-- The packets that the sample run protects: two of SSRC 7 around a wraparound, one of SSRC 9. -/
def Sample.sent (n : ℕ) : Sent :=
  (sentLog Srtp.Sample.crypto Sample.peer Sample.calls).getD n ⟨[], [], 0, 0⟩

/-- The SSRC 9 overtakes, and the first packet of SSRC 7 comes once more after the wraparound. -/
theorem sample_unprotectRtp_of_protectRtp :
    (Sample.sent 1).index = 65536 ∧
    (∃ t, (unprotectRtp Srtp.Sample.crypto (Sample.sent 1).wire).run
      (deliverAll Srtp.Sample.crypto [Sample.sent 2, Sample.sent 0] Sample.peer) =
        (.ok (Sample.sent 1).packet, t)) ∧
    (unprotectRtp Srtp.Sample.crypto (Sample.sent 0).wire).run
      (deliverAll Srtp.Sample.crypto [Sample.sent 2, Sample.sent 0, Sample.sent 1] Sample.peer) =
        (.error (.replay .replayDetected),
          deliverAll Srtp.Sample.crypto [Sample.sent 2, Sample.sent 0, Sample.sent 1]
            Sample.peer) := by
  have horder : AdmissibleOrder
      ([] ++ [Sample.sent 2] ++ [Sample.sent 0] ++ [Sample.sent 1] ++ [Sample.sent 0]) := by
    simp only [admissibleOrder_append]
    exact ⟨⟨⟨⟨admissibleOrder_nil, by decide⟩, by decide⟩, by decide⟩,
      by decide⟩
  have hsent : ∀ sent ∈ [Sample.sent 2, Sample.sent 0, Sample.sent 1, Sample.sent 0],
      sent ∈ sentLog Srtp.Sample.crypto Sample.peer Sample.calls := by decide
  refine ⟨by decide, ?_, ?_⟩
  · exact (unprotectRtp_of_protectRtp _ _ _ _ Sample.calls Sample.peer rfl rfl rfl _ hsent horder
      [Sample.sent 2, Sample.sent 0] (Sample.sent 1) (by simp)).1 (by decide)
  · exact (unprotectRtp_of_protectRtp _ _ _ _ Sample.calls Sample.peer rfl rfl rfl _ hsent horder
      [Sample.sent 2, Sample.sent 0, Sample.sent 1] (Sample.sent 0) (by simp)).2 (by decide)

end SrtpContext

end Fluvora.Srtp

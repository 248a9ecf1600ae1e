import Fluvora.Lib.Hex
import Fluvora.Protocol.Envelope

/-!
# The Web SDK's realtime envelopes

`encodeRealtimeEnvelope` and `decodeRealtimeEnvelope` of `sdk/web`, written in TypeScript against the
same layout as `Envelope` in `crates/foundation/protocol`.  What the SDK sends, the server reads as it
was meant.  What the server sends, the SDK reads except for kinds that the server's `Custom` and
`Unknown` take from the named ones: `encode` has no check like `validateCustomKind`.
-/

namespace Fluvora.WebSdk

open Results Protocol

/-- What a call throws, with its text. -/
inductive Error
  | rangeError (message : String)
  | typeError (message : String)
deriving DecidableEq

/-- A JavaScript number. -/
inductive Number
  | nan
  | infinity (negative : Bool)
  | finite (value : ℚ)
deriving DecidableEq

inductive RealtimeDataKind
  | chat
  | control
  | custom (value : Number)
deriving DecidableEq

/-- The `kind` of a decoded envelope. -/
inductive RealtimeKind
  | presence
  | chat
  | gift
  | control
  | number (value : UInt16)
deriving DecidableEq

structure RealtimeEnvelope where
  kind : RealtimeKind
  reliable : Bool
  ordered : Bool
  acknowledgementRequired : Bool
  roomId : String
  senderId : String
  sequence : ℕ
  timestampMillis : ℕ
  payload : Bytes
deriving DecidableEq

def realtimeEnvelopeHeaderBytes : ℕ := 60
def maxRealtimeMessageBytes : ℕ := 16 * 1024
def maxRealtimePayloadBytes : ℕ := maxRealtimeMessageBytes - realtimeEnvelopeHeaderBytes

/-! ## Writing -/

def validateCustomKind (value : Number) : Except Error ℤ :=
  match value with
  | .finite value =>
      if value.den ≠ 1 ∨ value < 0x8000 ∨ 0xffff < value then
        .error (.rangeError "custom realtime kind must be in 0x8000..=0xffff")
      else .ok value.num
  | _ => .error (.rangeError "custom realtime kind must be in 0x8000..=0xffff")

/-- `DataView.setUint16`: the number modulo 2^16, the high byte first. -/
def setUint16 (view : Bytes) (offset : ℕ) (value : ℤ) : Bytes :=
  view.overwrite offset (Bytes.ofU16 (.ofNat (value % 65536).toNat))

/-- `DataView.setUint32`: the number modulo 2^32, the high byte first. -/
def setUint32 (view : Bytes) (offset : ℕ) (value : ℤ) : Bytes :=
  view.overwrite offset (Bytes.ofU32 (.ofNat (value % 4294967296).toNat))

def kindCode : RealtimeDataKind → Except Error ℤ
  | .chat => .ok 2
  | .control => .ok 4
  | .custom value => validateCustomKind value

def encodeRealtimeEnvelope (kind : RealtimeDataKind) (payload : Bytes)
    (acknowledgementRequired : Bool) : Except Error Bytes := do
  if maxRealtimePayloadBytes < payload.length then
    .error (.rangeError "realtime payload exceeds 16324 bytes")
  else
    let kindCode ← kindCode kind
    let output : Bytes := List.replicate (realtimeEnvelopeHeaderBytes + payload.length) 0
    let output := output.overwrite 0
      [0x46, 0x4c, 0x55, 0x56, 1, if acknowledgementRequired then 0x07 else 0x03]
    let output := setUint16 output 6 kindCode
    let output := setUint32 output 56 payload.length
    return output.overwrite realtimeEnvelopeHeaderBytes payload

/-! ## Reading -/

/-- `DataView.getUint16`, `getUint32` and `getBigUint64`: a big-endian number of `width` bytes. -/
def getUint (width : ℕ) (view : Bytes) (offset : ℕ) : Except Error ℕ :=
  if offset + width ≤ view.length then .ok (Bytes.toNat ((view.drop offset).take width))
  else .error (.rangeError "Offset is outside the bounds of the DataView")

def readHexId (view : Bytes) (offset : ℕ) : Except Error String := do
  let high ← getUint 8 view offset
  let low ← getUint 8 view (offset + 8)
  return String.ofList (Hex.stripZeros
    (List.leftpad 16 '0' (Hex.numeral high) ++ List.leftpad 16 '0' (Hex.numeral low)))

def decodeRealtimeKind (value : UInt16) : RealtimeKind :=
  if value = 1 then .presence
  else if value = 2 then .chat
  else if value = 3 then .gift
  else if value = 4 then .control
  else .number value

def decodeRealtimeEnvelope (input : Bytes) : Except Error RealtimeEnvelope := do
  if input.length < realtimeEnvelopeHeaderBytes ∨ maxRealtimeMessageBytes < input.length ∨
      input[0]? ≠ some 0x46 ∨ input[1]? ≠ some 0x4c ∨ input[2]? ≠ some 0x55 ∨
      input[3]? ≠ some 0x56 ∨ input[4]? ≠ some 1 then
    .error (.typeError "invalid Fluvora realtime envelope")
  else
    let flags := input.getD 5 0
    if flags &&& ~~~0x07 ≠ 0 then
      .error (.typeError "unsupported realtime envelope flags")
    else
      let payloadLength ← getUint 4 input 56
      if maxRealtimePayloadBytes < payloadLength ∨
          payloadLength + realtimeEnvelopeHeaderBytes ≠ input.length then
        .error (.typeError "invalid realtime envelope payload length")
      else
        let kindCode ← getUint 2 input 6
        let payload : Bytes := List.replicate payloadLength 0
        let payload := payload.overwrite 0 (input.drop realtimeEnvelopeHeaderBytes)
        let roomId ← readHexId input 8
        let senderId ← readHexId input 24
        let sequence ← getUint 8 input 40
        let timestampMillis ← getUint 8 input 48
        return {
          kind := decodeRealtimeKind (.ofNat kindCode)
          reliable := flags &&& 0x01 ≠ 0
          ordered := flags &&& 0x02 ≠ 0
          acknowledgementRequired := flags &&& 0x04 ≠ 0
          roomId
          senderId
          sequence
          timestampMillis
          payload }

/-! ## What is sent -/

theorem overwrite_append {front old rest value : Bytes} (hlen : old.length = value.length) {offset : ℕ}
    (hoffset : front.length = offset) :
    (front ++ (old ++ rest)).overwrite offset value = front ++ (value ++ rest) := by
  subst hoffset
  rw [Bytes.overwrite, List.take_left, ← hlen, ← List.drop_drop, List.drop_left, List.drop_left,
    List.append_assoc]

/-- The kind of the envelope that the server is to read. -/
def SameKind : RealtimeDataKind → DataKind → Prop
  | .chat, .chat => True
  | .control, .control => True
  | .custom (.finite value), .custom code => value = code.toNat
  | _, _ => False

/-- The flags that the SDK sends. -/
def sentFlags (acknowledgementRequired : Bool) : EnvelopeFlags where
  bits := if acknowledgementRequired then 0x07 else 0x03
  allowed := by cases acknowledgementRequired <;> decide

/-- The envelope that the SDK sends; the server fills in who sent it, where and when. -/
def sentEnvelope (kind : DataKind) (payload : Bytes) (acknowledgementRequired : Bool) : Envelope where
  flags := sentFlags acknowledgementRequired
  kind := kind
  roomId := 0
  senderId := 0
  sequence := 0
  timestampMillis := 0
  payload := payload

theorem setUint16_toNat (view : Bytes) (offset : ℕ) (value : UInt16) :
    setUint16 view offset value.toNat = view.overwrite offset (Bytes.ofU16 value) := by
  have hvalue : (UInt16.ofNat ((value.toNat : ℤ) % 65536).toNat) = value := by
    have hmod : ((value.toNat : ℤ) % 65536).toNat = value.toNat := by
      have := value.toNat_lt
      omega
    rw [hmod, UInt16.ofNat_toNat]
  rw [setUint16, hvalue]

/-- The bytes that the SDK writes are a frame of the server's. -/
theorem written_eq_frame (kind : DataKind) (payload : Bytes) (acknowledgementRequired : Bool)
    (hlen : payload.length ≤ maxRealtimePayloadBytes) :
    (setUint32 (setUint16 (Bytes.overwrite
      (List.replicate (realtimeEnvelopeHeaderBytes + payload.length) 0) 0
      [0x46, 0x4c, 0x55, 0x56, 1, if acknowledgementRequired then 0x07 else 0x03])
      6 kind.toWire.toNat) 56 payload.length).overwrite realtimeEnvelopeHeaderBytes payload =
      (sentEnvelope kind payload acknowledgementRequired).frame := by
  have hzeros : (List.replicate (realtimeEnvelopeHeaderBytes + payload.length) (0 : UInt8)) =
      [] ++ (List.replicate 6 0 ++ (List.replicate 2 0 ++ (List.replicate 48 0 ++
        (List.replicate 4 0 ++ List.replicate payload.length 0)))) := by
    simp only [List.nil_append, List.replicate_append_replicate]
    congr 1
    unfold realtimeEnvelopeHeaderBytes
    omega
  have hword : UInt32.ofNat ((payload.length : ℤ) % 4294967296).toNat = .ofNat payload.length := by
    congr 1
    unfold maxRealtimePayloadBytes maxRealtimeMessageBytes realtimeEnvelopeHeaderBytes at hlen
    omega
  -- the four writes, front to back
  have hfirst (flags : UInt8) (rest : Bytes) :
      ([] ++ (List.replicate 6 0 ++ rest) : Bytes).overwrite 0 [0x46, 0x4c, 0x55, 0x56, 1, flags] =
        [] ++ ([0x46, 0x4c, 0x55, 0x56, 1, flags] ++ rest) := overwrite_append (by rfl) (by rfl)
  have hsecond (flags : UInt8) (rest : Bytes) :
      ([0x46, 0x4c, 0x55, 0x56, 1, flags] ++ (List.replicate 2 0 ++ rest) : Bytes).overwrite 6
          (Bytes.ofU16 kind.toWire) =
        [0x46, 0x4c, 0x55, 0x56, 1, flags] ++ (Bytes.ofU16 kind.toWire ++ rest) :=
    overwrite_append (by rfl) (by rfl)
  have hthird (flags : UInt8) (rest : Bytes) :
      ([0x46, 0x4c, 0x55, 0x56, 1, flags] ++ (Bytes.ofU16 kind.toWire ++ List.replicate 48 0) ++
          (List.replicate 4 0 ++ rest) : Bytes).overwrite 56 (Bytes.ofU32 (.ofNat payload.length)) =
        [0x46, 0x4c, 0x55, 0x56, 1, flags] ++ (Bytes.ofU16 kind.toWire ++ List.replicate 48 0) ++
          (Bytes.ofU32 (.ofNat payload.length) ++ rest) := overwrite_append (by rfl) (by rfl)
  have hfourth (flags : UInt8) :
      ([0x46, 0x4c, 0x55, 0x56, 1, flags] ++ (Bytes.ofU16 kind.toWire ++ List.replicate 48 0) ++
          Bytes.ofU32 (.ofNat payload.length) ++ (List.replicate payload.length 0 ++ []) :
          Bytes).overwrite realtimeEnvelopeHeaderBytes payload =
        [0x46, 0x4c, 0x55, 0x56, 1, flags] ++ (Bytes.ofU16 kind.toWire ++ List.replicate 48 0) ++
          Bytes.ofU32 (.ofNat payload.length) ++ (payload ++ []) :=
    overwrite_append List.length_replicate (by rfl)
  rw [hzeros, hfirst, List.nil_append, setUint16_toNat, hsecond, setUint32, hword]
  rw [← List.append_assoc (Bytes.ofU16 kind.toWire), ← List.append_assoc, hthird,
    ← List.append_nil (List.replicate payload.length (0 : UInt8)), ← List.append_assoc, hfourth,
    List.append_nil]
  have hids : List.replicate 48 (0 : UInt8) =
      ofU128 0 ++ (ofU128 0 ++ (Bytes.ofNat 8 0 ++ Bytes.ofNat 8 0)) := by decide
  rw [hids]
  simp only [List.append_assoc]
  rfl

theorem validateCustomKind_eq_ok {value : Number} {code : ℤ}
    (h : validateCustomKind value = .ok code) :
    ∃ number : UInt16, value = .finite number.toNat ∧ code = number.toNat ∧ 0x8000 ≤ number := by
  unfold validateCustomKind at h
  split at h
  case h_2 => cases h
  rename_i value
  obtain ⟨hrange, hcode⟩ := ite_error_eq_ok.mp h
  rw [not_or, not_or, not_not, not_lt, not_lt] at hrange
  obtain ⟨hinteger, hlow, hhigh⟩ := hrange
  obtain rfl := Except.ok.inj hcode
  have hvalue : value = (value.num : ℚ) := (Rat.den_eq_one_iff value).mp hinteger |>.symm
  rw [hvalue] at hlow hhigh
  have hlow : (0x8000 : ℤ) ≤ value.num := by exact_mod_cast hlow
  have hhigh : value.num ≤ (0xffff : ℤ) := by exact_mod_cast hhigh
  have hnat : (UInt16.ofNat value.num.toNat).toNat = value.num.toNat := by
    rw [UInt16.toNat_ofNat']
    omega
  have hint : ((UInt16.ofNat value.num.toNat).toNat : ℤ) = value.num := by
    rw [hnat]
    omega
  refine ⟨.ofNat value.num.toNat, ?_, hint.symm, ?_⟩
  · congr 1
    calc value = (value.num : ℚ) := hvalue
      _ = ((UInt16.ofNat value.num.toNat).toNat : ℚ) := by exact_mod_cast hint.symm
  · rw [UInt16.le_iff_toNat_le, hnat]
    show 0x8000 ≤ _
    omega

/-- What the SDK accepts is the frame of an envelope of the same kind. -/
theorem encodeRealtimeEnvelope_eq_ok {kind : RealtimeDataKind} {payload bytes : Bytes}
    {acknowledgementRequired : Bool}
    (h : encodeRealtimeEnvelope kind payload acknowledgementRequired = .ok bytes) :
    ∃ dataKind, SameKind kind dataKind ∧ dataKind.InRange ∧
      payload.length ≤ maxRealtimePayloadBytes ∧
      bytes = (sentEnvelope dataKind payload acknowledgementRequired).frame := by
  rw [encodeRealtimeEnvelope, ite_error_eq_ok, not_lt] at h
  obtain ⟨hlen, h⟩ := h
  obtain ⟨code, hcode, h⟩ := bind_eq_ok.mp h
  have hbytes (dataKind : DataKind) (heq : code = dataKind.toWire.toNat) :
      bytes = (sentEnvelope dataKind payload acknowledgementRequired).frame := by
    subst heq
    rw [← Except.ok.inj h]
    exact written_eq_frame dataKind payload acknowledgementRequired hlen
  cases kind with
  | chat => exact ⟨.chat, trivial, trivial, hlen, hbytes .chat (Except.ok.inj hcode).symm⟩
  | control => exact ⟨.control, trivial, trivial, hlen, hbytes .control (Except.ok.inj hcode).symm⟩
  | custom value =>
    obtain ⟨number, rfl, hnumber, hrange⟩ := validateCustomKind_eq_ok hcode
    exact ⟨.custom number, rfl, hrange, hlen, hbytes (.custom number) hnumber⟩

/-! ## What is received -/

/-- Bit 0: lossless delivery. -/
def reliable (flags : EnvelopeFlags) : Bool := flags.bits &&& 0x01 ≠ 0

/-- Bit 1: delivery in the order of the sender. -/
def ordered (flags : EnvelopeFlags) : Bool := flags.bits &&& 0x02 ≠ 0

/-- Bit 2: the application expects an acknowledgement. -/
def acknowledgementRequired (flags : EnvelopeFlags) : Bool := flags.bits &&& 0x04 ≠ 0

/-- A kind of the server's as the SDK names it. -/
def viewKind : DataKind → RealtimeKind
  | .presence => .presence
  | .chat => .chat
  | .gift => .gift
  | .control => .control
  | .custom value | .unknown value => .number value

/-- An envelope of the server's as the SDK gives it to the application. -/
def view (envelope : Envelope) : RealtimeEnvelope where
  kind := viewKind envelope.kind
  reliable := reliable envelope.flags
  ordered := ordered envelope.flags
  acknowledgementRequired := acknowledgementRequired envelope.flags
  roomId := String.ofList (Hex.numeral envelope.roomId.toNat)
  senderId := String.ofList (Hex.numeral envelope.senderId.toNat)
  sequence := envelope.sequence.toNat
  timestampMillis := envelope.timestampMillis.toNat
  payload := envelope.payload

/-- The number of the kind is not one of the named kinds. -/
def Unnamed : DataKind → Prop
  | .custom value | .unknown value => value ≠ 1 ∧ value ≠ 2 ∧ value ≠ 3 ∧ value ≠ 4
  | _ => True

theorem decodeRealtimeKind_iff (kind : DataKind) :
    decodeRealtimeKind kind.toWire = viewKind kind ↔ Unnamed kind := by
  have hnumber (value : UInt16) : decodeRealtimeKind value = .number value ↔
      value ≠ 1 ∧ value ≠ 2 ∧ value ≠ 3 ∧ value ≠ 4 := by
    unfold decodeRealtimeKind
    split_ifs with h1 h2 h3 h4 <;> simp [*]
  cases kind with
  | presence => exact iff_of_true rfl trivial
  | chat => exact iff_of_true rfl trivial
  | gift => exact iff_of_true rfl trivial
  | control => exact iff_of_true rfl trivial
  | custom value => exact hnumber value
  | unknown value => exact hnumber value

theorem getUint_of_drop {view : Bytes} {width offset n : ℕ} {rest : Bytes} (hwidth : 0 < width)
    (h : view.drop offset = Bytes.ofNat width n ++ rest) :
    getUint width view offset = .ok (n % 256 ^ width) := by
  have hlen : offset + width ≤ view.length := by
    have hlength := congrArg List.length h
    rw [List.length_drop, List.length_append, Bytes.length_ofNat] at hlength
    omega
  rw [getUint, if_pos hlen, h, List.take_left' (Bytes.length_ofNat width n), Bytes.toNat_ofNat]

/-- An identifier is read as its numeral. -/
theorem readHexId_of_drop {view rest : Bytes} {offset : ℕ} {value : BitVec 128}
    (h : view.drop offset = ofU128 value ++ rest) :
    readHexId view offset = .ok (String.ofList (Hex.numeral value.toNat)) := by
  have hlt := value.isLt
  rw [ofU128, List.append_assoc] at h
  have hhigh := getUint_of_drop (by decide) h
  have hlow := getUint_of_drop (by decide)
    (Bytes.drop_behind h (by rw [Bytes.length_ofNat] : _ = offset + 8))
  have hpow : (256 : ℕ) ^ 8 = 2 ^ 64 := by norm_num
  rw [toNat_highWord, hpow, Nat.mod_eq_of_lt (by omega)] at hhigh
  rw [toNat_lowWord, hpow, Nat.mod_mod] at hlow
  have hwords := @Hex.stripZeros_words 16 (by decide) (value.toNat / 2 ^ 64)
    (value.toNat % 2 ^ 64) (by omega)
  have hjoin : value.toNat / 2 ^ 64 * 16 ^ 16 + value.toNat % 2 ^ 64 = value.toNat := by
    have hpow : (16 : ℕ) ^ 16 = 2 ^ 64 := by norm_num
    rw [hpow]
    omega
  rw [hjoin] at hwords
  rw [readHexId, hhigh, bind_ok, hlow, bind_ok, hwords]
  rfl

/-- The SDK reads every frame within its limit, all but the kind as it was meant. -/
theorem decodeRealtimeEnvelope_frame (envelope : Envelope)
    (hlen : envelope.payload.length ≤ maxRealtimePayloadBytes) :
    decodeRealtimeEnvelope envelope.frame =
      .ok { view envelope with kind := decodeRealtimeKind envelope.kind.toWire } := by
  have hlength := envelope.length_frame
  have hheader : headerLen = realtimeEnvelopeHeaderBytes := rfl
  have hmaximum : maxRealtimePayloadBytes + realtimeEnvelopeHeaderBytes = maxRealtimeMessageBytes := rfl
  have hword : envelope.payload.length < 256 ^ 4 := by
    refine hlen.trans_lt ?_
    decide
  -- what stands at each offset
  have h6 : envelope.frame.drop 6 = Bytes.ofU16 envelope.kind.toWire ++ (ofU128 envelope.roomId ++
      (ofU128 envelope.senderId ++ (Bytes.ofNat 8 envelope.sequence.toNat ++
        (Bytes.ofNat 8 envelope.timestampMillis.toNat ++
          (Bytes.ofU32 (.ofNat envelope.payload.length) ++ envelope.payload))))) := rfl
  have h8 := Bytes.drop_behind h6 (by rfl : _ = 8)
  have h24 := Bytes.drop_behind h8 (by rw [length_ofU128] : _ = 24)
  have h40 := Bytes.drop_behind h24 (by rw [length_ofU128] : _ = 40)
  have h48 := Bytes.drop_behind h40 (by rw [Bytes.length_ofNat] : _ = 48)
  have h56 := Bytes.drop_behind h48 (by rw [Bytes.length_ofNat] : _ = 56)
  have h60 := Bytes.drop_behind h56 (by rw [Bytes.length_ofU32] : _ = 60)
  have hflags : envelope.frame.getD 5 0 = envelope.flags.bits := rfl
  have hpayload : getUint 4 envelope.frame 56 = .ok envelope.payload.length := by
    rw [Bytes.ofU32_eq_ofNat] at h56
    rw [getUint_of_drop (by decide) h56, UInt32.toNat_ofNat', Nat.mod_mod_of_dvd _ (by decide),
      Nat.mod_eq_of_lt hword]
  have hkind : getUint 2 envelope.frame 6 = .ok envelope.kind.toWire.toNat := by
    have hlt : envelope.kind.toWire.toNat < 256 ^ 2 := envelope.kind.toWire.toNat_lt
    rw [Bytes.ofU16_eq_ofNat] at h6
    rw [getUint_of_drop (by decide) h6, Nat.mod_eq_of_lt hlt]
  have hsequence : getUint 8 envelope.frame 40 = .ok envelope.sequence.toNat := by
    have hlt : envelope.sequence.toNat < 256 ^ 8 := envelope.sequence.toNat_lt
    rw [getUint_of_drop (by decide) h40, Nat.mod_eq_of_lt hlt]
  have htimestamp : getUint 8 envelope.frame 48 = .ok envelope.timestampMillis.toNat := by
    have hlt : envelope.timestampMillis.toNat < 256 ^ 8 := envelope.timestampMillis.toNat_lt
    rw [getUint_of_drop (by decide) h48, Nat.mod_eq_of_lt hlt]
  have hcopied : Bytes.overwrite (List.replicate envelope.payload.length 0) 0
      (envelope.frame.drop realtimeEnvelopeHeaderBytes) = envelope.payload := by
    have hdrop : envelope.frame.drop realtimeEnvelopeHeaderBytes = envelope.payload := h60
    rw [hdrop, Bytes.overwrite, List.take_zero, List.nil_append, Nat.zero_add, List.drop_replicate,
      Nat.sub_self, List.replicate_zero, List.append_nil]
  rw [decodeRealtimeEnvelope, if_neg, hflags]
  · dsimp only
    rw [if_neg (not_not_intro envelope.flags.allowed), hpayload, bind_ok, if_neg, hkind, bind_ok,
      hcopied, readHexId_of_drop h8, bind_ok, readHexId_of_drop h24, bind_ok, hsequence, bind_ok,
      htimestamp, bind_ok, UInt16.ofNat_toNat]
    · rfl
    · rw [not_or, not_not, hlength]
      omega
  · simp only [not_or, not_not, not_lt]
    exact ⟨by omega, by omega, rfl, rfl, rfl, rfl, rfl⟩

/-- The two implementations understand each other, but for the kinds that the server numbers like a
named one. -/
theorem envelopes_interoperate (maximum : ℕ) :
    (∀ kind payload acknowledgementRequired bytes,
      encodeRealtimeEnvelope kind payload acknowledgementRequired = .ok bytes →
      payload.length ≤ maxRealtimePayloadBytes ∧
      (payload.length ≤ maximum → ∃ dataKind, SameKind kind dataKind ∧
        Envelope.decode bytes maximum =
          .ok (sentEnvelope dataKind payload acknowledgementRequired))) ∧
    ∀ (envelope : Envelope) (bytes : Bytes), envelope.encode maximum = .ok bytes →
      envelope.payload.length ≤ maxRealtimePayloadBytes →
      (∃ kind, decodeRealtimeEnvelope bytes = .ok { view envelope with kind }) ∧
      (decodeRealtimeEnvelope bytes = .ok (view envelope) ↔ Unnamed envelope.kind) := by
  constructor
  · intro kind payload acknowledgementRequired bytes h
    obtain ⟨dataKind, hsame, hrange, hlen, rfl⟩ := encodeRealtimeEnvelope_eq_ok h
    refine ⟨hlen, fun hmaximum => ⟨dataKind, hsame, ?_⟩⟩
    have hword : payload.length ≤ 4294967295 := hlen.trans (by decide)
    have hdecode := Envelope.decode_frame
      (sentEnvelope dataKind payload acknowledgementRequired) hmaximum hword
    rw [hdecode]
    congr 1
    have hkind : DataKind.fromWire dataKind.toWire = dataKind :=
      (DataKind.fromWire_toWire_iff dataKind).mpr hrange
    rw [sentEnvelope, hkind]
  · intro envelope bytes h hlen
    obtain ⟨-, -, -, rfl⟩ := Envelope.encode_eq_ok.mp h
    rw [decodeRealtimeEnvelope_frame envelope hlen, ← decodeRealtimeKind_iff, Except.ok.injEq]
    refine ⟨⟨_, rfl⟩, ?_, ?_⟩
    · exact fun heq => congrArg RealtimeEnvelope.kind heq
    · intro hkind
      rw [hkind]
      rfl

/-- The server's `Custom(1)` arrives as a presence update. -/
theorem custom_one_viewed_as_presence :
    ∃ bytes, Envelope.encode Envelope.Sample.misnumbered 16 = .ok bytes ∧
      Envelope.Sample.misnumbered.payload.length ≤ maxRealtimePayloadBytes ∧
      decodeRealtimeEnvelope bytes ≠ .ok (view Envelope.Sample.misnumbered) := by
  have hencode : Envelope.Sample.misnumbered.encode 16 = .ok Envelope.Sample.misnumbered.frame :=
    Envelope.encode_eq_ok.mpr ⟨by decide, by decide, by decide, rfl⟩
  refine ⟨_, hencode, by decide, ?_⟩
  rw [decodeRealtimeEnvelope_frame _ (by decide)]
  intro h
  cases congrArg RealtimeEnvelope.kind (Except.ok.inj h)

end Fluvora.WebSdk

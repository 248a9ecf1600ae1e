import Fluvora.ApiServer.Persistence
import Fluvora.Lib.Fields
import Fluvora.Lib.Hex
import Fluvora.Lib.Results

/-!
# Gift receipts

`verify_gift_receipt` of `crates/services/api-server`: the payment provider authenticates a room and
all fields of a gift with a MAC under a shared secret.  The message that is authenticated is put
together from texts with their lengths in front and numbers of a fixed width, so that it tells each of
them.  HMAC-SHA256 and the base64 decoder of the signature are parameters.
-/

namespace Fluvora.ApiServer

open Domain Bytes

def receiptMaxClockSkewMillis : ℕ := 5 * 60 * 1000
def sha256Base64UrlLength : ℕ := 43
def maxProviderLength : ℕ := 64
def maxTransactionIdLength : ℕ := 512
def maxGiftIdLength : ℕ := 256

structure GiftRequest where
  provider : String
  providerTimestampMillis : UInt64
  providerSignature : String
  senderId : String
  transactionId : String
  giftId : String
  quantity : UInt32
  unitValue : UInt64
  currency : String
  recipientId : String
deriving DecidableEq

def invalidGiftSignature : ApiError :=
  ⟨422, "invalid_gift_receipt_signature", "gift receipt signature, timestamp, or fields are invalid"⟩

/-! ## Shape -/

def safeIdentifier (value : String) (maximum : ℕ) : Bool :=
  !value.isEmpty && value.utf8ByteSize ≤ maximum &&
    (asBytes value).all fun byte => isAsciiAlphanumeric byte || byte == 0x2d || byte == 0x5f

def boundedText (value : String) (maximum : ℕ) : Bool :=
  !value.isEmpty && value.utf8ByteSize ≤ maximum && !value.toList.any isControl

/-- `u8::is_ascii_hexdigit`. -/
def isAsciiHexdigit (byte : UInt8) : Bool :=
  (0x30 ≤ byte && byte ≤ 0x39) || (0x41 ≤ byte && byte ≤ 0x46) || (0x61 ≤ byte && byte ≤ 0x66)

def validHexId (value : String) : Bool :=
  value.utf8ByteSize == 32 && (asBytes value).all isAsciiHexdigit

/-- `u64::abs_diff`. -/
def absDiff (a b : UInt64) : ℕ := max (a.toNat - b.toNat) (b.toNat - a.toNat)

def validReceiptShape (request : GiftRequest) (nowMillis : UInt64) : Bool :=
  absDiff nowMillis request.providerTimestampMillis ≤ receiptMaxClockSkewMillis &&
    safeIdentifier request.provider maxProviderLength &&
    boundedText request.transactionId maxTransactionIdLength &&
    boundedText request.giftId maxGiftIdLength &&
    validHexId request.senderId &&
    validHexId request.recipientId &&
    0 < request.quantity &&
    request.unitValue.toNat * request.quantity.toNat < 2 ^ 64 &&
    request.currency.utf8ByteSize == 3 &&
    (asBytes request.currency).all isAsciiUppercase &&
    request.providerSignature.utf8ByteSize == sha256Base64UrlLength

/-! ## The message -/

def giftMacField (value : String) : Bytes := prefixed (asBytes value)

/-- `format!("{:032x}", room_id.0)`. -/
def roomIdText (roomId : RoomId) : String :=
  .ofList (List.leftpad 32 '0' (Hex.numeral roomId.toNat))

/-- What `gift_receipt_mac` feeds to the MAC. -/
def giftReceiptMessage (roomId : RoomId) (request : GiftRequest) : Bytes :=
  asBytes "fluvora-gift-receipt-v1" ++
    (giftMacField (roomIdText roomId) ++
    (giftMacField request.provider ++
    (giftMacField request.transactionId ++
    (giftMacField request.senderId ++
    (giftMacField request.recipientId ++
    (giftMacField request.giftId ++
    (ofNat 4 request.quantity.toNat ++
    (ofNat 8 request.unitValue.toNat ++
    (giftMacField request.currency ++
    ofNat 8 request.providerTimestampMillis.toNat)))))))))

/-- The MAC accepts a key of any length; it is compared with the whole signature. -/
def verifyGiftReceipt (hmac : Bytes → Bytes → Vector UInt8 32) (decode : String → Option Bytes)
    (secret : Bytes) (roomId : RoomId) (request : GiftRequest) (nowMillis : UInt64) :
    Except ApiError Unit :=
  if validReceiptShape request nowMillis = false then
    .error invalidGiftSignature
  else
    match decode request.providerSignature with
    | none => .error invalidGiftSignature
    | some signature =>
        if (hmac secret (giftReceiptMessage roomId request)).toList = signature then .ok ()
        else .error invalidGiftSignature

/-! ## What the message tells -/

theorem asBytes_inj {a b : String} (h : asBytes a = asBytes b) : a = b := by
  unfold asBytes at h
  rw [Array.toList_inj] at h
  exact String.toByteArray_inj.mp (ByteArray.ext h)

theorem length_asBytes (value : String) : (asBytes value).length = value.utf8ByteSize := by
  rw [asBytes, Array.length_toList]
  exact value.size_toByteArray

theorem roomIdText_inj {roomId roomId' : RoomId} (h : roomIdText roomId = roomIdText roomId') :
    roomId = roomId' :=
  BitVec.eq_of_toNat_eq (Hex.leftpad_numeral_inj (String.ofList_injective h))

theorem length_asBytes_ofList_le (chars : List Char) :
    (asBytes (.ofList chars)).length ≤ 4 * chars.length := by
  have hbytes : asBytes (.ofList chars) = chars.flatMap String.utf8EncodeChar := by
    simp [asBytes, List.utf8Encode]
  rw [hbytes]
  induction chars with
  | nil => rfl
  | cons c chars ih =>
    have hchar := c.utf8Size_le_four
    rw [List.flatMap_cons, List.length_append, String.length_utf8EncodeChar, List.length_cons]
    have hrest : (chars.flatMap String.utf8EncodeChar).length ≤ 4 * chars.length :=
      ih (by simp [asBytes, List.utf8Encode])
    omega

/-- The number of a room has 32 digits. -/
theorem length_roomIdText_lt (roomId : RoomId) : (asBytes (roomIdText roomId)).length < 2 ^ 64 := by
  have hdigits : (Hex.numeral roomId.toNat).length ≤ 32 :=
    (Nat.length_toDigits_le_iff (by decide) (by decide)).mpr roomId.isLt
  have hbound := length_asBytes_ofList_le (List.leftpad 32 '0' (Hex.numeral roomId.toNat))
  rw [List.length_leftpad, max_eq_left hdigits] at hbound
  exact Nat.lt_of_le_of_lt hbound (by decide)

/-- The texts of a request that has the right shape are short. -/
structure GiftRequest.Short (request : GiftRequest) : Prop where
  provider : (asBytes request.provider).length < 2 ^ 64
  transactionId : (asBytes request.transactionId).length < 2 ^ 64
  senderId : (asBytes request.senderId).length < 2 ^ 64
  recipientId : (asBytes request.recipientId).length < 2 ^ 64
  giftId : (asBytes request.giftId).length < 2 ^ 64
  currency : (asBytes request.currency).length < 2 ^ 64

theorem short_of_validReceiptShape {request : GiftRequest} {nowMillis : UInt64}
    (h : validReceiptShape request nowMillis = true) : request.Short := by
  unfold validReceiptShape safeIdentifier boundedText validHexId at h
  simp only [Bool.and_eq_true, decide_eq_true_eq, beq_iff_eq, ← length_asBytes] at h
  unfold maxProviderLength maxTransactionIdLength maxGiftIdLength at h
  constructor <;> omega

/-- Messages are told apart by every field of a gift but the signature. -/
theorem giftReceiptMessage_inj {roomId roomId' : RoomId} {request request' : GiftRequest}
    (hshort : request.Short) (hshort' : request'.Short)
    (h : giftReceiptMessage roomId request = giftReceiptMessage roomId' request') :
    roomId = roomId' ∧
      { request with providerSignature := request'.providerSignature } = request' := by
  have hroom := length_roomIdText_lt roomId
  have hroom' := length_roomIdText_lt roomId'
  unfold giftReceiptMessage giftMacField at h
  have h := List.append_cancel_left h
  obtain ⟨hid, h⟩ := prefixed_append_inj hroom hroom' h
  obtain ⟨hprovider, h⟩ := prefixed_append_inj hshort.provider hshort'.provider h
  obtain ⟨htransaction, h⟩ := prefixed_append_inj hshort.transactionId hshort'.transactionId h
  obtain ⟨hsender, h⟩ := prefixed_append_inj hshort.senderId hshort'.senderId h
  obtain ⟨hrecipient, h⟩ := prefixed_append_inj hshort.recipientId hshort'.recipientId h
  obtain ⟨hgift, h⟩ := prefixed_append_inj hshort.giftId hshort'.giftId h
  obtain ⟨hquantity, h⟩ := ofNat_append_inj request.quantity.toNat_lt request'.quantity.toNat_lt h
  obtain ⟨hvalue, h⟩ := ofNat_append_inj request.unitValue.toNat_lt request'.unitValue.toNat_lt h
  obtain ⟨hcurrency, h⟩ := prefixed_append_inj hshort.currency hshort'.currency h
  rw [← List.append_nil (ofNat 8 request.providerTimestampMillis.toNat),
    ← List.append_nil (ofNat 8 request'.providerTimestampMillis.toNat)] at h
  obtain ⟨htimestamp, -⟩ := ofNat_append_inj request.providerTimestampMillis.toNat_lt
    request'.providerTimestampMillis.toNat_lt h
  refine ⟨roomIdText_inj (asBytes_inj hid), ?_⟩
  cases request
  cases request'
  simp only [GiftRequest.mk.injEq, true_and]
  exact ⟨asBytes_inj hprovider, UInt64.toNat_inj.mp htimestamp, asBytes_inj hsender,
    asBytes_inj htransaction, asBytes_inj hgift, UInt32.toNat_inj.mp hquantity,
    UInt64.toNat_inj.mp hvalue, asBytes_inj hcurrency, asBytes_inj hrecipient⟩

/-- An accepted receipt has the right shape, and its signature is the MAC of its message. -/
theorem verifyGiftReceipt_eq_ok {hmac : Bytes → Bytes → Vector UInt8 32}
    {decode : String → Option Bytes} {secret : Bytes} {roomId : RoomId} {request : GiftRequest}
    {nowMillis : UInt64} :
    verifyGiftReceipt hmac decode secret roomId request nowMillis = .ok () ↔
      validReceiptShape request nowMillis = true ∧ decode request.providerSignature =
        some (hmac secret (giftReceiptMessage roomId request)).toList := by
  unfold verifyGiftReceipt
  rw [Results.ite_error_eq_ok, Bool.not_eq_false]
  refine and_congr_right fun _ => ?_
  cases decode request.providerSignature with
  | none => simp
  | some signature =>
    dsimp only
    rw [Option.some.injEq]
    split_ifs with heq
    · exact ⟨fun _ => heq.symm, fun _ => rfl⟩
    · exact ⟨nofun, fun h => absurd h.symm heq⟩

/-- The message is an injective function of the room and of every field but the signature, for all
requests of the right shape; and two receipts that are accepted with the same signature agree on all of
them, unless the MAC is the same for two different messages. -/
theorem receipts_bound :
    (∀ roomId roomId' request request' nowMillis nowMillis',
      validReceiptShape request nowMillis = true → validReceiptShape request' nowMillis' = true →
      giftReceiptMessage roomId request = giftReceiptMessage roomId' request' →
        roomId = roomId' ∧
          { request with providerSignature := request'.providerSignature } = request') ∧
    ∀ (hmac : Bytes → Bytes → Vector UInt8 32) (decode : String → Option Bytes) (secret : Bytes)
      (roomId roomId' : RoomId) (request request' : GiftRequest) (nowMillis nowMillis' : UInt64),
      verifyGiftReceipt hmac decode secret roomId request nowMillis = .ok () →
      verifyGiftReceipt hmac decode secret roomId' request' nowMillis' = .ok () →
      request.providerSignature = request'.providerSignature →
      (hmac secret (giftReceiptMessage roomId request) =
          hmac secret (giftReceiptMessage roomId' request') →
        giftReceiptMessage roomId request = giftReceiptMessage roomId' request') →
      roomId = roomId' ∧ request = request' := by
  have hmessage : ∀ roomId roomId' request request' nowMillis nowMillis',
      validReceiptShape request nowMillis = true → validReceiptShape request' nowMillis' = true →
      giftReceiptMessage roomId request = giftReceiptMessage roomId' request' →
        roomId = roomId' ∧
          { request with providerSignature := request'.providerSignature } = request' :=
    fun _ _ _ _ _ _ hshape hshape' => giftReceiptMessage_inj (short_of_validReceiptShape hshape)
      (short_of_validReceiptShape hshape')
  refine ⟨hmessage, fun hmac decode secret roomId roomId' request request' nowMillis nowMillis' h h'
    hsignature hmac_inj => ?_⟩
  obtain ⟨hshape, hdecode⟩ := verifyGiftReceipt_eq_ok.mp h
  obtain ⟨hshape', hdecode'⟩ := verifyGiftReceipt_eq_ok.mp h'
  rw [hsignature, hdecode', Option.some.injEq] at hdecode
  have htag := Vector.toList_inj.mp hdecode.symm
  obtain ⟨hroom, hrequest⟩ := hmessage _ _ _ _ _ _ hshape hshape' (hmac_inj htag)
  refine ⟨hroom, ?_⟩
  rw [← hrequest, ← hsignature]

end Fluvora.ApiServer

import Fluvora.Stun.Message

/-!
# What the builder writes

A built message is its header followed by the attributes in order, each padded to whole words
(`wires`).  Integrity and fingerprint are attributes like the others, computed from the message in
front of them with a length that already ends behind them (`sealedAttributes`).  `build` succeeds
with these bytes exactly when every value and the whole body fit 16 bits (`build_eq_ok`).
-/

namespace Fluvora.Stun

open Results

/-- An attribute on the wire. -/
def wire (kind : AttributeType) (value : Bytes) : Bytes :=
  Bytes.ofU16 kind.value ++ (Bytes.ofU16 (.ofNat value.length) ++
    (value ++ List.replicate (padding value.length) 0))

def wires (attributes : List (AttributeType × Bytes)) : Bytes :=
  attributes.flatMap fun entry => wire entry.1 entry.2

/-- The header of a message with a body of some length. -/
def header (messageType : MessageType) (length : ℕ) (transactionId : TransactionId) : Bytes :=
  Bytes.ofU16 messageType.encode ++ (Bytes.ofU16 (.ofNat length) ++
    (Bytes.ofU32 magicCookie ++ transactionId.toList))

theorem length_wire (kind : AttributeType) (value : Bytes) :
    (wire kind value).length = 4 + value.length + padding value.length := by
  simp [wire]
  omega

@[simp] theorem wires_nil : wires [] = [] := rfl

@[simp] theorem wires_cons (entry : AttributeType × Bytes) (rest : List (AttributeType × Bytes)) :
    wires (entry :: rest) = wire entry.1 entry.2 ++ wires rest := rfl

@[simp] theorem wires_append (front rest : List (AttributeType × Bytes)) :
    wires (front ++ rest) = wires front ++ wires rest := List.flatMap_append

@[simp] theorem length_header (messageType : MessageType) (length : ℕ)
    (transactionId : TransactionId) : (header messageType length transactionId).length = 20 := by
  simp [header]

/-! ## Writing attributes -/

/-- A write in front of further ones. -/
theorem encoding_bind_eq_ok {α : Type} {output : WriteBuffer} {value : Bytes}
    {f : WriteBuffer → Except StunError α} {a : α} :
    encoding (output.extendFromSlice value) >>= f = .ok a ↔
      output.len + value.length ≤ output.limit ∧
        f ⟨output.bytes ++ value, output.limit⟩ = .ok a := by
  rw [bind_eq_ok]
  constructor
  · rintro ⟨next, hwrite, hrest⟩
    obtain ⟨hfits, rfl⟩ := WriteBuffer.extendFromSlice_eq_ok.mp (mapError_eq_ok.mp hwrite)
    exact ⟨hfits, hrest⟩
  · rintro ⟨hfits, hrest⟩
    exact ⟨_, mapError_eq_ok.mpr (WriteBuffer.extendFromSlice_eq_ok.mpr ⟨hfits, rfl⟩), hrest⟩

theorem encodeAttribute_eq_ok {output next : WriteBuffer} {kind : AttributeType} {value : Bytes} :
    encodeAttribute output kind value = .ok next ↔ value.length ≤ 65535 ∧
      output.len + (wire kind value).length ≤ output.limit ∧
        next = ⟨output.bytes ++ wire kind value, output.limit⟩ := by
  have hlen := length_wire kind value
  have hlast {last : WriteBuffer} {tail : Bytes} :
      encoding (last.extendFromSlice tail) = .ok next ↔ last.len + tail.length ≤ last.limit ∧
        next = ⟨last.bytes ++ tail, last.limit⟩ :=
    mapError_eq_ok.trans WriteBuffer.extendFromSlice_eq_ok
  simp only [encodeAttribute, ite_error_eq_ok, Nat.not_lt, WriteBuffer.writeU16,
    encoding_bind_eq_ok, hlast, WriteBuffer.len, List.length_append, Bytes.length_ofU16,
    List.length_replicate]
  refine and_congr_right fun _ => ?_
  constructor
  · rintro ⟨-, -, -, hfits, rfl⟩
    refine ⟨by omega, ?_⟩
    simp [wire]
  · rintro ⟨hfits, rfl⟩
    refine ⟨by omega, by omega, by omega, by omega, ?_⟩
    simp [wire]

theorem encodeAttributes_eq_ok {output next : WriteBuffer}
    {attributes : List (AttributeType × Bytes)} (hlimit : output.len ≤ output.limit) :
    encodeAttributes output attributes = .ok next ↔
      (∀ entry ∈ attributes, entry.2.length ≤ 65535) ∧
        output.len + (wires attributes).length ≤ output.limit ∧
          next = ⟨output.bytes ++ wires attributes, output.limit⟩ := by
  induction attributes generalizing output with
  | nil =>
    simp only [encodeAttributes, Except.ok.injEq, List.not_mem_nil, false_implies, implies_true,
      wires_nil, List.length_nil, Nat.add_zero, hlimit, List.append_nil, true_and]
    exact eq_comm
  | cons entry rest ih =>
    obtain ⟨kind, value⟩ := entry
    have hmiddle : WriteBuffer.len ⟨output.bytes ++ wire kind value, output.limit⟩ =
        output.len + (wire kind value).length := List.length_append
    have hrest := @ih ⟨output.bytes ++ wire kind value, output.limit⟩
    rw [hmiddle] at hrest
    rw [encodeAttributes, bind_eq_ok, wires_cons, List.length_append, List.forall_mem_cons]
    dsimp only at hrest ⊢
    constructor
    · rintro ⟨middle, hentry, htail⟩
      obtain ⟨hvalue, hfits, rfl⟩ := encodeAttribute_eq_ok.mp hentry
      obtain ⟨hvalues, hall, rfl⟩ := (hrest hfits).mp htail
      exact ⟨⟨hvalue, hvalues⟩, by omega, by rw [List.append_assoc]⟩
    · rintro ⟨⟨hvalue, hvalues⟩, hall, rfl⟩
      refine ⟨_, encodeAttribute_eq_ok.mpr ⟨hvalue, by omega, rfl⟩,
        (hrest (by omega)).mpr ⟨hvalues, by omega, by rw [List.append_assoc]⟩⟩

/-! ## Writing lengths -/

variable {messageType : MessageType} {transactionId : TransactionId} {length limit : ℕ} {body : Bytes}

theorem overwrite_header (n : ℕ) :
    Bytes.overwrite (header messageType length transactionId ++ body) 2 (Bytes.ofU16 (.ofNat n)) =
      header messageType n transactionId ++ body := rfl

/-- The length of a message of some complete length is written into its header. -/
theorem setWireLength_eq_ok {next : WriteBuffer} {complete : ℕ} :
    setWireLength ⟨header messageType length transactionId ++ body, limit⟩ complete = .ok next ↔
      headerLen ≤ complete ∧ complete - headerLen ≤ 65535 ∧
        next = ⟨header messageType (complete - headerLen) transactionId ++ body, limit⟩ := by
  have hlong : 2 + (Bytes.ofU16 (.ofNat (complete - headerLen))).length ≤
      WriteBuffer.len ⟨header messageType length transactionId ++ body, limit⟩ := by
    simp [WriteBuffer.len]
    omega
  rw [setWireLength, ite_error_eq_ok, not_or, Nat.not_lt, Nat.not_lt, encoding, mapError_eq_ok,
    WriteBuffer.setU16, WriteBuffer.setSlice_eq_ok, overwrite_header, and_assoc]
  simp only [hlong, true_and]

/-! ## The attributes that end a message -/

/-- The bytes an attribute with a value of some length takes. -/
def wireLen (valueLen : ℕ) : ℕ := 4 + valueLen + padding valueLen

/-- An attribute behind the others whose value is computed from the message in front of it. -/
def sealWith (messageType : MessageType) (transactionId : TransactionId)
    (attributes : List (AttributeType × Bytes)) (kind : AttributeType) (valueLen : ℕ)
    (value : Bytes → Bytes) : List (AttributeType × Bytes) :=
  attributes ++ [(kind, value (header messageType ((wires attributes).length + wireLen valueLen)
    transactionId ++ wires attributes))]

def sealIntegrity (digests : Digests) (messageType : MessageType) (transactionId : TransactionId)
    (attributes : List (AttributeType × Bytes)) : Option Integrity → List (AttributeType × Bytes)
  | none => attributes
  | some (.sha1 key) => sealWith messageType transactionId attributes .messageIntegrity 20
      fun input => (digests.hmacSha1 key input).toList
  | some (.sha256 key) => sealWith messageType transactionId attributes .messageIntegritySha256 32
      fun input => (digests.hmacSha256 key input).toList

def sealFingerprint (digests : Digests) (messageType : MessageType) (transactionId : TransactionId)
    (attributes : List (AttributeType × Bytes)) (fingerprint : Bool) :
    List (AttributeType × Bytes) :=
  if fingerprint then sealWith messageType transactionId attributes .fingerprint 4
    fun input => Bytes.ofU32 (digests.crc32 input ^^^ fingerprintXor)
  else attributes

/-- All attributes of a built message. -/
def sealedAttributes (digests : Digests) (builder : MessageBuilder) :
    List (AttributeType × Bytes) :=
  sealFingerprint digests builder.messageType builder.transactionId
    (sealIntegrity digests builder.messageType builder.transactionId builder.attributes
      builder.integrity) builder.fingerprint

section Sealing

variable {digests : Digests} {attributes : List (AttributeType × Bytes)} {next : WriteBuffer}

theorem length_wires_sealWith {kind : AttributeType} {valueLen : ℕ} {value : Bytes → Bytes}
    (hvalue : ∀ input, (value input).length = valueLen) :
    (wires (sealWith messageType transactionId attributes kind valueLen value)).length =
      (wires attributes).length + wireLen valueLen := by
  rw [sealWith, wires_append, wires_cons, wires_nil, List.append_nil, List.length_append,
    length_wire, hvalue, wireLen]

theorem sealWith_eq_ok {kind : AttributeType} {valueLen : ℕ} {value : Bytes → Bytes}
    (hvalue : ∀ input, (value input).length = valueLen) :
    (setLengthThroughAttribute
        ⟨header messageType length transactionId ++ wires attributes, maxMessageLen⟩ valueLen >>=
      fun output => encodeAttribute output kind (value output.bytes)) = .ok next ↔
      (wires attributes).length + wireLen valueLen ≤ 65535 ∧
        next = ⟨header messageType ((wires attributes).length + wireLen valueLen) transactionId ++
          wires (sealWith messageType transactionId attributes kind valueLen value),
          maxMessageLen⟩ := by
  have hlen : WriteBuffer.len
      ⟨header messageType length transactionId ++ wires attributes, maxMessageLen⟩ +
      (4 + valueLen + padding valueLen) - headerLen =
        (wires attributes).length + wireLen valueLen := by
    simp only [WriteBuffer.len, List.length_append, length_header, headerLen, wireLen]
    omega
  have hpositive : headerLen ≤ WriteBuffer.len
      ⟨header messageType length transactionId ++ wires attributes, maxMessageLen⟩ +
      (4 + valueLen + padding valueLen) := by
    simp only [WriteBuffer.len, List.length_append, length_header, headerLen]
    omega
  have hwires : header messageType ((wires attributes).length + wireLen valueLen) transactionId ++
      wires (sealWith messageType transactionId attributes kind valueLen value) =
      (header messageType ((wires attributes).length + wireLen valueLen) transactionId ++
        wires attributes) ++ wire kind (value (header messageType
          ((wires attributes).length + wireLen valueLen) transactionId ++ wires attributes)) := by
    simp [sealWith]
  rw [bind_eq_ok, hwires]
  unfold setLengthThroughAttribute
  constructor
  · rintro ⟨middle, hset, hencode⟩
    obtain ⟨-, hfits, rfl⟩ := setWireLength_eq_ok.mp hset
    rw [hlen] at hfits hencode
    obtain ⟨-, -, rfl⟩ := encodeAttribute_eq_ok.mp hencode
    exact ⟨hfits, rfl⟩
  · rintro ⟨hfits, hnext⟩
    have hroom : WriteBuffer.len
        ⟨header messageType ((wires attributes).length + wireLen valueLen) transactionId ++
          wires attributes, maxMessageLen⟩ + wireLen valueLen ≤ maxMessageLen := by
      have hmax : maxMessageLen = 20 + 65535 := rfl
      rw [WriteBuffer.len, List.length_append, length_header, hmax]
      omega
    rw [← hlen] at hfits
    refine ⟨_, setWireLength_eq_ok.mpr ⟨hpositive, hfits, rfl⟩, ?_⟩
    rw [hlen, encodeAttribute_eq_ok, length_wire, hvalue]
    refine ⟨?_, hroom, hnext⟩
    rw [hlen, wireLen] at hfits
    omega

/-- The header carries the length that the last sealing has written. -/
theorem encodeIntegrity_eq_ok {integrity : Option Integrity}
    (hattributes : (wires attributes).length ≤ 65535) :
    encodeIntegrity digests
        ⟨header messageType length transactionId ++ wires attributes, maxMessageLen⟩ integrity =
        .ok next ↔
      (wires (sealIntegrity digests messageType transactionId attributes integrity)).length ≤
        65535 ∧
      next = ⟨header messageType
        (if integrity.isSome then
          (wires (sealIntegrity digests messageType transactionId attributes integrity)).length
        else length) transactionId ++
          wires (sealIntegrity digests messageType transactionId attributes integrity),
        maxMessageLen⟩ := by
  match integrity with
  | none =>
    simp only [encodeIntegrity, sealIntegrity, hattributes, Except.ok.injEq, true_and,
      Option.isSome_none, Bool.false_eq_true, if_false]
    exact eq_comm
  | some (.sha1 key) =>
    have hvalue : ∀ input, (digests.hmacSha1 key input).toList.length = 20 := fun _ =>
      Vector.length_toList
    rw [encodeIntegrity, sealIntegrity, sealWith_eq_ok hvalue, length_wires_sealWith hvalue]
    rfl
  | some (.sha256 key) =>
    have hvalue : ∀ input, (digests.hmacSha256 key input).toList.length = 32 := fun _ =>
      Vector.length_toList
    rw [encodeIntegrity, sealIntegrity, sealWith_eq_ok hvalue, length_wires_sealWith hvalue]
    rfl

theorem encodeFingerprint_eq_ok {fingerprint : Bool} :
    encodeFingerprint digests
        ⟨header messageType length transactionId ++ wires attributes, maxMessageLen⟩ fingerprint =
        .ok next ↔
      (wires (sealFingerprint digests messageType transactionId attributes fingerprint)).length ≤
        65535 ∧
      next = ⟨header messageType
        (wires (sealFingerprint digests messageType transactionId attributes fingerprint)).length
          transactionId ++
          wires (sealFingerprint digests messageType transactionId attributes fingerprint),
        maxMessageLen⟩ := by
  cases fingerprint with
  | true =>
    have hvalue : ∀ input, (Bytes.ofU32 (digests.crc32 input ^^^ fingerprintXor)).length = 4 :=
      fun _ => rfl
    rw [encodeFingerprint, if_pos rfl, sealFingerprint, if_pos rfl, sealWith_eq_ok hvalue,
      length_wires_sealWith hvalue]
  | false =>
    have hlen : WriteBuffer.len
        ⟨header messageType length transactionId ++ wires attributes, maxMessageLen⟩ - headerLen =
        (wires attributes).length := by
      rw [WriteBuffer.len, List.length_append, length_header, headerLen, Nat.add_sub_cancel_left]
    have hpositive : headerLen ≤ WriteBuffer.len
        ⟨header messageType length transactionId ++ wires attributes, maxMessageLen⟩ := by
      rw [WriteBuffer.len, List.length_append, length_header, headerLen]
      exact Nat.le_add_right _ _
    rw [encodeFingerprint, if_neg Bool.false_ne_true, sealFingerprint, if_neg Bool.false_ne_true,
      setCurrentLength, setWireLength_eq_ok, hlen]
    exact and_iff_right hpositive

theorem length_wires_le_sealIntegrity (integrity : Option Integrity) :
    (wires attributes).length ≤
      (wires (sealIntegrity digests messageType transactionId attributes integrity)).length := by
  rcases integrity with _ | _ | _ <;> simp [sealIntegrity, sealWith]

theorem length_wires_le_sealFingerprint (fingerprint : Bool) :
    (wires attributes).length ≤
      (wires (sealFingerprint digests messageType transactionId attributes fingerprint)).length := by
  cases fingerprint <;> simp [sealFingerprint, sealWith]

end Sealing

/-- A message is built exactly when every value and the whole body fit 16 bits, and then it is the
header of its length followed by all the attributes. -/
theorem build_eq_ok {digests : Digests} {builder : MessageBuilder} {bytes : Bytes} :
    builder.build digests = .ok bytes ↔
      (∀ entry ∈ builder.attributes, entry.2.length ≤ 65535) ∧
      (wires (sealedAttributes digests builder)).length ≤ 65535 ∧
      bytes = header builder.messageType (wires (sealedAttributes digests builder)).length
        builder.transactionId ++ wires (sealedAttributes digests builder) := by
  have hmax : maxMessageLen = 20 + 65535 := rfl
  have hheader : header builder.messageType 0 builder.transactionId =
      [] ++ Bytes.ofU16 builder.messageType.encode ++ Bytes.ofU16 0 ++ Bytes.ofU32 magicCookie ++
        builder.transactionId.toList := by
    simp [header]
  have hlen : WriteBuffer.len
      ⟨header builder.messageType 0 builder.transactionId, maxMessageLen⟩ = 20 :=
    length_header _ _ _
  have hwithin : WriteBuffer.len
      ⟨header builder.messageType 0 builder.transactionId, maxMessageLen⟩ ≤ maxMessageLen := by
    omega
  have hintegrity := @length_wires_le_sealIntegrity builder.messageType builder.transactionId
    digests builder.attributes builder.integrity
  have hfingerprint := @length_wires_le_sealFingerprint builder.messageType builder.transactionId
    digests (sealIntegrity digests builder.messageType builder.transactionId builder.attributes
      builder.integrity) builder.fingerprint
  unfold MessageBuilder.build WriteBuffer.withLimit WriteBuffer.writeU16 WriteBuffer.writeU32
  rw [encoding_bind_eq_ok, encoding_bind_eq_ok, encoding_bind_eq_ok, encoding_bind_eq_ok]
  dsimp only
  rw [← hheader]
  constructor
  · rintro ⟨-, -, -, -, hrest⟩
    obtain ⟨first, hfirst, hrest⟩ := bind_eq_ok.mp hrest
    obtain ⟨hvalues, hroom, rfl⟩ := (encodeAttributes_eq_ok hwithin).mp hfirst
    obtain ⟨second, hsecond, hrest⟩ := bind_eq_ok.mp hrest
    have hbody : (wires builder.attributes).length ≤ 65535 := by
      dsimp only at hroom
      omega
    obtain ⟨-, rfl⟩ := (encodeIntegrity_eq_ok hbody).mp hsecond
    obtain ⟨third, hthird, hrest⟩ := bind_eq_ok.mp hrest
    obtain ⟨hfits, rfl⟩ := encodeFingerprint_eq_ok.mp hthird
    exact ⟨hvalues, hfits, (pure_eq_ok.mp hrest).symm⟩
  · rintro ⟨hvalues, hfits, rfl⟩
    have hsealed := hfits
    unfold sealedAttributes at hfits
    have hroom : WriteBuffer.len
        ⟨header builder.messageType 0 builder.transactionId, maxMessageLen⟩ +
          (wires builder.attributes).length ≤ maxMessageLen := by
      omega
    have hwritten (n : ℕ) (value : Bytes) (h : n + value.length ≤ 20) :
        n + value.length ≤ maxMessageLen := by
      omega
    refine ⟨hwritten _ _ (by simp [WriteBuffer.len]), hwritten _ _ (by simp [WriteBuffer.len]),
      hwritten _ _ (by simp [WriteBuffer.len]), hwritten _ _ (by simp [WriteBuffer.len]), ?_⟩
    refine bind_eq_ok.mpr ⟨_, (encodeAttributes_eq_ok hwithin).mpr ⟨hvalues, hroom, rfl⟩, ?_⟩
    refine bind_eq_ok.mpr ⟨_, (encodeIntegrity_eq_ok (by omega)).mpr ⟨by omega, rfl⟩, ?_⟩
    exact bind_eq_ok.mpr ⟨_, encodeFingerprint_eq_ok.mpr ⟨hsealed, rfl⟩, rfl⟩

end Fluvora.Stun

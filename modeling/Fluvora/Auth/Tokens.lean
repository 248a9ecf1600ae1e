import Fluvora.Lib.Base64
import Fluvora.Protocol.Envelope

/-!
# Access tokens

`TokenCodec` and `TokenKeyRing` of `crates/control-plane/auth`: claims of 57 bytes, the HMAC-SHA256 of
them behind them, and the base64 of both.  The first key of a ring issues; every key verifies.  A ring
that has the issuing key accepts what was issued until it expires, wherever the key is in it, and what a
ring accepts is what one of its keys issues for the claims that were read.

The words of a 128-bit number are written as those of an envelope are.  HMAC-SHA256, which takes a key
of any length, is a parameter, as is the base64 codec.
-/

namespace Fluvora.Auth

open Results Protocol

def magic : Bytes := [0x46, 0x4c, 0x41, 0x54]
def version : UInt8 := 1
def claimsLen : ℕ := 57
def signatureLen : ℕ := 32
def tokenBytes : ℕ := claimsLen + signatureLen

/-- Bitset of capabilities granted to a token. -/
structure Scopes where
  bits : UInt32
deriving DecidableEq

/-- Authenticated access-token claims. -/
structure Claims where
  subject : BitVec 128
  roomId : BitVec 128
  expiresAtMillis : UInt64
  nonce : UInt64
  scopes : Scopes
deriving DecidableEq

/-- Token issuance or verification failure. -/
inductive TokenError
  | weakSecret (length : ℕ)
  | invalidKeyCount (count : ℕ)
  | malformed
  | unsupportedVersion (version : UInt8)
  | invalidSignature
  | expired
  | decode (error : DecodeError)
  | encode (error : EncodeError)
deriving DecidableEq

/-- HMAC token issuer and verifier, with at least 256 bits of secret. -/
structure TokenCodec where
  secret : Bytes
  strong : 32 ≤ secret.length
deriving DecidableEq

/-- One through eight keys, the active one first. -/
structure TokenKeyRing where
  codecs : List TokenCodec
  nonempty : codecs ≠ []
  bounded : codecs.length ≤ 8
deriving DecidableEq

def TokenCodec.new (secret : Bytes) : Except TokenError TokenCodec :=
  if strong : 32 ≤ secret.length then .ok ⟨secret, strong⟩ else .error (.weakSecret secret.length)

def TokenKeyRing.new (secrets : List Bytes) : Except TokenError TokenKeyRing := do
  let codecs ← secrets.mapM TokenCodec.new
  if count : codecs ≠ [] ∧ codecs.length ≤ 8 then .ok ⟨codecs, count.1, count.2⟩
  else .error (.invalidKeyCount codecs.length)

/-! ## The claims codec -/

def encodeClaims (claims : Claims) : Except TokenError Bytes :=
  Except.mapError .encode do
    let output := WriteBuffer.withLimit claimsLen
    let output ← output.extendFromSlice magic
    let output ← output.writeU8 version
    let output ← writeU128 output claims.subject
    let output ← writeU128 output claims.roomId
    let output ← output.writeU64 claims.expiresAtMillis
    let output ← output.writeU64 claims.nonce
    let output ← output.writeU32 claims.scopes.bits
    return output.bytes

/-- `?` on a read. -/
def reading {α : Type} (x : Except DecodeError α) : Except TokenError α := x.mapError .decode

def decodeClaims (input : Bytes) : Except TokenError Claims := do
  let (found, cursor) ← reading ((ReadCursor.new input).take 4)
  if found ≠ magic then
    .error .malformed
  else
    let (found, cursor) ← reading cursor.readU8
    if found ≠ version then
      .error (.unsupportedVersion found)
    else
      let (subject, cursor) ← reading (readU128 cursor)
      let (roomId, cursor) ← reading (readU128 cursor)
      let (expiresAtMillis, cursor) ← reading cursor.readU64
      let (nonce, cursor) ← reading cursor.readU64
      let (scopes, cursor) ← reading cursor.readU32
      if !cursor.isEmpty then
        .error .malformed
      else
        return ⟨subject, roomId, expiresAtMillis, nonce, ⟨scopes⟩⟩

/-! ## Issuing and verifying -/

section

variable (base64 : Base64) (hmac : Bytes → Bytes → Vector UInt8 32)

def TokenCodec.sign (codec : TokenCodec) (bytes : Bytes) : Bytes :=
  (hmac codec.secret bytes).toList

def TokenCodec.issue (codec : TokenCodec) (claims : Claims) : Except TokenError String := do
  let bytes ← encodeClaims claims
  return base64.encode (bytes ++ codec.sign hmac bytes)

def TokenCodec.verify (codec : TokenCodec) (token : String) (nowMillis : UInt64) :
    Except TokenError Claims :=
  match base64.decode token with
  | none => .error .malformed
  | some bytes =>
      if bytes.length ≠ tokenBytes then
        .error .malformed
      else if codec.sign hmac (bytes.take claimsLen) ≠ bytes.drop claimsLen then
        .error .invalidSignature
      else do
        let claims ← decodeClaims (bytes.take claimsLen)
        if claims.expiresAtMillis ≤ nowMillis then .error .expired else return claims

def TokenKeyRing.issue (ring : TokenKeyRing) (claims : Claims) : Except TokenError String :=
  match ring.codecs.head? with
  | none => .error (.invalidKeyCount 0)
  | some codec => codec.issue base64 hmac claims

/-- The loop over the keys, with what has been found so far. -/
def verifyWith (token : String) (nowMillis : UInt64) :
    Bool → List TokenCodec → Except TokenError Claims
  | expired, [] => if expired then .error .expired else .error .invalidSignature
  | expired, codec :: codecs =>
      match codec.verify base64 hmac token nowMillis with
      | .ok claims => .ok claims
      | .error error => verifyWith token nowMillis (error = .expired || expired) codecs

def TokenKeyRing.verify (ring : TokenKeyRing) (token : String) (nowMillis : UInt64) :
    Except TokenError Claims :=
  verifyWith base64 hmac token nowMillis false ring.codecs

end

/-! ## The layout of the claims -/

namespace Claims

def bytes (claims : Claims) : Bytes :=
  magic ++ ([version] ++ (ofU128 claims.subject ++ (ofU128 claims.roomId ++
    (Bytes.ofNat 8 claims.expiresAtMillis.toNat ++ (Bytes.ofNat 8 claims.nonce.toNat ++
      Bytes.ofU32 claims.scopes.bits)))))

theorem length_bytes (claims : Claims) : claims.bytes.length = claimsLen := by
  simp [bytes, magic, length_ofU128, claimsLen]

end Claims

theorem encodeClaims_eq (claims : Claims) : encodeClaims claims = .ok claims.bytes := by
  unfold encodeClaims
  rw [mapError_eq_ok]
  simp only [bind_eq_ok, writeU128_eq_ok, WriteBuffer.writeU8, WriteBuffer.writeU32,
    WriteBuffer.writeU64, WriteBuffer.extendFromSlice_eq_ok, WriteBuffer.withLimit, WriteBuffer.len,
    pure_eq_ok]
  have hmagic : magic.length = 4 := rfl
  refine ⟨_, ⟨?_, rfl⟩, _, ⟨?_, rfl⟩, _, ⟨?_, rfl⟩, _, ⟨?_, rfl⟩, _, ⟨?_, rfl⟩, _, ⟨?_, rfl⟩, _,
    ⟨?_, rfl⟩, ?_⟩
  all_goals simp only [List.length_append, List.length_nil, List.length_singleton,
    Bytes.length_ofNat, Bytes.length_ofU32, length_ofU128, claimsLen, hmagic]
  all_goals first
    | omega
    | simp [Claims.bytes]

theorem reading_bind_of_ok {α β : Type} {x : Except DecodeError α} {a : α}
    (f : α → Except TokenError β) (h : x = .ok a) : (reading x >>= f) = f a := by
  rw [h]
  rfl

theorem decodeClaims_bytes (claims : Claims) : decodeClaims claims.bytes = .ok claims := by
  obtain ⟨c1, h1, -, r1⟩ := ReadCursor.take_rest (ReadCursor.rest_new claims.bytes)
  obtain ⟨c2, h2, -, r2⟩ := ReadCursor.readU8_rest r1
  obtain ⟨c3, h3, r3⟩ := readU128_rest r2
  obtain ⟨c4, h4, r4⟩ := readU128_rest r3
  obtain ⟨c5, h5, -, r5⟩ := ReadCursor.readU64_rest r4
  obtain ⟨c6, h6, -, r6⟩ := ReadCursor.readU64_rest r5
  obtain ⟨c7, h7, -, r7⟩ := ReadCursor.readU32_rest (r6.trans (List.append_nil _).symm)
  have hempty : c7.isEmpty = true := c7.isEmpty_iff.mpr r7
  have h1 : (ReadCursor.new claims.bytes).take 4 = .ok (magic, c1) := h1
  rw [decodeClaims, reading_bind_of_ok _ h1]
  dsimp only
  rw [if_neg (not_not_intro rfl), reading_bind_of_ok _ h2]
  dsimp only
  rw [if_neg (not_not_intro rfl), reading_bind_of_ok _ h3]
  dsimp only
  rw [reading_bind_of_ok _ h4]
  dsimp only
  rw [reading_bind_of_ok _ h5]
  dsimp only
  rw [reading_bind_of_ok _ h6]
  dsimp only
  rw [reading_bind_of_ok _ h7]
  dsimp only
  rw [hempty]
  rfl

/-- What is read is written back. -/
theorem bytes_of_decodeClaims {input : Bytes} {claims : Claims}
    (h : decodeClaims input = .ok claims) : input = claims.bytes := by
  obtain ⟨⟨found, c1⟩, h1, h⟩ := bind_eq_ok.mp h
  obtain ⟨hmagic, h⟩ := ite_error_eq_ok.mp h
  obtain ⟨⟨found', c2⟩, h2, h⟩ := bind_eq_ok.mp h
  obtain ⟨hversion, h⟩ := ite_error_eq_ok.mp h
  obtain ⟨⟨subject, c3⟩, h3, h⟩ := bind_eq_ok.mp h
  obtain ⟨⟨roomId, c4⟩, h4, h⟩ := bind_eq_ok.mp h
  obtain ⟨⟨expiresAtMillis, c5⟩, h5, h⟩ := bind_eq_ok.mp h
  obtain ⟨⟨nonce, c6⟩, h6, h⟩ := bind_eq_ok.mp h
  obtain ⟨⟨scopes, c7⟩, h7, h⟩ := bind_eq_ok.mp h
  obtain ⟨hempty, h⟩ := ite_error_eq_ok.mp h
  cases h
  have hread := (ReadCursor.take_passed (mapError_eq_ok.mp h1)).1.rest
  have hrest : c7.rest = [] := c7.isEmpty_iff.mp (by simpa using hempty)
  rw [(ReadCursor.readU8_passed (mapError_eq_ok.mp h2)).rest,
    (readU128_passed (mapError_eq_ok.mp h3)).rest, (readU128_passed (mapError_eq_ok.mp h4)).rest,
    (ReadCursor.readU64_passed (mapError_eq_ok.mp h5)).rest,
    (ReadCursor.readU64_passed (mapError_eq_ok.mp h6)).rest,
    (ReadCursor.readU32_passed (mapError_eq_ok.mp h7)).rest, hrest, List.append_nil,
    not_not.mp hmagic, not_not.mp hversion] at hread
  exact hread

/-! ## One key -/

section

variable {base64 : Base64} {hmac : Bytes → Bytes → Vector UInt8 32} {codec other : TokenCodec}
  {claims : Claims} {token : String} {nowMillis : UInt64}

/-- What a key issues. -/
theorem issue_eq (codec : TokenCodec) (claims : Claims) :
    codec.issue base64 hmac claims =
      .ok (base64.encode (claims.bytes ++ codec.sign hmac claims.bytes)) := by
  rw [TokenCodec.issue, encodeClaims_eq]
  rfl

/-- What a key accepts. -/
theorem verify_eq_ok :
    codec.verify base64 hmac token nowMillis = .ok claims ↔
      codec.issue base64 hmac claims = .ok token ∧ nowMillis < claims.expiresAtMillis := by
  rw [issue_eq, Except.ok.injEq]
  unfold TokenCodec.verify
  constructor
  · intro h
    cases hdecode : base64.decode token with
    | none =>
      rw [hdecode] at h
      cases h
    | some bytes =>
      rw [hdecode] at h
      dsimp only at h
      obtain ⟨hlength, h⟩ := ite_error_eq_ok.mp h
      obtain ⟨hsignature, h⟩ := ite_error_eq_ok.mp h
      obtain ⟨found, hfound, h⟩ := bind_eq_ok.mp h
      obtain ⟨hexpires, h⟩ := ite_error_eq_ok.mp h
      cases h
      refine ⟨?_, UInt64.not_le.mp hexpires⟩
      rw [← bytes_of_decodeClaims hfound, not_not.mp hsignature, List.take_append_drop]
      exact base64.encode_of_decode hdecode
  · rintro ⟨rfl, hexpires⟩
    have hlength := claims.length_bytes
    have hsign : (codec.sign hmac claims.bytes).length = signatureLen := by
      simp [TokenCodec.sign, signatureLen]
    rw [base64.decode_encode]
    dsimp only
    rw [if_neg (by rw [List.length_append, hlength, hsign]; simp [tokenBytes]),
      List.take_left' hlength, List.drop_left' hlength, if_neg (not_not_intro rfl),
      decodeClaims_bytes]
    exact if_neg (UInt64.not_le.mpr hexpires)

/-- A token that one key issued is not accepted by another with other claims. -/
theorem claims_of_issue (hissue : codec.issue base64 hmac claims = .ok token) {found : Claims}
    (hfound : other.issue base64 hmac found = .ok token) : found = claims := by
  rw [issue_eq, Except.ok.injEq] at hissue hfound
  have hbytes := base64.decode_encode (claims.bytes ++ codec.sign hmac claims.bytes)
  rw [hissue, ← hfound, base64.decode_encode, Option.some.injEq] at hbytes
  have hclaims := (List.append_inj hbytes (by rw [found.length_bytes, claims.length_bytes])).1
  have hread := decodeClaims_bytes found
  rw [hclaims, decodeClaims_bytes, Except.ok.injEq] at hread
  exact hread.symm

/-! ## Rings -/

/-- The loop finds claims exactly if a key of it accepts the token with these. -/
theorem verifyWith_eq_ok {expired : Bool} {codecs : List TokenCodec} :
    verifyWith base64 hmac token nowMillis expired codecs = .ok claims ↔
      ∃ codec ∈ codecs, codec.verify base64 hmac token nowMillis = .ok claims := by
  induction codecs generalizing expired with
  | nil =>
    rw [verifyWith]
    split_ifs <;> simp
  | cons codec codecs ih =>
    rw [verifyWith, List.exists_mem_cons_iff]
    cases hverify : codec.verify base64 hmac token nowMillis with
    | ok found =>
      dsimp only
      constructor
      · exact .inl
      · rintro (h | ⟨other, -, hother⟩)
        · exact h
        · have hissue := (verify_eq_ok.mp hverify).1
          have hissue' := (verify_eq_ok.mp hother).1
          rw [claims_of_issue hissue' hissue]
    | error error =>
      dsimp only
      rw [ih]
      simp

end

/-- What the active key of a ring issues, any ring with that key accepts exactly until it expires; and
what a ring accepts is what one of its keys issues for the claims that it returns. -/
theorem tokens_exact (base64 : Base64) (hmac : Bytes → Bytes → Vector UInt8 32) (ring : TokenKeyRing) :
    (∀ claims : Claims, ∃ token, ring.issue base64 hmac claims = .ok token ∧
      ∀ moved : TokenKeyRing, (∀ codec ∈ ring.codecs.head?, codec ∈ moved.codecs) →
        ∀ nowMillis, moved.verify base64 hmac token nowMillis = .ok claims ↔
          nowMillis < claims.expiresAtMillis) ∧
    ∀ (token : String) (nowMillis : UInt64) (claims : Claims),
      ring.verify base64 hmac token nowMillis = .ok claims →
        ∃ codec ∈ ring.codecs, codec.issue base64 hmac claims = .ok token := by
  refine ⟨fun claims => ?_, fun token nowMillis claims h => ?_⟩
  · obtain ⟨active, rest, hcodecs⟩ := List.exists_cons_of_ne_nil ring.nonempty
    have hhead : ring.codecs.head? = some active := by rw [hcodecs, List.head?_cons]
    obtain ⟨token, hissue⟩ : ∃ token, active.issue base64 hmac claims = .ok token :=
      ⟨_, issue_eq active claims⟩
    refine ⟨token, ?_, fun moved hmoved nowMillis => ?_⟩
    · rw [TokenKeyRing.issue, hhead]
      exact hissue
    · rw [TokenKeyRing.verify, verifyWith_eq_ok]
      constructor
      · rintro ⟨codec, -, hverify⟩
        exact (verify_eq_ok.mp hverify).2
      · intro hbefore
        exact ⟨active, hmoved active hhead, verify_eq_ok.mpr ⟨hissue, hbefore⟩⟩
  · obtain ⟨codec, hmem, hverify⟩ := verifyWith_eq_ok.mp h
    exact ⟨codec, hmem, (verify_eq_ok.mp hverify).1⟩

end Fluvora.Auth

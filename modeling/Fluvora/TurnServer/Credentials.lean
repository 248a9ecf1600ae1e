import Fluvora.Lib.Base64
import Fluvora.Lib.Results
import Fluvora.Lib.Words
import Fluvora.TurnServer.Server

/-!
# Nonces and keys of the TURN server

A nonce is a timestamp and the address of its client with their MAC, in Base64.  The server accepts
exactly the nonces that it would have issued to the client at a time that is not over its lifetime ago
(`validate_eq_ok`), so two clients never share one, whatever the MAC is (`nonce_binds`).  The key of a
username is the configured one, or that of a password which a service with the same secret derives
from a username that carries its expiry (`credentialKey_rest`).

The digests are parameters.
-/

namespace Fluvora.TurnServer

open Words

structure Digests where
  hmacSha256 : Bytes → Bytes → Vector UInt8 32
  hmacSha1 : Bytes → Bytes → Bytes
  md5 : Bytes → Key
  /-- Base64 with padding. -/
  standard : Bytes → String

variable (digests : Digests)

/-! ## Nonces -/

def tagBytes : ℕ := 32

def nanosPerSecond : ℕ := 10 ^ 9

/-- The lifetime is in nanoseconds. -/
structure NonceManager where
  secret : Bytes
  lifetime : ℕ
  strong : 32 ≤ secret.length
  pos : 0 < lifetime
  bounded : lifetime ≤ 3600 * nanosPerSecond

def NonceManager.new (secret : Bytes) (lifetime : ℕ) : Option NonceManager :=
  if h : 32 ≤ secret.length ∧ 0 < lifetime ∧ lifetime ≤ 3600 * nanosPerSecond then
    some ⟨secret, lifetime, h.1, h.2.1, h.2.2⟩
  else none

def noncePayload (timestamp : ℕ) (clientIp : IpAddr) : Bytes :=
  Bytes.ofNat 8 timestamp ++
    match clientIp with
    | .v4 octets => 4 :: octets.toList
    | .v6 octets => 6 :: octets.toList

namespace NonceManager

def lifetimeSecs (manager : NonceManager) : ℕ := manager.lifetime / nanosPerSecond

def tag (manager : NonceManager) (payload : Bytes) : Bytes :=
  (digests.hmacSha256 manager.secret payload).toList

def issue (manager : NonceManager) (nowSeconds : ℕ) (clientIp : IpAddr) : String :=
  let payload := noncePayload nowSeconds clientIp
  Base64.urlSafeNoPad.encode (payload ++ manager.tag digests payload)

def validate (manager : NonceManager) (nonce : String) (nowSeconds : ℕ) (clientIp : IpAddr) :
    Except NonceError Unit :=
  match Base64.urlSafeNoPad.decode nonce with
  | none => .error .invalid
  | some decoded =>
      let payloadLength := (noncePayload 0 clientIp).length
      if decoded.length ≠ payloadLength + tagBytes then .error .invalid
      else
        let payload := decoded.take payloadLength
        let timestamp := Bytes.toNat (payload.take 8)
        if payload ≠ noncePayload timestamp clientIp then .error .invalid
        else if manager.tag digests payload ≠ decoded.drop payloadLength then .error .invalid
        else if nowSeconds < timestamp ∨ manager.lifetimeSecs < nowSeconds - timestamp then
          .error .stale
        else .ok ()

end NonceManager

variable {digests} {manager : NonceManager} {nonce : String} {now later timestamp : ℕ}
  {ip other : IpAddr}

theorem length_noncePayload (timestamp : ℕ) (ip : IpAddr) :
    (noncePayload timestamp ip).length = (noncePayload 0 ip).length := by
  simp [noncePayload]

theorem take_noncePayload (timestamp : ℕ) (ip : IpAddr) :
    (noncePayload timestamp ip).take 8 = Bytes.ofNat 8 timestamp :=
  List.take_left' (Bytes.length_ofNat 8 timestamp)

theorem toNat_take_noncePayload (h : timestamp < 2 ^ 64) (ip : IpAddr) :
    Bytes.toNat ((noncePayload timestamp ip).take 8) = timestamp := by
  rw [take_noncePayload, Bytes.toNat_ofNat]
  exact Nat.mod_eq_of_lt h

theorem noncePayload_injective {first second : ℕ} (hfirst : first < 2 ^ 64) (hsecond : second < 2 ^ 64)
    (h : noncePayload first ip = noncePayload second other) : first = second ∧ ip = other := by
  obtain ⟨htime, haddress⟩ := List.append_inj h (by rw [Bytes.length_ofNat, Bytes.length_ofNat])
  constructor
  · have hvalue := congrArg Bytes.toNat htime
    rw [Bytes.toNat_ofNat, Bytes.toNat_ofNat] at hvalue
    omega
  · cases ip with
    | v4 octets =>
      cases other with
      | v4 octets' => rw [Vector.toList_inj.mp (List.cons.inj haddress).2]
      | v6 octets' => exact absurd (List.cons.inj haddress).1 (by decide)
    | v6 octets =>
      cases other with
      | v4 octets' => exact absurd (List.cons.inj haddress).1 (by decide)
      | v6 octets' => rw [Vector.toList_inj.mp (List.cons.inj haddress).2]

/-- What the server finds in a nonce of its own. -/
theorem NonceManager.validate_issue (h : timestamp < 2 ^ 64) (now : ℕ) (ip : IpAddr) :
    manager.validate digests (manager.issue digests timestamp ip) now ip =
      if now < timestamp ∨ manager.lifetimeSecs < now - timestamp then .error .stale else .ok () := by
  unfold validate issue
  dsimp only
  rw [Base64.urlSafeNoPad.decode_encode]
  have htag : ∀ payload, (manager.tag digests payload).length = tagBytes := fun payload =>
    Vector.length_toList
  have htake : (noncePayload timestamp ip ++ manager.tag digests (noncePayload timestamp ip)).take
      (noncePayload 0 ip).length = noncePayload timestamp ip :=
    List.take_left' (length_noncePayload timestamp ip)
  have hdrop : (noncePayload timestamp ip ++ manager.tag digests (noncePayload timestamp ip)).drop
      (noncePayload 0 ip).length = manager.tag digests (noncePayload timestamp ip) :=
    List.drop_left' (length_noncePayload timestamp ip)
  dsimp only
  rw [htake, hdrop, toNat_take_noncePayload h, List.length_append, htag,
    length_noncePayload timestamp ip]
  simp

/-- A nonce that is not invalid was issued to the client. -/
theorem NonceManager.exists_issue (h : manager.validate digests nonce now ip ≠ .error .invalid) :
    ∃ timestamp, timestamp < 2 ^ 64 ∧ nonce = manager.issue digests timestamp ip := by
  unfold validate at h
  cases hdecoded : Base64.urlSafeNoPad.decode nonce with
  | none =>
    rw [hdecoded] at h
    exact absurd rfl h
  | some decoded =>
    rw [hdecoded] at h
    dsimp only at h
    by_cases hlength : decoded.length ≠ (noncePayload 0 ip).length + tagBytes
    · rw [if_pos hlength] at h
      exact absurd rfl h
    rw [if_neg hlength] at h
    generalize hpayload : decoded.take (noncePayload 0 ip).length = payload at h
    by_cases hsame : payload ≠ noncePayload (Bytes.toNat (payload.take 8)) ip
    · rw [if_pos hsame] at h
      exact absurd rfl h
    rw [if_neg hsame] at h
    by_cases htag : manager.tag digests payload ≠ decoded.drop (noncePayload 0 ip).length
    · rw [if_pos htag] at h
      exact absurd rfl h
    rw [not_not] at hlength hsame htag
    refine ⟨Bytes.toNat (payload.take 8), ?_, ?_⟩
    · refine (Bytes.toNat_lt _).trans_le ?_
      have hlen : (payload.take 8).length ≤ 8 := List.length_take_le 8 payload
      exact Nat.pow_le_pow_right (by decide) hlen
    · unfold issue
      dsimp only
      rw [← hsame, htag, ← hpayload, List.take_append_drop]
      exact (Base64.urlSafeNoPad.encode_of_decode hdecoded).symm

/-- The server accepts the nonces that it has issued to the client within their lifetime. -/
theorem NonceManager.validate_eq_ok : manager.validate digests nonce now ip = .ok () ↔
    ∃ timestamp, timestamp < 2 ^ 64 ∧ timestamp ≤ now ∧ now ≤ timestamp + manager.lifetimeSecs ∧
      nonce = manager.issue digests timestamp ip := by
  constructor
  · intro hok
    have hvalid : manager.validate digests nonce now ip ≠ .error .invalid := by rw [hok]; simp
    obtain ⟨timestamp, hlt, rfl⟩ := exists_issue hvalid
    rw [validate_issue hlt] at hok
    split_ifs at hok with hstale
    exact ⟨timestamp, hlt, by omega, by omega, rfl⟩
  · rintro ⟨timestamp, hlt, hle, hfresh, rfl⟩
    rw [validate_issue hlt, if_neg (by omega)]

/-- A nonce that is accepted for two clients is one client's, and the two times are not more than the
lifetime apart. -/
theorem NonceManager.nonce_binds (hfirst : manager.validate digests nonce now ip = .ok ())
    (hsecond : manager.validate digests nonce later other = .ok ()) :
    ip = other ∧ later ≤ now + manager.lifetimeSecs ∧ now ≤ later + manager.lifetimeSecs := by
  obtain ⟨first, hfirst, hle, hfresh, hnonce⟩ := validate_eq_ok.mp hfirst
  obtain ⟨second, hsecond, hle', hfresh', hsame⟩ := validate_eq_ok.mp hsecond
  rw [hnonce] at hsame
  have hbytes := congrArg Base64.urlSafeNoPad.decode hsame
  unfold issue at hbytes
  dsimp only at hbytes
  rw [Base64.urlSafeNoPad.decode_encode, Base64.urlSafeNoPad.decode_encode] at hbytes
  obtain ⟨hpayload, -⟩ := List.append_inj' (Option.some.inj hbytes)
    (Vector.length_toList.trans Vector.length_toList.symm)
  obtain ⟨rfl, hip⟩ := noncePayload_injective hfirst hsecond hpayload
  exact ⟨hip, by omega, by omega⟩

def sampleDigests : Digests where
  hmacSha256 _ _ := .replicate 32 0
  hmacSha1 _ _ := []
  md5 bytes := bytes
  standard _ := "password"

def sampleManager : NonceManager where
  secret := List.replicate 32 9
  lifetime := 600 * nanosPerSecond
  strong := by decide
  pos := by decide
  bounded := by decide

def sampleIp : IpAddr := .v4 #v[192, 0, 2, 1]

theorem sample_nonce_binds :
    sampleIp = sampleIp ∧ 1500 ≤ 1100 + sampleManager.lifetimeSecs ∧
      1100 ≤ 1500 + sampleManager.lifetimeSecs := by
  have haccepted : ∀ now, 1000 ≤ now → now ≤ 1600 → sampleManager.validate sampleDigests
      (sampleManager.issue sampleDigests 1000 sampleIp) now sampleIp = .ok () := fun now hle hfresh =>
    NonceManager.validate_eq_ok.mpr ⟨1000, by decide, hle, hfresh, rfl⟩
  exact NonceManager.nonce_binds (haccepted 1100 (by decide) (by decide))
    (haccepted 1500 (by decide) (by decide))

/-! ## Keys -/

/-- The part of the configuration that keys are derived from. -/
structure CredentialConfig where
  realm : String
  username : String
  password : String
  restSecret : Bytes

variable (digests)

def asBytes (text : String) : Bytes := text.toUTF8.data.toList

def longTermKey (username realm password : String) : Key :=
  digests.md5 (asBytes username ++ (asBytes ":" ++ (asBytes realm ++
    (asBytes ":" ++ asBytes password))))

/-- The only error is `InvalidCredential`. -/
def restCredentialPassword (secret : Bytes) (username : String) : Option String :=
  if secret.length < 32 ∨ username.isEmpty ∨ 512 < username.utf8ByteSize then none
  else some (digests.standard (digests.hmacSha1 secret (asBytes username)))

def u64Max : ℕ := 2 ^ 64 - 1

def isAsciiHexdigit (c : Char) : Bool :=
  c.isDigit || ('a' ≤ c && c ≤ 'f') || ('A' ≤ c && c ≤ 'F')

def credentialKey (config : CredentialConfig) (now : ℕ) (username : String) : Option Key :=
  if username = config.username then
    some (longTermKey digests config.username config.realm config.password)
  else do
    let (expires, subject) ← splitOnce ':' username.toList
    let expires ← parseNumeral u64Max expires
    if subject = [] ∨ 128 < byteLength subject ∨ !subject.all isAsciiHexdigit ∨ expires ≤ now ∨
        min (now + 86400) u64Max < expires then none
    else do
      let password ← restCredentialPassword digests config.restSecret username
      return longTermKey digests username config.realm password

def credentials (config : CredentialConfig) (manager : NonceManager) : Credentials where
  credentialKey := credentialKey digests config
  validateNonce := manager.validate digests

variable {digests} {config : CredentialConfig} {username : String} {key : Key}

/-- A username with an expiry has a key while the expiry is ahead, and not more than a day. -/
theorem credentialKey_rest (hother : username ≠ config.username) {expires : ℕ} {subject : List Char}
    (htext : username.toList = numeral expires ++ ':' :: subject) (hexpires : expires ≤ u64Max)
    (hnonempty : subject ≠ []) (hlength : byteLength subject ≤ 128)
    (hdigits : subject.all isAsciiHexdigit = true) :
    credentialKey digests config now username =
      if now < expires ∧ expires ≤ now + 86400 then
        (restCredentialPassword digests config.restSecret username).map
          (longTermKey digests username config.realm)
      else none := by
  have hcolon : ':' ∉ numeral expires := fun hmem => absurd (isDigit_of_mem_numeral hmem) (by decide)
  unfold credentialKey
  rw [if_neg hother, htext, splitOnce_append hcolon]
  simp only [Option.bind_eq_bind, Option.bind_some, parseNumeral_numeral hexpires, hdigits]
  by_cases hlive : now < expires ∧ expires ≤ now + 86400
  · have hbounds : ¬ (subject = [] ∨ 128 < byteLength subject ∨ (!true) = true ∨ expires ≤ now ∨
        min (now + 86400) u64Max < expires) := by
      simp only [hnonempty, Bool.not_true, Bool.false_eq_true, false_or, not_or]
      omega
    rw [if_neg hbounds, if_pos hlive]
    cases restCredentialPassword digests config.restSecret username <;> rfl
  · have hbounds : subject = [] ∨ 128 < byteLength subject ∨ (!true) = true ∨ expires ≤ now ∨
        min (now + 86400) u64Max < expires := by omega
    rw [if_pos hbounds, if_neg hlive]

/-! ## Authentication -/

namespace Server

theorem required_eq_ok {value : Except ServerError (Option String)} {text : String} :
    required value = .ok text ↔ value = .ok (some text) := by
  unfold required
  cases value with
  | error error => simp
  | ok found => cases found <;> simp

/-- A request is authenticated by a key of its username, a nonce of its client and the integrity of
its bytes under that key. -/
theorem authenticate_eq_ok {s : Server} {client : SocketAddr} {message : Message}
    {authentication : Authentication} :
    s.authenticate now client message = .ok authentication ↔
      message.username = .ok (some authentication.username) ∧
      message.realm = .ok (some s.config.realm) ∧
      s.credentials.credentialKey now authentication.username = some authentication.key ∧
      (∃ nonce, message.nonce = .ok (some nonce) ∧
        s.credentials.validateNonce nonce now client.ip = .ok ()) ∧
      message.verifyMessageIntegritySha1 authentication.key = true ∧
      ((message.attributeValue attributeFingerprint).isSome = true →
        message.verifyFingerprint = true) := by
  have hkeys : ∀ (found : Option Key) (key : Key),
      (found.elim (.error .unauthorized) .ok : Except AuthRejection Key) = .ok key ↔
        found = some key := by
    intro found key
    cases found <;> simp
  unfold authenticate
  simp only [Results.bind_eq_ok, required_eq_ok, Results.ite_error_eq_ok, hkeys, not_not]
  constructor
  · rintro ⟨username, husername, realm, hrealm, nonce, hnonce, rfl, key, hkey, h⟩
    cases hvalid : s.credentials.validateNonce nonce now client.ip with
    | error error =>
      rw [hvalid] at h
      cases error <;> cases h
    | ok _ =>
      rw [hvalid] at h
      simp only [Results.ite_error_eq_ok, Results.pure_eq_ok] at h
      obtain ⟨hintegrity, hfingerprint, rfl⟩ := h
      refine ⟨husername, hrealm, hkey, ⟨nonce, hnonce, hvalid⟩, by simpa using hintegrity, ?_⟩
      intro hcarried
      simpa [hcarried] using hfingerprint
  · rintro ⟨husername, hrealm, hkey, ⟨nonce, hnonce, hvalid⟩, hintegrity, hfingerprint⟩
    refine ⟨authentication.username, husername, s.config.realm, hrealm, nonce, hnonce, rfl,
      authentication.key, hkey, ?_⟩
    rw [hvalid]
    simp only [Results.ite_error_eq_ok, Results.pure_eq_ok]
    refine ⟨by simpa using hintegrity, ?_, trivial⟩
    cases hcarried : (message.attributeValue attributeFingerprint).isSome with
    | false => simp
    | true => simpa using hfingerprint hcarried

end Server

end Fluvora.TurnServer

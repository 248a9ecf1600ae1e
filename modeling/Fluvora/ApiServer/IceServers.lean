import Fluvora.ApiServer.GiftReceipts
import Fluvora.TurnServer.Credentials

/-!
# ICE servers for a member of a room

The API server hands out a username that carries its expiry, and the password that belongs to it.  It
never talks to the TURN server, which derives the same password from the username alone.  A request
with these credentials is authenticated exactly while the expiry is ahead
(`issued_credentials_authenticate`).
-/

namespace Fluvora.ApiServer

open TurnServer (Digests CredentialConfig Message NonceManager Server credentials longTermKey
  restCredentialPassword sampleDigests sampleManager)

/-- `format!("{value:032x}")`. -/
def formatId (value : BitVec 128) : String :=
  .ofList (List.leftpad 32 '0' (Hex.numeral value.toNat))

structure IceServer where
  urls : List String
  username : String
  credential : String

structure IceServersResponse where
  iceServers : List IceServer
  expiresAtMillis : UInt64

def credentialTimeExhausted : ApiError :=
  ⟨503, "credential_time_exhausted", "cannot issue TURN credential"⟩

def turnCredentialUnavailable : ApiError :=
  ⟨503, "turn_credential_unavailable", "InvalidCredential"⟩

/-- When credentials end that are issued at a time, in seconds. -/
def expiresAtSeconds (nowMillis : UInt64) : ℕ := nowMillis.toNat / 1000 + 3600

def turnUsername (nowMillis : UInt64) (subject : BitVec 128) : String :=
  .ofList (Words.numeral (expiresAtSeconds nowMillis) ++ ':' :: (formatId subject).toList)

/-- The part of `get_ice_servers` behind the checks of the member. -/
def getIceServers (digests : Digests) (turnRestSecret : Bytes) (iceUrls : List String)
    (nowMillis : UInt64) (subject : BitVec 128) : Except ApiError IceServersResponse :=
  if 2 ^ 64 ≤ expiresAtSeconds nowMillis then .error credentialTimeExhausted
  else
    let username := turnUsername nowMillis subject
    match restCredentialPassword digests turnRestSecret username with
    | none => .error turnCredentialUnavailable
    | some credential =>
        .ok ⟨[⟨iceUrls, username, credential⟩],
          .ofNat (min (expiresAtSeconds nowMillis * 1000) (2 ^ 64 - 1))⟩

/-! ## The text of a username -/

theorem isAsciiHexdigit_digitChar {d : ℕ} (h : d < 16) :
    TurnServer.isAsciiHexdigit (Nat.digitChar d) = true := by
  have hall : ∀ d < 16, TurnServer.isAsciiHexdigit (Nat.digitChar d) = true := by decide
  exact hall d h

theorem all_numeral (n : ℕ) : (Hex.numeral n).all TurnServer.isAsciiHexdigit = true := by
  induction n using Nat.strong_induction_on with
  | _ n ih =>
    by_cases hsmall : n < 16
    · rw [Hex.numeral, Nat.toDigits_of_lt_base hsmall]
      simp [isAsciiHexdigit_digitChar hsmall]
    · have hfront := ih (n / 16) (by omega)
      have hlast := isAsciiHexdigit_digitChar (Nat.mod_lt n (by decide : 0 < 16))
      rw [Hex.numeral, Nat.toDigits_of_base_le (by decide) (not_lt.mp hsmall), List.all_append]
      rw [Hex.numeral] at hfront
      simp [hfront, hlast]

theorem length_formatId (value : BitVec 128) : (formatId value).toList.length = 32 := by
  have hlength : (Hex.numeral value.toNat).length ≤ 32 :=
    (Nat.length_toDigits_le_iff (by decide) (by decide)).mpr value.isLt
  unfold formatId
  rw [String.toList_ofList, List.length_leftpad]
  omega

theorem all_formatId (value : BitVec 128) :
    (formatId value).toList.all TurnServer.isAsciiHexdigit = true := by
  unfold formatId List.leftpad
  rw [String.toList_ofList, List.all_append, all_numeral, Bool.and_true, List.all_eq_true]
  intro c hc
  rw [List.eq_of_mem_replicate hc]
  decide

theorem byteLength_of_hexdigits {text : List Char} (h : text.all TurnServer.isAsciiHexdigit = true) :
    Words.byteLength text = text.length := by
  have hsize : ∀ c ∈ text, c.utf8Size = 1 := by
    intro c hc
    have hdigit := List.all_eq_true.mp h c hc
    unfold TurnServer.isAsciiHexdigit Char.isDigit at hdigit
    simp only [Bool.or_eq_true, Bool.and_eq_true, decide_eq_true_eq] at hdigit
    rw [Char.utf8Size_eq_one_iff]
    rcases hdigit with (⟨-, hle⟩ | ⟨-, hle⟩) | ⟨-, hle⟩ <;> exact UInt32.le_trans hle (by decide)
  unfold Words.byteLength
  rw [List.map_congr_left hsize]
  simp

/-- A secret of 32 bytes is enough for credentials. -/
theorem getIceServers_eq_ok (digests : Digests) {turnRestSecret : Bytes}
    (h : 32 ≤ turnRestSecret.length) (iceUrls : List String) (nowMillis : UInt64)
    (subject : BitVec 128) :
    getIceServers digests turnRestSecret iceUrls nowMillis subject =
      .ok ⟨[⟨iceUrls, turnUsername nowMillis subject, digests.standard
          (digests.hmacSha1 turnRestSecret (TurnServer.asBytes (turnUsername nowMillis subject)))⟩],
        .ofNat (min (expiresAtSeconds nowMillis * 1000) (2 ^ 64 - 1))⟩ := by
  have hlt : expiresAtSeconds nowMillis < 10 ^ 20 := by
    have hnow := nowMillis.toNat_lt
    unfold expiresAtSeconds
    omega
  have hroom : ¬ 2 ^ 64 ≤ expiresAtSeconds nowMillis := by
    have hnow := nowMillis.toNat_lt
    unfold expiresAtSeconds
    omega
  have hexpires : (Words.numeral (expiresAtSeconds nowMillis)).length ≤ 20 :=
    (Nat.length_toDigits_le_iff (by decide) (by decide)).mpr hlt
  have hsize : (turnUsername nowMillis subject).utf8ByteSize ≤ 512 := by
    have hchars := length_asBytes_ofList_le
      (Words.numeral (expiresAtSeconds nowMillis) ++ ':' :: (formatId subject).toList)
    rw [length_asBytes, List.length_append, List.length_cons, length_formatId] at hchars
    exact hchars.trans (by omega)
  have hnonempty : (turnUsername nowMillis subject).isEmpty = false := by
    rw [← Bool.not_eq_true, String.isEmpty_iff]
    intro hempty
    have hlist := congrArg String.toList hempty
    rw [turnUsername, String.toList_ofList] at hlist
    simp at hlist
  unfold getIceServers restCredentialPassword
  rw [if_neg hroom]
  dsimp only
  rw [if_neg]
  simp only [hnonempty, Bool.false_eq_true, false_or, not_or]
  omega

/-! ## Both services -/

/-- The key that the TURN server derives from a username is that of the password that was handed
out. -/
theorem credentialKey_issued {digests : Digests} {config : CredentialConfig} {iceUrls : List String}
    {nowMillis : UInt64} {subject : BitVec 128} {response : IceServersResponse}
    (hissued : getIceServers digests config.restSecret iceUrls nowMillis subject = .ok response)
    {ice : IceServer} (hice : ice ∈ response.iceServers) (hother : ice.username ≠ config.username)
    (now : ℕ) :
    TurnServer.credentialKey digests config now ice.username =
      if now < expiresAtSeconds nowMillis ∧ expiresAtSeconds nowMillis ≤ now + 86400 then
        some (longTermKey digests ice.username config.realm ice.credential)
      else none := by
  unfold getIceServers at hissued
  split_ifs at hissued with hexhausted
  dsimp only at hissued
  cases hpassword : restCredentialPassword digests config.restSecret
      (turnUsername nowMillis subject) with
  | none =>
    rw [hpassword] at hissued
    cases hissued
  | some credential =>
    rw [hpassword] at hissued
    cases hissued
    rw [List.mem_singleton] at hice
    subst hice
    dsimp only at hother ⊢
    have htext : (turnUsername nowMillis subject).toList =
        Words.numeral (expiresAtSeconds nowMillis) ++ ':' :: (formatId subject).toList :=
      String.toList_ofList
    have hlength := length_formatId subject
    have hdigits := all_formatId subject
    have hnonempty : (formatId subject).toList ≠ [] := by
      intro hnil
      rw [hnil] at hlength
      cases hlength
    have hbytes : Words.byteLength (formatId subject).toList ≤ 128 := by
      rw [byteLength_of_hexdigits hdigits, hlength]
      decide
    have hexpires : expiresAtSeconds nowMillis ≤ TurnServer.u64Max := by
      unfold TurnServer.u64Max
      omega
    rw [TurnServer.credentialKey_rest hother htext hexpires hnonempty hbytes hdigits, hpassword]
    rfl

/-- A request with the credentials that the API server has handed out is authenticated exactly while
their expiry is ahead, and not more than a day, if it is for the realm, carries a nonce of its client
and verifies under the key of the password. -/
theorem issued_credentials_authenticate (digests : Digests) (manager : NonceManager)
    (config : CredentialConfig) (iceUrls : List String) (nowMillis : UInt64) (subject : BitVec 128)
    (response : IceServersResponse)
    (hissued : getIceServers digests config.restSecret iceUrls nowMillis subject = .ok response)
    (ice : IceServer) (hice : ice ∈ response.iceServers) (hother : ice.username ≠ config.username)
    (s : Server) (hcredentials : s.credentials = credentials digests config manager)
    (hrealm : s.config.realm = config.realm) (message : Message)
    (husername : message.username = .ok (some ice.username)) (now : ℕ) (client : SocketAddr)
    (authentication : Server.Authentication) :
    s.authenticate now client message = .ok authentication ↔
      (now < expiresAtSeconds nowMillis ∧ expiresAtSeconds nowMillis ≤ now + 86400) ∧
      authentication =
        ⟨ice.username, longTermKey digests ice.username config.realm ice.credential⟩ ∧
      message.realm = .ok (some config.realm) ∧
      (∃ issued, issued < 2 ^ 64 ∧ issued ≤ now ∧ now ≤ issued + manager.lifetimeSecs ∧
        message.nonce = .ok (some (manager.issue digests issued client.ip))) ∧
      message.verifyMessageIntegritySha1
        (longTermKey digests ice.username config.realm ice.credential) = true ∧
      ((message.attributeValue TurnServer.attributeFingerprint).isSome = true →
        message.verifyFingerprint = true) := by
  have hkey := credentialKey_issued hissued hice hother now
  rw [Server.authenticate_eq_ok, hcredentials, hrealm, husername]
  change _ ∧ _ ∧ TurnServer.credentialKey digests config now _ = _ ∧
    (∃ nonce, _ ∧ manager.validate digests nonce now client.ip = _) ∧ _ ↔ _
  simp only [NonceManager.validate_eq_ok]
  obtain ⟨username, key⟩ := authentication
  constructor
  · rintro ⟨hname, hrealm, hfound, ⟨nonce, hnonce, issued, hlt, hle, hfresh, rfl⟩, hintegrity, hfingerprint⟩
    cases hname
    dsimp only at hfound hintegrity
    rw [hkey] at hfound
    split_ifs at hfound with hlive
    cases hfound
    exact ⟨hlive, rfl, hrealm, ⟨issued, hlt, hle, hfresh, hnonce⟩, hintegrity, hfingerprint⟩
  · rintro ⟨hlive, hsame, hrealm, ⟨issued, hlt, hle, hfresh, hnonce⟩, hintegrity, hfingerprint⟩
    cases hsame
    rw [if_pos hlive] at hkey
    exact ⟨rfl, hrealm, hkey, ⟨_, hnonce, issued, hlt, hle, hfresh, rfl⟩, hintegrity, hfingerprint⟩

namespace IceSample

def config : CredentialConfig := ⟨"fluvora", "operator", "secret", List.replicate 32 3⟩

def client : SocketAddr := .v4 #v[192, 0, 2, 7] 5000

def username : String := turnUsername 1000000 5

def server : Server :=
  .start ⟨client, client, client.ip, client.ip, 50000, 50100, false, 1000000, "fluvora", 10, 2, none⟩
    (credentials sampleDigests config sampleManager)

def message : Message where
  method := .allocate
  transactionId := []
  attributeValue _ := none
  xorAddress _ := .ok none
  xorAddresses _ := .ok []
  username := .ok (some username)
  realm := .ok (some "fluvora")
  nonce := .ok (some (sampleManager.issue sampleDigests 1100 client.ip))
  verifyMessageIntegritySha1 _ := true
  verifyFingerprint := true
  unknownRequiredAttributes := []

/-- A request some minutes after the credentials were handed out. -/
theorem authenticates : server.authenticate 1500 client message =
    .ok ⟨username, longTermKey sampleDigests username "fluvora" "password"⟩ := by
  have hstrong : 32 ≤ config.restSecret.length := by decide
  have hissued := getIceServers_eq_ok sampleDigests hstrong [] 1000000 5
  refine (issued_credentials_authenticate sampleDigests sampleManager config [] 1000000 5 _ hissued
    ⟨[], username, "password"⟩ (List.mem_singleton.mpr rfl) ?_ server rfl rfl message rfl 1500 client
    _).mpr ⟨?_, rfl, rfl, ⟨1100, ?_⟩, rfl, ?_⟩
  · intro hsame
    dsimp only at hsame
    have hcolon : ':' ∈ username.toList := by
      rw [username, turnUsername, String.toList_ofList]
      simp
    rw [hsame] at hcolon
    exact absurd hcolon (by decide)
  · decide
  · refine ⟨by decide, by decide, by decide, rfl⟩
  · exact fun hcarried => absurd hcarried (by decide)

end IceSample

end Fluvora.ApiServer

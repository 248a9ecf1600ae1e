import Fluvora.ApiServer.Signals
import Fluvora.Lib.Results
import Fluvora.Lib.Runs

/-!
# Revoked tokens

`revoke_token` of `crates/services/api-server`, the middleware that rejects the requests of revoked
tokens, and the rows of `fluvora_token_revocations`.  With the files backend there is one process,
whose memory has the revocations; with PostgreSQL there are any number of processes, each with a
memory of its own, which asks first there and then in the table.

The table keeps the later expiry of two revocations and the memory the last one, so with the files
backend a revocation can be shortened: `each_rejects_iff` tells when a request is let through.
-/

namespace Fluvora.ApiServer

open Domain ControlStore

structure RevokedToken where
  subject : UserId
  nonce : UInt64
deriving DecidableEq

structure RevokeTokenRequest where
  token : RevokedToken
  expiresAtMillis : UInt64
  reason : String

/-- A row of `fluvora_token_revocations`; times are in milliseconds. -/
structure RevocationRow where
  expiresAt : ℕ
  reason : String

abbrev Revocations := RevokedToken → Option RevocationRow

/-- The revocations in the memory of a process, with their expiry. -/
abbrev RevokedTokens := RevokedToken → Option UInt64

inductive RevocationServers
  | files (memory : RevokedTokens)
  | postgres (rows : Revocations) (memories : ℕ → RevokedTokens)

def invalidTokenRevocation : ApiError :=
  ⟨422, "invalid_token_revocation", "revocation expiration/reason is invalid"⟩

/-! ## The table -/

/-- Inserts a revocation, or extends the one that is there. -/
def revokeAccessToken (request : RevokeTokenRequest) (rows : Revocations) :
    Except StoreError Revocations := do
  validateBoundedText request.reason "revocation reason" 512
  let expiresAt ← toI64 request.expiresAtMillis "token expiration"
  let extended := match rows request.token with
    | some row => max row.expiresAt expiresAt
    | none => expiresAt
  return Function.update rows request.token (some ⟨extended, request.reason⟩)

def isAccessTokenRevoked (token : RevokedToken) (now : ℕ) (rows : Revocations) : Bool :=
  (rows token).any fun row => now < row.expiresAt

/-- Deletes some of the expired rows. -/
def purgeExpired (chosen : RevokedToken → Bool) (now : ℕ) (rows : Revocations) : Revocations :=
  fun token => (rows token).filter fun row => !(row.expiresAt ≤ now && chosen token)

/-! ## The server -/

/-- The handler, below its authentication; `reachable` tells whether the database answers. -/
def revokeToken (process : ℕ) (request : RevokeTokenRequest) (reachable : Bool) (now : ℕ)
    (servers : RevocationServers) : Except ApiError RevocationServers :=
  if request.expiresAtMillis.toNat ≤ now || request.reason.isEmpty ||
      512 < request.reason.utf8ByteSize || request.reason.toList.any isControl then
    .error invalidTokenRevocation
  else
    match servers with
    | .files memory =>
        .ok (.files (Function.update memory request.token (some request.expiresAtMillis)))
    | .postgres rows memories =>
        if reachable then
          match revokeAccessToken request rows with
          | .ok rows =>
              .ok (.postgres rows (Function.update memories process
                (Function.update (memories process) request.token (some request.expiresAtMillis))))
          | .error _ => .error controlStoreUnavailable
        else .error controlStoreUnavailable

/-- What is left of the revocations in memory; the middleware drops the others on every request. -/
def retainRevoked (now : ℕ) (memory : RevokedTokens) : RevokedTokens :=
  fun token => (memory token).filter fun expiresAt => now < expiresAt.toNat

def accessTokenRevoked (process : ℕ) (token : RevokedToken) (reachable : Bool) (now : ℕ) :
    RevocationServers → Except ApiError Bool × RevocationServers
  | .files memory =>
      let memory := retainRevoked now memory
      (.ok (memory token).isSome, .files memory)
  | .postgres rows memories =>
      let memory := retainRevoked now (memories process)
      let servers := .postgres rows (Function.update memories process memory)
      if (memory token).isSome then (.ok true, servers)
      else if reachable then (.ok (isAccessTokenRevoked token now rows), servers)
      else (.error controlStoreUnavailable, servers)

/-! ## Runs -/

/-- The servers at a time, with the expiries of all successful revocations of a token so far. -/
structure RevocationSystem where
  servers : RevocationServers
  now : ℕ
  revoked : RevokedToken → List UInt64

/-- The files backend has a single process, which is not restarted. -/
inductive RevocationAction
  | wait (millis : ℕ)
  | revoke (process : ℕ) (request : RevokeTokenRequest) (reachable : Bool)
  | request (process : ℕ) (token : RevokedToken) (reachable : Bool)
  | purge (chosen : RevokedToken → Bool)
  | restart (process : ℕ)

namespace RevocationSystem

def step (system : RevocationSystem) : RevocationAction → RevocationSystem
  | .wait millis => { system with now := system.now + millis }
  | .revoke process request reachable =>
      match revokeToken process request reachable system.now system.servers with
      | .ok servers => { system with
          servers
          revoked := Function.update system.revoked request.token
            (system.revoked request.token ++ [request.expiresAtMillis]) }
      | .error _ => system
  | .request process token reachable => { system with
      servers := (accessTokenRevoked process token reachable system.now system.servers).2 }
  | .purge chosen =>
      match system.servers with
      | .files _ => system
      | .postgres rows memories =>
          { system with servers := .postgres (purgeExpired chosen system.now rows) memories }
  | .restart process =>
      match system.servers with
      | .files _ => system
      | .postgres rows memories => { system with
          servers := .postgres rows (Function.update memories process fun _ => none) }

inductive Backend
  | files
  | postgres

def initial (backend : Backend) : RevocationSystem where
  servers := match backend with
    | .files => .files fun _ => none
    | .postgres => .postgres (fun _ => none) fun _ _ => none
  now := 0
  revoked := fun _ => []

/-- A request of a token is not let through while one of its revocations has not expired. -/
def Rejects (system : RevocationSystem) : RevocationAction → Prop
  | .request process token reachable =>
      ∀ expiry ∈ system.revoked token, system.now < expiry.toNat →
        (accessTokenRevoked process token reachable system.now system.servers).1 ≠ .ok false
  | _ => True

/-- With the files backend, the last revocation of the token has not expired if any has not. -/
def LastCovers (system : RevocationSystem) : RevocationAction → Prop
  | .request _ token _ =>
      match system.servers with
      | .files _ => (∃ expiry ∈ system.revoked token, system.now < expiry.toNat) →
          ∃ last, (system.revoked token).getLast? = some last ∧ system.now < last.toNat
      | .postgres _ _ => True
  | _ => True

/-- What the servers know of the revocations: the last one in memory, or all in the table. -/
def Known (system : RevocationSystem) : Prop :=
  match system.servers with
  | .files memory => ∀ token, retainRevoked system.now memory token =
      (system.revoked token).getLast?.filter fun expiry => system.now < expiry.toNat
  | .postgres rows _ => ∀ token, ∀ expiry ∈ system.revoked token, system.now < expiry.toNat →
      ∃ row, rows token = some row ∧ expiry.toNat ≤ row.expiresAt

theorem known_initial (backend : Backend) : (initial backend).Known := by
  cases backend with
  | files => exact fun token => rfl
  | postgres => exact nofun

/-! ### What each action does to what is known -/

theorem retainRevoked_later {now later : ℕ} (h : now ≤ later) (memory : RevokedTokens)
    (token : RevokedToken) :
    retainRevoked later memory token =
      (retainRevoked now memory token).filter fun expiry => later < expiry.toNat := by
  unfold retainRevoked
  rw [Option.filter_filter]
  congr 1
  funext expiry
  have hlater : later < expiry.toNat → now < expiry.toNat := fun hexpiry => by omega
  simpa using hlater

theorem known_wait {system : RevocationSystem} (h : system.Known) (millis : ℕ) :
    (system.step (.wait millis)).Known := by
  obtain ⟨servers, now, revoked⟩ := system
  cases servers with
  | files memory =>
    intro token
    have hknown := h token
    change retainRevoked (now + millis) memory token =
      (revoked token).getLast?.filter fun expiry => now + millis < expiry.toNat
    rw [retainRevoked_later (Nat.le_add_right now millis), hknown, Option.filter_filter]
    congr 1
    funext expiry
    have hlater : now + millis < expiry.toNat → now < expiry.toNat := fun hexpiry => by omega
    simpa using hlater
  | postgres rows memories =>
    intro token expiry hexpiry hlater
    change now + millis < expiry.toNat at hlater
    exact h token expiry hexpiry (show now < expiry.toNat by omega)

theorem revokeAccessToken_covers {request : RevokeTokenRequest} {rows rows' : Revocations}
    (h : revokeAccessToken request rows = .ok rows') :
    (∃ row, rows' request.token = some row ∧ request.expiresAtMillis.toNat ≤ row.expiresAt) ∧
      ∀ token row, rows token = some row →
        ∃ row', rows' token = some row' ∧ row.expiresAt ≤ row'.expiresAt := by
  unfold revokeAccessToken at h
  obtain ⟨-, -, h⟩ := Results.bind_eq_ok.mp h
  obtain ⟨expiresAt, hexpires, h⟩ := Results.bind_eq_ok.mp h
  have hmillis := toNat_of_toI64 hexpires
  cases h
  refine ⟨?_, fun token row hrow => ?_⟩
  · rw [Function.update_self]
    refine ⟨_, rfl, ?_⟩
    cases rows request.token with
    | none => exact hmillis.le
    | some row => exact hmillis.le.trans (le_max_right row.expiresAt expiresAt)
  · by_cases htoken : token = request.token
    · subst htoken
      rw [Function.update_self]
      refine ⟨_, rfl, ?_⟩
      rw [hrow]
      exact le_max_left row.expiresAt expiresAt
    · rw [Function.update_of_ne htoken]
      exact ⟨row, hrow, le_rfl⟩

theorem known_revoke {system : RevocationSystem} (h : system.Known) (process : ℕ)
    (request : RevokeTokenRequest) (reachable : Bool) :
    (system.step (.revoke process request reachable)).Known := by
  obtain ⟨servers, now, revoked⟩ := system
  unfold step revokeToken
  dsimp only
  cases servers with
  | files memory =>
    dsimp only
    split_ifs with hinvalid
    · exact h
    intro token
    have hknown := h token
    dsimp only [retainRevoked] at hknown ⊢
    by_cases htoken : token = request.token
    · subst htoken
      simp
    · rw [Function.update_of_ne htoken, Function.update_of_ne htoken]
      exact hknown
  | postgres rows memories =>
    dsimp only
    split_ifs with hinvalid hreachable
    · exact h
    · cases hrows : revokeAccessToken request rows with
      | error error => exact h
      | ok rows' =>
        obtain ⟨hnew, hold⟩ := revokeAccessToken_covers hrows
        intro token expiry hexpiry hlater
        dsimp only at hexpiry hlater
        -- an expiry is covered by the row it made, or by the row that covered it before
        have hcovered : (∃ row, rows token = some row ∧ expiry.toNat ≤ row.expiresAt) ∨
            token = request.token ∧ expiry = request.expiresAtMillis := by
          by_cases htoken : token = request.token
          · subst htoken
            rw [Function.update_self, List.mem_append, List.mem_singleton] at hexpiry
            rcases hexpiry with hexpiry | hexpiry
            · exact .inl (h request.token expiry hexpiry hlater)
            · exact .inr ⟨rfl, hexpiry⟩
          · rw [Function.update_of_ne htoken] at hexpiry
            exact .inl (h token expiry hexpiry hlater)
        rcases hcovered with ⟨row, hrow, hle⟩ | ⟨rfl, rfl⟩
        · obtain ⟨row', hrow', hle'⟩ := hold token row hrow
          exact ⟨row', hrow', hle.trans hle'⟩
        · exact hnew
    · exact h

theorem known_request {system : RevocationSystem} (h : system.Known) (process : ℕ)
    (token : RevokedToken) (reachable : Bool) :
    (system.step (.request process token reachable)).Known := by
  obtain ⟨servers, now, revoked⟩ := system
  cases servers with
  | files memory =>
    intro other
    have hknown := h other
    change retainRevoked now (retainRevoked now memory) other = _
    rw [retainRevoked_later le_rfl] at hknown
    exact hknown
  | postgres rows memories =>
    unfold step accessTokenRevoked
    dsimp only
    split_ifs <;> exact h

theorem known_purge {system : RevocationSystem} (h : system.Known)
    (chosen : RevokedToken → Bool) : (system.step (.purge chosen)).Known := by
  obtain ⟨servers, now, revoked⟩ := system
  cases servers with
  | files memory => exact h
  | postgres rows memories =>
    intro token expiry hexpiry hlater
    obtain ⟨row, hrow, hle⟩ := h token expiry hexpiry hlater
    refine ⟨row, ?_, hle⟩
    change now < expiry.toNat at hlater
    have hunexpired : ¬ row.expiresAt ≤ now := by omega
    simp [purgeExpired, hrow, hunexpired]

theorem known_step (system : RevocationSystem) (action : RevocationAction)
    (h : system.Known) : (system.step action).Known := by
  cases action with
  | wait millis => exact known_wait h millis
  | revoke process request reachable => exact known_revoke h process request reachable
  | request process token reachable => exact known_request h process token reachable
  | purge chosen => exact known_purge h chosen
  | restart process =>
    obtain ⟨servers, now, revoked⟩ := system
    cases servers <;> exact h

/-! ### When a request is let through -/

theorem rejects_iff_lastCovers {system : RevocationSystem} (h : system.Known)
    (action : RevocationAction) : system.Rejects action ↔ system.LastCovers action := by
  obtain ⟨servers, now, revoked⟩ := system
  cases action with
  | wait millis => exact Iff.rfl
  | revoke process request reachable => exact Iff.rfl
  | purge chosen => exact Iff.rfl
  | restart process => exact Iff.rfl
  | request process token reachable =>
    unfold Rejects LastCovers accessTokenRevoked
    cases servers with
    | files memory =>
      have hknown := h token
      dsimp only at hknown ⊢
      rw [hknown]
      cases (revoked token).getLast? with
      | none => simp
      | some last =>
        by_cases hlast : now < last.toNat <;> simp [Option.filter, hlast]
    | postgres rows memories =>
      dsimp only
      refine iff_of_true (fun expiry hexpiry hlater => ?_) trivial
      obtain ⟨row, hrow, hle⟩ := h token expiry hexpiry hlater
      have hunexpired : now < row.expiresAt := by omega
      have hrevoked : isAccessTokenRevoked token now rows = true := by
        simp [isAccessTokenRevoked, hrow, hunexpired]
      split_ifs <;> simp [hrevoked]

/-- A revoked token is let through exactly when the files backend has seen, after the revocation
that has not expired, another one of the token that has. -/
theorem each_rejects_iff (backend : Backend) (actions : List RevocationAction) :
    Runs.Each step Rejects (initial backend) actions ↔
      Runs.Each step LastCovers (initial backend) actions :=
  Runs.each_iff_each (fun system action h _ => known_step system action h)
    (fun _ action h => rejects_iff_lastCovers h action) (known_initial backend) actions

/-- A moderator revokes a token until 1000, then until 500: at 600 the token is good again. -/
def shortened : List RevocationAction :=
  let token : RevokedToken := ⟨⟨1⟩, 2⟩
  [.revoke 0 ⟨token, 1000, "abuse"⟩ true, .revoke 0 ⟨token, 500, "abuse"⟩ true, .wait 600,
    .request 0 token true]

theorem not_rejects_shortened : ¬ Runs.Each step Rejects (initial .files) shortened := by
  intro h
  have hrejects := h.2.2.2.1 1000 (by decide) (by decide)
  exact hrejects rfl

end RevocationSystem

end Fluvora.ApiServer

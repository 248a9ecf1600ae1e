import Fluvora.ApiServer.GiftReceipts
import Fluvora.Lib.Entries
import Fluvora.Lib.Lines
import Fluvora.Lib.Words

/-!
# WHIP and WHEP sessions

A session is recorded twice: by the API server, which checks its ETag, and by the media node, which
uses its ICE credentials.  The routes of `routes/webrtc.rs` keep the two together without a common
lock: a patch holds `protocol_updates` from its check to its commit, a creation and a deletion hold
nothing between their sections.  The answer of the media node to a request may be lost after the
request was carried out.

The state keeps as history which identifiers were drawn, which restarts were answered, and which
sessions have credentials at the media node whose answer was lost.
-/

namespace Fluvora.ApiServer

open Domain (RoomId)

inductive WebRtcHttpProtocol
  | whip
  | whep
deriving DecidableEq

structure IceCredentials where
  localUsernameFragment : List Char
  localPassword : List Char
  remoteUsernameFragment : List Char
  remotePassword : List Char
deriving DecidableEq

structure ProtocolSession where
  roomId : RoomId
  participant : BitVec 128
  protocol : WebRtcHttpProtocol
  credentials : IceCredentials
  etagVersion : UInt64
deriving DecidableEq

def maxProtocolSessions : ℕ := 100000

def protocolSessionNotFound : ApiError :=
  ⟨404, "protocol_session_not_found", "WHIP/WHEP resource does not exist"⟩

def sessionEtagRequired : ApiError :=
  ⟨428, "session_etag_required", "If-Match is required for trickle ICE"⟩

def staleSessionEtag : ApiError :=
  ⟨412, "stale_session_etag", "WHIP/WHEP resource ETag does not match"⟩

/-! ## Fragments -/

inductive TrickleFragment
  | candidates
  | iceRestart (remoteUsernameFragment remotePassword : List Char)
deriving DecidableEq

def invalidTrickleFragment : ApiError :=
  ⟨422, "invalid_trickle_ice_fragment", "body is not a supported ICE SDP fragment"⟩

def incompleteIceRestart : ApiError :=
  ⟨422, "incomplete_ice_restart", "ICE restart must replace both ice-ufrag and ice-pwd"⟩

def isAsciiGraphic (c : Char) : Bool := 33 ≤ c.toNat && c.toNat ≤ 126

def validIceUsernameFragment (value : List Char) : Bool :=
  4 ≤ Words.byteLength value && Words.byteLength value ≤ 256 && value.all isAsciiGraphic

def validIcePassword (value : List Char) : Bool :=
  22 ≤ Words.byteLength value && Words.byteLength value ≤ 256 && value.all isAsciiGraphic

/-- What the lines so far have said. -/
structure TrickleState where
  usefulLine : Bool
  remoteUsernameFragment : Option (List Char)
  remotePassword : Option (List Char)
deriving DecidableEq

def stripFront (front : String) (line : List Char) : Option (List Char) :=
  if front.toList.isPrefixOf line then some (line.drop front.length) else none

/-- One line, without the carriage returns at its end. -/
def trickleLine (state : TrickleState) (line : List Char) : Except ApiError TrickleState :=
  if line = [] then .ok state
  else if 2048 < Words.byteLength line ∨ !line.all fun c => c = ' ' || isAsciiGraphic c then
    .error invalidTrickleFragment
  else
    match stripFront "a=ice-ufrag:" line with
    | some value =>
        if state.remoteUsernameFragment.isSome ∨ !validIceUsernameFragment value then
          .error invalidTrickleFragment
        else .ok { state with usefulLine := true, remoteUsernameFragment := some value }
    | none =>
    match stripFront "a=ice-pwd:" line with
    | some value =>
        if state.remotePassword.isSome ∨ !validIcePassword value then .error invalidTrickleFragment
        else .ok { state with usefulLine := true, remotePassword := some value }
    | none =>
    match stripFront "a=candidate:" line with
    | some value =>
        if value = [] then .error invalidTrickleFragment else .ok { state with usefulLine := true }
    | none =>
    if line = "a=end-of-candidates".toList then .ok { state with usefulLine := true }
    else
    match stripFront "a=mid:" line with
    | some value =>
        if value = [] ∨ 256 < Words.byteLength value then .error invalidTrickleFragment
        else .ok { state with usefulLine := true }
    | none =>
        if ((stripFront "m=" line).or (stripFront "c=" line)).any fun value => value ≠ [] then
          .ok { state with usefulLine := true }
        else .error invalidTrickleFragment

def trickleLines : TrickleState → List (List Char) → Except ApiError TrickleState
  | state, [] => .ok state
  | state, line :: lines => do
      let state ← trickleLine state (line.rdropWhile (· = '\r'))
      trickleLines state lines

def validateTrickleFragment (fragment : List Char) (session : ProtocolSession) :
    Except ApiError TrickleFragment := do
  let state ← trickleLines ⟨false, none, none⟩ (Lines.lines fragment)
  if !state.usefulLine then .error invalidTrickleFragment
  else
    match state.remoteUsernameFragment, state.remotePassword with
    | none, none => .ok .candidates
    | some username, some password =>
        if username = session.credentials.remoteUsernameFragment ∧
            password = session.credentials.remotePassword then .ok .candidates
        else if username ≠ session.credentials.remoteUsernameFragment ∧
            password ≠ session.credentials.remotePassword then .ok (.iceRestart username password)
        else .error incompleteIceRestart
    | _, _ => .error incompleteIceRestart

/-! ## The two services -/

/-- The patch that holds `protocol_updates`. -/
inductive ProtocolUpdate
  | checked (sessionId : UInt64) (previous : ProtocolSession)
      (remoteUsernameFragment remotePassword : List Char)
  | posted (sessionId : UInt64) (previous : ProtocolSession) (credentials : IceCredentials)

/-- Where another request stands between two of its sections. -/
inductive ProtocolPoint
  | creating (sessionId : UInt64) (session : ProtocolSession)
  | rollingBack (sessionId : UInt64)
  | deleting (sessionId : UInt64)
  | deleted (sessionId : UInt64)
deriving DecidableEq

/-- How the media node answers a request that it can carry out. -/
inductive NodeAnswer
  | accepted
  | refused
  | lost
deriving DecidableEq

structure ProtocolState where
  sessions : Entries UInt64 ProtocolSession
  node : Entries UInt64 IceCredentials
  update : Option ProtocolUpdate
  calls : Multiset ProtocolPoint
  drawn : List UInt64
  answers : List (UInt64 × UInt64)
  lost : List UInt64

namespace ProtocolState

def start : ProtocolState := ⟨.empty, .empty, none, 0, [], [], []⟩

def authorizedProtocolSession (s : ProtocolState) (roomId : RoomId) (sessionId : UInt64)
    (participant : BitVec 128) (protocol : WebRtcHttpProtocol) : Except ApiError ProtocolSession :=
  match s.sessions.get? sessionId with
  | none => .error protocolSessionNotFound
  | some session =>
      if session.roomId ≠ roomId ∨ session.participant ≠ participant ∨
          session.protocol ≠ protocol then .error protocolSessionNotFound
      else .ok session

def etag (version : UInt64) : String := "\"" ++ toString version.toNat ++ "\""

def requireCurrentEtag (ifMatch : Option String) (version : UInt64) : Except ApiError Unit :=
  match ifMatch with
  | some value => if value = etag version then .ok () else .error staleSessionEtag
  | none => .error sessionEtagRequired

/-- The media node takes a new session, unless it has one with the identifier. -/
def provision (s : ProtocolState) (sessionId : UInt64) (session : ProtocolSession)
    (answer : NodeAnswer) : ProtocolState :=
  let s := { s with drawn := sessionId :: s.drawn }
  if (s.node.get? sessionId).isSome ∨ answer = .refused then s
  else
    let s := { s with node := s.node.insert sessionId session.credentials }
    if answer = .lost then s else { s with calls := .creating sessionId session ::ₘ s.calls }

/-- The end of `create_protocol_session`. -/
def record (s : ProtocolState) (sessionId : UInt64) (session : ProtocolSession) : ProtocolState :=
  if maxProtocolSessions ≤ s.sessions.size then
    { s with calls := .rollingBack sessionId ::ₘ s.calls }
  else { s with sessions := s.sessions.insert sessionId session }

/-- The checks of `patch_protocol_session`, which take `protocol_updates`. -/
def beginPatch (s : ProtocolState) (roomId : RoomId) (sessionId : UInt64) (participant : BitVec 128)
    (protocol : WebRtcHttpProtocol) (ifMatch : Option String) (fragment : List Char) :
    Except ApiError TrickleFragment × ProtocolState :=
  match s.authorizedProtocolSession roomId sessionId participant protocol with
  | .error error => (.error error, s)
  | .ok session =>
      match requireCurrentEtag ifMatch session.etagVersion with
      | .error error => (.error error, s)
      | .ok () =>
          match validateTrickleFragment fragment session with
          | .error error => (.error error, s)
          | .ok .candidates => (.ok .candidates, s)
          | .ok (.iceRestart username password) =>
              (.ok (.iceRestart username password),
                { s with update := some (.checked sessionId session username password) })

/-- The request of `restart_protocol_ice` to the media node, with the credentials that were drawn. -/
def postRestart (s : ProtocolState) (sessionId : UInt64) (previous : ProtocolSession)
    (credentials : IceCredentials) (answer : NodeAnswer) : ProtocolState :=
  if (s.node.get? sessionId).isNone ∨ answer = .refused then { s with update := none }
  else
    let s := { s with node := s.node.insert sessionId credentials }
    if answer = .lost then { s with update := none, lost := sessionId :: s.lost }
    else { s with update := some (.posted sessionId previous credentials) }

/-- The commit of `restart_protocol_ice`.  The credentials are replaced before the version is. -/
def commitRestart (s : ProtocolState) (sessionId : UInt64) (previous : ProtocolSession)
    (credentials : IceCredentials) : ProtocolState :=
  let s := { s with update := none }
  match s.sessions.get? sessionId with
  | none => s
  | some current =>
      if current.etagVersion ≠ previous.etagVersion then s
      else
        let s := { s with lost := s.lost.filter (· ≠ sessionId) }
        let current := { current with credentials }
        if current.etagVersion.toNat + 1 < 2 ^ 64 then
          { s with
            sessions := s.sessions.insert sessionId
              { current with etagVersion := current.etagVersion + 1 }
            answers := s.answers ++ [(sessionId, current.etagVersion + 1)] }
        else { s with sessions := s.sessions.insert sessionId current }

/-- `delete_media_session`; a session that the media node does not have is deleted. -/
def deleteAtNode (s : ProtocolState) (sessionId : UInt64) (answer : NodeAnswer) : ProtocolState :=
  match answer with
  | .refused => s
  | _ => { s with node := s.node.erase sessionId }

inductive Action
  | provision (sessionId : UInt64) (session : ProtocolSession) (answer : NodeAnswer)
  | record (sessionId : UInt64) (session : ProtocolSession)
  | rollBack (sessionId : UInt64) (answer : NodeAnswer)
  | patch (roomId : RoomId) (sessionId : UInt64) (participant : BitVec 128)
      (protocol : WebRtcHttpProtocol) (ifMatch : Option String) (fragment : List Char)
  | post (localUsernameFragment localPassword : List Char) (answer : NodeAnswer)
  | commit
  | delete (roomId : RoomId) (sessionId : UInt64) (participant : BitVec 128)
      (protocol : WebRtcHttpProtocol)
  | cleanUp (roomId : RoomId) (participant : BitVec 128)
  | deleteAtNode (sessionId : UInt64) (answer : NodeAnswer)
  | forget (sessionId : UInt64)
  | lose (sessionId : UInt64)

/-- The sessions that `cleanup_participant_media` deletes. -/
def sessionsOf (s : ProtocolState) (roomId : RoomId) (participant : BitVec 128) : List UInt64 :=
  (s.sessions.toList.filter fun entry =>
    entry.2.roomId = roomId ∧ entry.2.participant = participant).map Prod.fst

/-- One section of a request; one that is not where it claims to be does nothing. -/
def step (s : ProtocolState) : Action → ProtocolState
  | .provision sessionId session answer =>
      s.provision sessionId { session with etagVersion := 1 } answer
  | .record sessionId session =>
      if .creating sessionId session ∈ s.calls then
        record { s with calls := s.calls.erase (.creating sessionId session) } sessionId session
      else s
  | .rollBack sessionId answer =>
      if .rollingBack sessionId ∈ s.calls then
        deleteAtNode { s with calls := s.calls.erase (.rollingBack sessionId) } sessionId answer
      else s
  | .patch roomId sessionId participant protocol ifMatch fragment =>
      match s.update with
      | some _ => s
      | none => (s.beginPatch roomId sessionId participant protocol ifMatch fragment).2
  | .post localUsernameFragment localPassword answer =>
      match s.update with
      | some (.checked sessionId previous remoteUsernameFragment remotePassword) =>
          s.postRestart sessionId previous
            ⟨localUsernameFragment, localPassword, remoteUsernameFragment, remotePassword⟩ answer
      | _ => s
  | .commit =>
      match s.update with
      | some (.posted sessionId previous credentials) =>
          s.commitRestart sessionId previous credentials
      | _ => s
  | .delete roomId sessionId participant protocol =>
      match s.authorizedProtocolSession roomId sessionId participant protocol with
      | .ok _ => { s with calls := .deleting sessionId ::ₘ s.calls }
      | .error _ => s
  | .cleanUp roomId participant =>
      { s with
        calls := Multiset.ofList ((s.sessionsOf roomId participant).map .deleting) + s.calls }
  | .deleteAtNode sessionId answer =>
      if .deleting sessionId ∈ s.calls then
        let s := { s with calls := s.calls.erase (.deleting sessionId) }
        let s := s.deleteAtNode sessionId answer
        if answer = .accepted then { s with calls := .deleted sessionId ::ₘ s.calls } else s
      else s
  | .forget sessionId =>
      if .deleted sessionId ∈ s.calls then
        { s with
          calls := s.calls.erase (.deleted sessionId)
          sessions := s.sessions.erase sessionId }
      else s
  -- the media node starts anew, or the room is placed on another one
  | .lose sessionId => { s with node := s.node.erase sessionId }

end ProtocolState

end Fluvora.ApiServer

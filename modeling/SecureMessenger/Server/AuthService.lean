import SecureMessenger.Server.Sql
import Mathlib.Data.Set.Function

/-!
# AuthService

Login, refresh, logout and device revocation of `auth/service.py`, and
`authenticate_access_token` of `auth/dependencies.py`.  Password and token
hashing come from libraries; they are fields of `Security`.
-/

namespace SecureMessenger
namespace Server

open Lib

/-- What the service uses of `auth/security.py` and its settings. -/
structure Security where
  hash_refresh_token : String → String
  verify_password : String → String → Bool
  /-- What `generate_refresh_token` can return. -/
  tokens : Set String
  /-- `timedelta(days=settings.refresh_token_ttl_days)`. -/
  refresh_token_ttl : Nat

/-- Different tokens have different hashes. -/
def Security.Distinct (sec : Security) : Prop :=
  Set.InjOn sec.hash_refresh_token sec.tokens

/-- `LoginRequest`. -/
structure LoginRequest where
  username : String
  password : String
  device_id : UUID
  device_name : String
deriving DecidableEq

/-- `AccessTokenClaims`. -/
structure AccessTokenClaims where
  user_id : UUID
  session_id : UUID
  device_id : UUID
deriving DecidableEq

/-- `is_session_active` at time `now`. -/
def is_session_active (now : Instant) (user : User) (device : Device)
    (auth_session : AuthSession) : Bool :=
  decide (user.status = "active") && device.revoked_at.isNone &&
    auth_session.revoked_at.isNone && auth_session.refresh_cookie_bound &&
    !decide (auth_session.refresh_expires_at ≤ now)

variable (sec : Security)

/-- `_authenticate_and_lock_user`. -/
def authenticate_and_lock_user (request : LoginRequest) : Session User := do
  match ← query (Db.userByName request.username) with
  | none => Prog.throw .invalidCredentials
  | some user =>
      if !(sec.verify_password request.password user.password_hash) then
        Prog.throw .invalidCredentials
      match ← selectLocked (fun u => .user u.id) .update (Db.userById user.id) with
      | none => Prog.throw .database
      | some user =>
          if user.status ≠ "active" then
            Prog.throw (.forbidden "account is not active")
          return user

/-- The rows of a new device. -/
def insertDevice (device : Device) (db : Db) : Db :=
  { db with
    devices := db.devices ++ [device]
    mailboxes := db.mailboxes ++ [{ device_id := device.id }] }

/-- `_register_or_update_device`. -/
def register_or_update_device (user : User) (request : LoginRequest) (now : Instant) :
    Session Device := do
  match ← query (Db.deviceById request.device_id) with
  | none =>
      let device : Device :=
        { id := request.device_id, user_id := user.id, name := request.device_name,
          last_seen_at := now }
      write (insertDevice device)
      match ← Prog.attempt flush with
      | .error .integrity =>
          rollback
          Prog.throw (.conflict "device identifier is already registered")
      | .error x => Prog.throw x
      | .ok () => return device
  | some device =>
      if device.user_id ≠ user.id then
        Prog.throw (.conflict "device identifier is already registered")
      if device.revoked_at.isSome then
        Prog.throw (.forbidden "device is revoked")
      lock (.device device.id) .update
      write (Db.updateDevice device.id fun d =>
        { d with name := request.device_name, last_seen_at := now })
      return device

/-- The session row of a login. -/
def insertSession (auth_session : AuthSession) (db : Db) : Db :=
  { db with sessions := db.sessions ++ [auth_session] }

/-- `login`. -/
def login (request : LoginRequest) : Session IssuedTokens := do
  let user ← authenticate_and_lock_user sec request
  let now ← utcNow
  let device ← register_or_update_device user request now
  let token ← generate_refresh_token
  let id ← uuid4
  let auth_session : AuthSession :=
    { id := id, device_id := device.id,
      refresh_token_hash := sec.hash_refresh_token token,
      last_used_at := now, refresh_expires_at := now + sec.refresh_token_ttl }
  write (insertSession auth_session)
  match ← Prog.attempt commit with
  | .error .integrity =>
      rollback
      Prog.throw (.conflict "device identifier is already registered")
  | .error x => Prog.throw x
  | .ok () =>
      return ⟨user.id, device.id, auth_session.id, token, auth_session.refresh_expires_at⟩

/-- `_lock_current_session`. -/
def lock_current_session (token_hash : String) : Session (Option AuthSession) :=
  selectLocked (fun s => .session s.id) .update (Db.sessionByHash token_hash)

/-- `_lock_consumed_session`. -/
def lock_consumed_session (token_hash : String) : Session (Option AuthSession) :=
  selectLocked (fun s => .session s.id) .update (Db.sessionByConsumed token_hash)

/-- `revoked_at` of one session. -/
def revokeSession (id : UUID) (now : Instant) : Db → Db :=
  Db.updateSessions (fun s => decide (s.id = id)) fun s => { s with revoked_at := some now }

/-- The rows a rotation writes. -/
def rotateSession (id device_id : UUID) (old_hash new_hash : String) (now : Instant)
    (db : Db) : Db :=
  { (Db.updateDevice device_id (fun d => { d with last_seen_at := now })
      (Db.updateSessions (fun s => decide (s.id = id))
        (fun s => { s with refresh_token_hash := new_hash, last_used_at := now }) db)) with
    tokenHistory := db.tokenHistory ++ [⟨old_hash, id, now⟩] }

/-- The branch of `refresh` for a token that is not current. -/
def refreshConsumed (refresh_token_hash : String) : Session IssuedTokens := do
  match ← lock_consumed_session refresh_token_hash with
  | none => Prog.throw .invalidCredentials
  | some reused_session =>
      if reused_session.revoked_at.isNone then
        let now ← utcNow
        write (revokeSession reused_session.id now)
      -- the revocation is kept although the request fails
      commit
      Prog.throw .refreshTokenReuse

/-- The branch of `refresh` for the current token of a locked session. -/
def refreshCurrent (refresh_token_hash : String) (auth_session : AuthSession) :
    Session IssuedTokens := do
  match ← query (Db.deviceById auth_session.device_id) with
  | none => Prog.throw .invalidCredentials
  | some device =>
      match ← query (Db.userById device.user_id) with
      | none => Prog.throw .invalidCredentials
      | some user =>
          let checked ← utcNow
          if !(is_session_active checked user device auth_session) then
            Prog.throw .invalidCredentials
          let now ← utcNow
          let rotated_token ← generate_refresh_token
          lock (.device device.id) .update
          write (rotateSession auth_session.id device.id refresh_token_hash
            (sec.hash_refresh_token rotated_token) now)
          commit
          return ⟨user.id, device.id, auth_session.id, rotated_token,
            auth_session.refresh_expires_at⟩

/-- `refresh`. -/
def refresh (refresh_token : String) : Session IssuedTokens := do
  let refresh_token_hash := sec.hash_refresh_token refresh_token
  match ← lock_current_session refresh_token_hash with
  | none => refreshConsumed refresh_token_hash
  | some auth_session =>
      if auth_session.refresh_token_hash ≠ refresh_token_hash then
        refreshConsumed refresh_token_hash
      else refreshCurrent sec refresh_token_hash auth_session

/-- The end of `logout`. -/
def logoutSession (auth_session : Option AuthSession) : Session Unit := do
  match auth_session with
  | none => commit
  | some auth_session =>
      if auth_session.revoked_at.isNone then
        let now ← utcNow
        write (revokeSession auth_session.id now)
      commit

/-- `logout`. -/
def logout (refresh_token : String) : Session Unit := do
  let refresh_token_hash := sec.hash_refresh_token refresh_token
  match ← lock_current_session refresh_token_hash with
  | some auth_session => logoutSession (some auth_session)
  | none => logoutSession (← lock_consumed_session refresh_token_hash)

/-- The rows a device revocation writes: the device and the sessions `ids`
that the update of the sessions has found. -/
def revokeDeviceRows (device_id : UUID) (ids : List UUID) (now : Instant) (db : Db) : Db :=
  Db.updateSessions
    (fun s => decide (s.id ∈ ids) && (decide (s.device_id = device_id) && s.revoked_at.isNone))
    (fun s => { s with revoked_at := some now })
    (Db.updateDevice device_id (fun d => { d with revoked_at := some now }) db)

/-- `revoke_device`. -/
def revoke_device (principal : Principal) (device_id : UUID) : Session Unit := do
  let _ ← selectLocked (fun u => .user u.id) .update (Db.userById principal.user_id)
  match ← query (fun db =>
      (db.deviceById device_id).filter fun d => decide (d.user_id = principal.user_id)) with
  | none => Prog.throw .notFound
  | some device =>
      if device.revoked_at.isNone then
        let now ← utcNow
        lock (.device device.id) .update
        -- the update of the sessions takes their locks first
        let ids ← query fun db => (db.sessions.filter fun s =>
          decide (s.device_id = device.id) && s.revoked_at.isNone).map (·.id)
        lockAll .update (ids.map .session)
        write (revokeDeviceRows device.id ids now)
        commit

/-- `authenticate_access_token`, after the token has been decoded. -/
def authenticate_access_token (claims : AccessTokenClaims) : Session Principal := do
  let row ← query fun db => do
    let auth_session ← db.sessionById claims.session_id
    let device ← db.deviceById auth_session.device_id
    let user ← db.userById device.user_id
    return (user, device, auth_session)
  match row with
  | none => Prog.throw .unauthorized
  | some (user, device, auth_session) =>
      let now ← utcNow
      if user.id ≠ claims.user_id ∨ device.id ≠ claims.device_id
          ∨ device.user_id ≠ claims.user_id ∨ auth_session.device_id ≠ claims.device_id
          ∨ is_session_active now user device auth_session = false then
        Prog.throw .unauthorized
      return ⟨claims.user_id, claims.device_id, claims.session_id⟩

end Server
end SecureMessenger

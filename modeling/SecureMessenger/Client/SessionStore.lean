import SecureMessenger.Client.Inbox
import SecureMessenger.Lib.Segment

/-!
# The session store

`auth/sessionStore.ts`: restoring, opening and closing the session of a client.
Its operations are asynchronous functions over the store and four variables.
What runs between two awaits is one `segment`, a function on the memory; a
segment that continues an operation names the operation's generation.

The memory also keeps a log of the gateway calls, of the settled revocations
and of the assignments to `devices`, and the thread that opened the current
generation.  The code never reads these.
-/

namespace SecureMessenger
namespace Client

open Lib

/-- `CurrentUser`. -/
structure CurrentUser extends User where
  deviceId : String
  sessionId : String
deriving DecidableEq

/-- `Device`. -/
structure Device where
  id : String
  name : String
  protocolVersion : Nat
  createdAt : String
  lastSeenAt : String
  revokedAt : Option Timestamp
  isCurrent : Bool
deriving DecidableEq

/-- `SessionState['phase']`. -/
inductive Phase
  | restoring
  | anonymous
  | authenticated
deriving DecidableEq

/-- The data of `SessionState`. -/
structure SessionState where
  phase : Phase := .restoring
  user : Option CurrentUser := none
  devices : List Device := []
  deviceIdentity : Option DeviceIdentity := none
  authError : Option String := none
  accountError : Option String := none
  submitting : Bool := false
  signingOut : Bool := false
  busyDeviceId : Option String := none
deriving DecidableEq

/-- The calls of the session store to its dependencies. -/
inductive SessionGateway
  | identitiesGet
  | identitiesReplace
  | register (username password : String)
  | login (username password : String) (device : DeviceIdentity)
  | restoreSession
  | logout
  | getCurrentUser
  | getDevices
  | revokeDevice (deviceId : String)
  | prepareInbox (user : CurrentUser)
deriving DecidableEq

/-- What a call resolves to. -/
def SessionGateway.Reply : SessionGateway → Type
  | .identitiesGet => DeviceIdentity
  | .identitiesReplace => DeviceIdentity
  | .register _ _ => User
  | .login _ _ _ => Unit
  | .restoreSession => Bool
  | .logout => Unit
  | .getCurrentUser => CurrentUser
  | .getDevices => List Device
  | .revokeDevice _ => Unit
  | .prepareInbox _ => Unit

/-- What the log records. -/
inductive SessionEvent
  /-- A call with this number was made. -/
  | started (call : Nat) (g : SessionGateway)
  /-- A call was answered. -/
  | resolved (call : Nat) (g : SessionGateway) (reply : g.Reply)
  /-- `revokeDevice` of another device completed while its generation was current. -/
  | revoked (generation : Nat)
  /-- `devices` was set to the answer of a `getDevices` call. -/
  | devicesSet (generation : Nat) (call : Nat) (devices : List Device)

/-- The store, the variables of `createSessionStore` and the log, newest event
first. -/
structure SessionMemory where
  store : SessionState := {}
  active : Bool := false
  generation : Nat := 0
  devicesRevision : Nat := 0
  /-- `unsubscribe` is set. -/
  subscribed : Bool := false
  /-- The thread that opened the current generation. -/
  owner : Tid := 0
  /-- How many gateway calls have been made. -/
  calls : Nat := 0
  log : List SessionEvent := []

/-- What the session store awaits. -/
inductive SessionPromise
  | response (g : SessionGateway) (call : Nat)
  /-- `Promise.all([getCurrentUser(), getDevices()])`. -/
  | loaded (userCall devicesCall : Nat)

/-- What a promise resolves to. -/
def SessionPromise.Reply : SessionPromise → Type
  | .response g _ => g.Reply
  | .loaded _ _ => CurrentUser × List Device

/-- Segments and promises of the session store. -/
abbrev SessionCall := Segmented Nat SessionMemory SessionPromise

/-- Answers of the calls. -/
abbrev SessionCall.Answer : SessionCall → Type :=
  Segmented.Answer JsError SessionPromise.Reply

/-- Functions of the session store. -/
abbrev SessionProg := Prog SessionCall SessionCall.Answer JsError

/-- Await a call that has been made. -/
def settled (g : SessionGateway) (call : Nat) : SessionProg g.Reply :=
  awaits (SessionPromise.response g call)

/-- Await `Promise.all` of the two calls of `loadAccount`. -/
def loadedAccount (userCall devicesCall : Nat) : SessionProg (CurrentUser × List Device) :=
  awaits (SessionPromise.loaded userCall devicesCall)

/-- `errorMessage`. -/
def errorMessage : JsError → String
  | .error message => message
  | .client message _ => message

/-- `String.prototype.trim`. -/
def trim (s : String) : String :=
  String.ofList ((s.toList.dropWhile isSpace).reverse.dropWhile isSpace).reverse

namespace SessionMemory

/-- `set`. -/
def set (f : SessionState → SessionState) (m : SessionMemory) : SessionMemory :=
  { m with store := f m.store }

/-- `isCurrent`. -/
def isCurrent (operation : Nat) (m : SessionMemory) : Bool :=
  m.active && decide (operation = m.generation)

/-- Make a gateway call. -/
def startCall (g : SessionGateway) (m : SessionMemory) : Nat × SessionMemory :=
  (m.calls, { m with calls := m.calls + 1, log := .started m.calls g :: m.log })

/-- `++generation` in thread `t`. -/
def newGeneration (t : Tid) (m : SessionMemory) : SessionMemory :=
  { m with generation := m.generation + 1, owner := t }

/-- `clearAuthenticatedState`. -/
def clearAuthenticatedState (t : Tid) (authError : Option String) (m : SessionMemory) :
    SessionMemory :=
  (m.newGeneration t).set fun st =>
    { st with
      phase := .anonymous
      user := none
      devices := []
      authError := authError
      accountError := none
      submitting := false
      signingOut := false
      busyDeviceId := none }

/-- A segment that does nothing once its operation is superseded. -/
def whenCurrent {α : Type} (operation : Nat) (stale : α)
    (f : SessionMemory → α × SessionMemory) (m : SessionMemory) : α × SessionMemory :=
  if m.isCurrent operation then f m else (stale, m)

end SessionMemory

open SessionMemory

/-- How `loadAccount` goes on when the account is there. -/
inductive AccountStep
  | superseded
  | mismatch (logoutCall : Nat)
  | prepare (call : Option Nat)

/-- The continuation of `loadAccount` with the account. -/
def checkAccount (prepares : Bool) (operation : Nat) (user : CurrentUser) :
    SessionMemory → AccountStep × SessionMemory :=
  whenCurrent operation .superseded fun m =>
    if m.store.deviceIdentity.map DeviceIdentity.id ≠ some user.deviceId then
      let (call, m) := m.startCall .logout
      (.mismatch call, m)
    else if prepares then
      let (call, m) := m.startCall (.prepareInbox user)
      (.prepare (some call), m)
    else (.prepare none, m)

/-- The last segment of `loadAccount`. -/
def finishAccount (operation : Nat) (user : CurrentUser) (devices : List Device)
    (devicesCall : Nat) : SessionMemory → Unit × SessionMemory :=
  whenCurrent operation () fun m =>
    ((), { m with
      store := { m.store with
        user := some user
        devices := devices
        authError := none
        phase := .authenticated }
      log := .devicesSet operation devicesCall devices :: m.log })

/-- `loadAccount`; `prepares` says whether `prepareInbox` is given. -/
def loadAccount (prepares : Bool) (operation : Nat) : SessionProg Unit := do
  let (userCall, devicesCall) ← segment (some operation) fun m =>
    let (userCall, m) := m.startCall .getCurrentUser
    let (devicesCall, m) := m.startCall .getDevices
    ((userCall, devicesCall), m)
  let (user, devices) ← loadedAccount userCall devicesCall
  match ← segment (some operation) (checkAccount prepares operation user) with
  | .superseded => return
  | .mismatch call =>
      settled .logout call
      Prog.throw (.error
        "Local message storage changed. Please sign in again to register this device.")
  | .prepare none =>
      segment (some operation) (finishAccount operation user devices devicesCall)
  | .prepare (some call) =>
      settled (.prepareInbox user) call
      segment (some operation) (finishAccount operation user devices devicesCall)

/-- Store a device identity and log in with it. -/
def useIdentity (username password : String) (operation : Nat) (device : DeviceIdentity) :
    SessionMemory → Option Nat × SessionMemory :=
  whenCurrent operation none fun m =>
    let (call, m) := (m.set fun st => { st with deviceIdentity := some device }).startCall
      (.login username password device)
    (some call, m)

/-- How `loginWithDeviceReplacement` goes on after a failed login. -/
inductive LoginFailure
  | superseded
  | rethrow
  | replace (call : Nat)

/-- The `catch` of `loginWithDeviceReplacement`. -/
def handleLoginFailure (operation : Nat) (error : JsError) :
    SessionMemory → LoginFailure × SessionMemory :=
  whenCurrent operation .superseded fun m =>
    match error with
    | .client _ .device_revoked =>
        let (call, m) := m.startCall .identitiesReplace
        (.replace call, m)
    | _ => (.rethrow, m)

/-- `loginWithDeviceReplacement`. -/
def loginWithDeviceReplacement (username password : String) (operation : Nat) :
    SessionProg Unit := do
  let call ← segment (some operation) (startCall .identitiesGet)
  let device ← settled .identitiesGet call
  match ← segment (some operation) (useIdentity username password operation device) with
  | none => return
  | some call =>
      match ← Prog.attempt (settled (.login username password device) call) with
      | .ok _ => return
      | .error error =>
          match ← segment (some operation) (handleLoginFailure operation error) with
          | .superseded => return
          | .rethrow => Prog.throw error
          | .replace call =>
              let replacement ← settled .identitiesReplace call
              match ← segment (some operation)
                  (useIdentity username password operation replacement) with
              | none => return
              | some call => settled (.login username password replacement) call

/-- The first segment of `authenticate`. -/
def beginAuthenticate (t : Tid) (m : SessionMemory) : Option Nat × SessionMemory :=
  if !m.active || decide (m.store.phase ≠ .anonymous) || m.store.submitting
      || m.store.signingOut then (none, m)
  else
    (some (m.generation + 1),
      (m.newGeneration t).set fun st => { st with submitting := true, authError := none })

/-- The `catch` and the `finally` of `authenticate`, and what it returns. -/
def finishAuthenticate (operation : Nat) (error : Option JsError) (registered : Bool) :
    SessionMemory → Bool × SessionMemory :=
  whenCurrent operation false fun m =>
    (registered, m.set fun st =>
      { st with
        authError := (error.map errorMessage).or st.authError
        submitting := false })

/-- The `try` of `authenticate` after the registration. -/
def signIn (prepares : Bool) (username password : String) (operation : Nat) :
    SessionProg Unit := do
  loginWithDeviceReplacement username password operation
  if !(← segment (some operation) fun m => (m.isCurrent operation, m)) then return
  loadAccount prepares operation

/-- `authenticate`. -/
def authenticate (prepares : Bool) (t : Tid) (username password : String)
    (registering : Bool) : SessionProg Bool := do
  match ← segment none (beginAuthenticate t) with
  | none => return false
  | some operation =>
      let name := trim username
      if registering then
        let call ← segment (some operation) (startCall (.register name password))
        match ← Prog.attempt (settled (.register name password) call) with
        | .error error => segment (some operation) (finishAuthenticate operation (some error) false)
        | .ok _ =>
            if !(← segment (some operation) fun m => (m.isCurrent operation, m)) then
              segment (some operation) (finishAuthenticate operation none false)
            else
              match ← Prog.attempt (signIn prepares name password operation) with
              | .error error =>
                  segment (some operation) (finishAuthenticate operation (some error) true)
              | .ok _ => segment (some operation) (finishAuthenticate operation none true)
      else
        match ← Prog.attempt (signIn prepares name password operation) with
        | .error error =>
            segment (some operation) (finishAuthenticate operation (some error) false)
        | .ok _ => segment (some operation) (finishAuthenticate operation none false)

/-- The first segment of `signOut`: its generation and its `logout` call. -/
def beginSignOut (t : Tid) (m : SessionMemory) : Option (Nat × Nat) × SessionMemory :=
  if !m.active || m.store.signingOut then (none, m)
  else
    let (call, m) := ((m.newGeneration t).set fun st =>
      { st with
        signingOut := true
        submitting := false
        busyDeviceId := none
        accountError := none }).startCall .logout
    (some (m.generation, call), m)

/-- The warning of a `signOut` whose `logout` failed. -/
def signOutWarning (revoked : Bool) (error : JsError) : String :=
  if revoked then
    "Device revoked, but its browser cookie could not be cleared: " ++ errorMessage error
  else
    "The server could not confirm sign-out. Reconnect and sign out again: " ++ errorMessage error

/-- `signOut` from its first `await` on. -/
def awaitSignOut (t : Tid) (revoked : Bool) (operation call : Nat) : SessionProg Unit := do
  let warning : Option String ←
    match ← Prog.attempt (settled .logout call) with
    | .ok _ => pure none
    | .error error => pure (some (signOutWarning revoked error))
  segment (some operation) (whenCurrent operation () fun m =>
    ((), m.clearAuthenticatedState t warning))

/-- `logout`. -/
def logout (t : Tid) : SessionProg Unit := do
  match ← segment none (beginSignOut t) with
  | none => return
  | some (operation, call) => awaitSignOut t false operation call

/-- The first segment of `restore`: its generation and its first call. -/
def beginRestore (t : Tid) (m : SessionMemory) : (Nat × Nat) × SessionMemory :=
  let (call, m) := (({ m with active := true, subscribed := true }.newGeneration t).set fun st =>
    { st with
      phase := .restoring
      user := none
      devices := []
      authError := none
      accountError := none
      submitting := false
      signingOut := false
      busyDeviceId := none }).startCall .identitiesGet
  ((m.generation, call), m)

/-- `restore` stores the identity. -/
def restoreIdentity (operation : Nat) (device : DeviceIdentity) :
    SessionMemory → Option Nat × SessionMemory :=
  whenCurrent operation none fun m =>
    let (call, m) := (m.set fun st => { st with deviceIdentity := some device }).startCall
      .restoreSession
    (some call, m)

/-- `restore` with the answer of `restoreSession`: whether to load the account. -/
def restoreAnswer (t : Tid) (operation : Nat) (restored : Bool) :
    SessionMemory → Bool × SessionMemory :=
  whenCurrent operation false fun m =>
    if restored then (true, m) else (false, m.clearAuthenticatedState t none)

/-- The `try` of `restore`. -/
def restoreSession (prepares : Bool) (t : Tid) (operation call : Nat) : SessionProg Unit := do
  let device ← settled .identitiesGet call
  match ← segment (some operation) (restoreIdentity operation device) with
  | none => return
  | some call =>
      let restored ← settled .restoreSession call
      if ← segment (some operation) (restoreAnswer t operation restored) then
        loadAccount prepares operation

/-- `restore`. -/
def restore (prepares : Bool) (t : Tid) : SessionProg Unit := do
  let (operation, call) ← segment none (beginRestore t)
  match ← Prog.attempt (restoreSession prepares t operation call) with
  | .ok _ => return
  | .error error =>
      segment (some operation) (whenCurrent operation () fun m =>
        ((), m.clearAuthenticatedState t (some (errorMessage error))))

/-- The first segment of `refreshDevices`: generation, revision and call. -/
def beginRefresh (m : SessionMemory) : Option (Nat × Nat × Nat) × SessionMemory :=
  if !m.active || decide (m.store.phase ≠ .authenticated) || m.store.signingOut then (none, m)
  else
    let (call, m) := ({ m with devicesRevision := m.devicesRevision + 1 }.set fun st =>
      { st with accountError := none }).startCall .getDevices
    (some (m.generation, m.devicesRevision, call), m)

/-- The last segment of `refreshDevices`. -/
def finishRefresh (operation revision call : Nat) (answer : Except JsError (List Device)) :
    SessionMemory → Unit × SessionMemory :=
  whenCurrent operation () fun m =>
    if revision = m.devicesRevision then
      match answer with
      | .ok devices =>
          ((), { m with
            store := { m.store with devices := devices }
            log := .devicesSet operation call devices :: m.log })
      | .error error => ((), m.set fun st => { st with accountError := some (errorMessage error) })
    else ((), m)

/-- `refreshDevices` from its `await` on. -/
def awaitRefresh (operation revision call : Nat) : SessionProg Unit := do
  let answer ← Prog.attempt (settled .getDevices call)
  segment (some operation) (finishRefresh operation revision call answer)

/-- `refreshDevices`. -/
def refreshDevices : SessionProg Unit := do
  match ← segment none beginRefresh with
  | none => return
  | some (operation, revision, call) => awaitRefresh operation revision call

/-- The first segment of `revokeDevice`: generation, device and call. -/
def beginRevoke (deviceId : String) (m : SessionMemory) :
    Option (Nat × Device × Nat) × SessionMemory :=
  if !m.active || decide (m.store.phase ≠ .authenticated)
      || m.store.busyDeviceId.any (fun id => decide (id ≠ "")) || m.store.signingOut then (none, m)
  else
    match m.store.devices.find? (fun candidate => decide (candidate.id = deviceId)) with
    | none => (none, m)
    | some device =>
        if device.revokedAt.isSome then (none, m)
        else
          let (call, m) := ({ m with devicesRevision := m.devicesRevision + 1 }.set fun st =>
            { st with accountError := none, busyDeviceId := some deviceId }).startCall
              (.revokeDevice deviceId)
          (some (m.generation, device, call), m)

/-- How `revokeDevice` goes on after the revocation. -/
inductive AfterRevoke
  | stop
  | signOut (operation call : Nat)
  | refresh (operation revision call : Nat)

/-- `revokeDevice` right after the revocation, up to the next `await`. -/
def afterRevoke (t : Tid) (operation : Nat) (device : Device) :
    SessionMemory → AfterRevoke × SessionMemory :=
  whenCurrent operation .stop fun m =>
    if device.isCurrent then
      match beginSignOut t m with
      | (none, m) => (.stop, m)
      | (some (operation, call), m) => (.signOut operation call, m)
    else
      match beginRefresh { m with log := .revoked operation :: m.log } with
      | (none, m) => (.stop, m)
      | (some (operation, revision, call), m) => (.refresh operation revision call, m)

/-- The `try` of `revokeDevice`. -/
def revoke (t : Tid) (deviceId : String) (operation : Nat) (device : Device) (call : Nat) :
    SessionProg Unit := do
  settled (.revokeDevice deviceId) call
  match ← segment (some operation) (afterRevoke t operation device) with
  | .stop => return
  | .signOut operation call => awaitSignOut t true operation call
  | .refresh operation revision call => awaitRefresh operation revision call

/-- The `catch` and the `finally` of `revokeDevice`. -/
def finishRevoke (operation : Nat) (error : Option JsError) :
    SessionMemory → Unit × SessionMemory :=
  whenCurrent operation () fun m =>
    ((), m.set fun st =>
      { st with
        accountError := (error.map errorMessage).or st.accountError
        busyDeviceId := none })

/-- `revokeDevice`. -/
def revokeDevice (t : Tid) (deviceId : String) : SessionProg Unit := do
  match ← segment none (beginRevoke deviceId) with
  | none => return
  | some (operation, device, call) =>
      match ← Prog.attempt (revoke t deviceId operation device call) with
      | .ok _ => segment (some operation) (finishRevoke operation none)
      | .error error => segment (some operation) (finishRevoke operation (some error))

/-- `clearAuthError`. -/
def clearAuthError (m : SessionMemory) : Unit × SessionMemory :=
  ((), m.set fun st => { st with authError := none })

/-- `dispose`. -/
def disposeSession (t : Tid) (m : SessionMemory) : Unit × SessionMemory :=
  ((), { m.newGeneration t with active := false, subscribed := false })

/-- The handler of `onSessionExpired`. -/
def sessionExpired (t : Tid) (m : SessionMemory) : Unit × SessionMemory :=
  if m.subscribed && m.active then
    ((), m.clearAuthenticatedState t (some "Your session has ended. Please sign in again."))
  else ((), m)

/-- What is called from outside. -/
inductive SessionOp
  | restore
  | login (username password : String)
  | register (username password : String)
  | refreshDevices
  | revokeDevice (deviceId : String)
  | logout
  | clearAuthError
  | dispose
  | sessionExpired

/-- The program of a call from outside. -/
def SessionOp.prog (prepares : Bool) (t : Tid) : SessionOp → SessionProg Unit
  | .restore => Client.restore prepares t
  | .login username password => do
      let _ ← authenticate prepares t username password false
  | .register username password => do
      let _ ← authenticate prepares t username password true
  | .refreshDevices => Client.refreshDevices
  | .revokeDevice deviceId => Client.revokeDevice t deviceId
  | .logout => Client.logout t
  | .clearAuthError => segment none Client.clearAuthError
  | .dispose => segment none (disposeSession t)
  | .sessionExpired => segment none (Client.sessionExpired t)

/-- Promises settle in any order with any outcome. -/
def SessionPromise.settles :
    (g : SessionPromise) → SessionMemory → Except JsError g.Reply → SessionMemory → Prop
  | .response g call, m, r, m' =>
      match r with
      | .ok reply => m' = { m with log := .resolved call g reply :: m.log }
      | .error _ => m' = m
  | .loaded userCall devicesCall, m, r, m' =>
      match r with
      | .ok (user, devices) =>
          m' = { m with
            log := .resolved devicesCall .getDevices devices ::
              .resolved userCall .getCurrentUser user :: m.log }
      | .error _ => m' = m

/-- The session store with any calls from outside at any time. -/
def sessionSystem (prepares : Bool) :
    System SessionCall SessionCall.Answer JsError SessionMemory SessionOp where
  exec := Segmented.exec SessionPromise.settles
  prog t op := op.prog prepares t
  start _ _ m m' := m' = m
  stop _ _ _ := False
  env _ _ := False

end Client
end SecureMessenger

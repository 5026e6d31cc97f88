import SecureMessenger.Lib.Segment
import Mathlib.Data.List.Basic

/-!
# The API client

`web/src/shared/api/client.ts`: access tokens, their refreshes and the requests
that carry them.  `sessionRevision` counts how often the session has been
cleared or replaced.

A segment in which `authenticatedRequest` goes on after it awaited
`refreshAccessToken` says so, with the revision at which the method was called.
The memory also keeps the revision under which the access token was accepted and
the fetches of authenticated requests.  The code never reads these.
-/

namespace SecureMessenger
namespace Client

open Lib

/-- `ApiError`, as far as the client reads it. -/
structure ApiError where
  message : String
  status : Nat
deriving DecidableEq

/-- `TokenResponse`; `mapTokens` rejects an empty token. -/
structure TokenResponse where
  access_token : String
  expires_in : Nat
  nonempty : access_token ≠ ""

/-- A fetch of `authenticatedRequest`. -/
structure Fetch where
  path : String
  /-- `sessionRevision` when the method was called. -/
  calledUnder : Nat
  /-- The access token it carries and the revision under which it was accepted. -/
  token : Option (String × Nat)
deriving DecidableEq

/-- A running `refreshAccessToken`. -/
structure Refresh where
  number : Nat
  sessionRevision : Nat
  notifyOnFailure : Bool

/-- What a timer does when it fires: the planned refresh, or its one retry. -/
inductive TimerKind
  | refresh
  | retry

/-- The fields of `ApiClient` and the lock of `navigator.locks`. -/
structure ApiMemory where
  accessToken : Option String := none
  sessionRevision : Nat := 0
  /-- The number of the refresh in `refreshPromise`. -/
  refreshPromise : Option Nat := none
  refreshTimer : Option Nat := none
  /-- Refreshes that have been begun and not been taken up. -/
  refreshes : List Refresh := []
  nextRefresh : Nat := 0
  /-- Outcomes of the refreshes that have settled. -/
  settled : List (Nat × Except ApiError Unit) := []
  /-- Timers that have not fired. -/
  timers : List (Nat × TimerKind) := []
  nextTimer : Nat := 0
  /-- The cookie lock is held. -/
  locked : Bool := false
  acceptedUnder : Nat := 0
  fetches : List Fetch := []

/-- What the client awaits. -/
inductive ApiPromise
  /-- The cookie lock is granted. -/
  | lock
  /-- `POST /auth/login`. -/
  | loginTokens
  /-- `POST /auth/refresh`. -/
  | refreshTokens
  /-- `POST /auth/logout`. -/
  | loggedOut
  /-- The refresh with this number settles. -/
  | refreshed (number : Nat)
  /-- The response to an authenticated request. -/
  | response (path : String)

/-- What a promise resolves to. -/
def ApiPromise.Reply : ApiPromise → Type
  | .lock => Unit
  | .loginTokens => TokenResponse
  | .refreshTokens => TokenResponse
  | .loggedOut => Unit
  | .refreshed _ => Unit
  | .response _ => Unit

/-- How `authenticatedRequest` goes on after a refresh. -/
inductive GoesOn
  /-- It makes the request. -/
  | fetches (calledUnder : Nat)
  /-- It begins again, after a 401. -/
  | retries (calledUnder : Nat)
deriving DecidableEq

/-- Segments and promises of the client. -/
abbrev ApiCall := Segmented GoesOn ApiMemory ApiPromise

/-- Answers of the calls. -/
abbrev ApiCall.Answer : ApiCall → Type :=
  Segmented.Answer ApiError ApiPromise.Reply

/-- Methods of the client. -/
abbrev ApiProg := Prog ApiCall ApiCall.Answer ApiError

/-- `'Your session has ended. Please sign in again.'`. -/
def sessionEnded : ApiError :=
  ⟨"Your session has ended. Please sign in again.", 401⟩

namespace ApiMemory

/-- `scheduleRefresh` and the retry after a failed refresh. -/
def setTimer (kind : TimerKind) (m : ApiMemory) : ApiMemory :=
  { m with
    refreshTimer := some m.nextTimer
    nextTimer := m.nextTimer + 1
    timers := m.timers ++ [(m.nextTimer, kind)] }

/-- `window.clearTimeout(this.refreshTimer)`. -/
def clearTimer (m : ApiMemory) : ApiMemory :=
  { m with timers := m.timers.filter fun timer => decide (m.refreshTimer ≠ some timer.1) }

/-- `acceptTokens`. -/
def acceptTokens (tokens : TokenResponse) (m : ApiMemory) : ApiMemory :=
  { m with
    accessToken := some tokens.access_token
    acceptedUnder := m.sessionRevision }.clearTimer.setTimer .refresh

/-- `clearSession`, up to its handlers. -/
def clearSession (m : ApiMemory) : ApiMemory :=
  { m.clearTimer with
    sessionRevision := m.sessionRevision + 1
    accessToken := none
    refreshTimer := none }

/-- `refreshAccessToken`: the number of the promise it returns. -/
def refreshAccessToken (notifyOnFailure : Bool) (m : ApiMemory) : Nat × ApiMemory :=
  match m.refreshPromise with
  | some number => (number, m)
  | none =>
      (m.nextRefresh,
        { m with
          refreshPromise := some m.nextRefresh
          nextRefresh := m.nextRefresh + 1
          refreshes := m.refreshes ++ [⟨m.nextRefresh, m.sessionRevision, notifyOnFailure⟩] })

/-- `request` of `authenticatedRequest`, with the token that `headers` puts in. -/
def fetch (path : String) (calledUnder : Nat) (m : ApiMemory) : ApiMemory :=
  { m with
    fetches := ⟨path, calledUnder, m.accessToken.map fun token => (token, m.acceptedUnder)⟩ ::
      m.fetches }

/-- The beginning of `authenticatedRequest`: the fetch, or the refresh to wait
for. -/
def beginRequest (path : String) (calledUnder : Nat) (m : ApiMemory) : Option Nat × ApiMemory :=
  match m.accessToken with
  | some _ => (none, m.fetch path calledUnder)
  | none =>
      let (number, m) := m.refreshAccessToken true
      (some number, m)

end ApiMemory

open ApiMemory

/-- `withRefreshCookieLock`. -/
def withRefreshCookieLock {α : Type} (operation : ApiProg α) : ApiProg α := do
  awaits ApiPromise.lock
  let outcome ← Prog.attempt operation
  segment none fun m => ((), { m with locked := false })
  Prog.ofExcept outcome

/-- The promise that `refreshAccessToken` stores. -/
def runRefresh (refresh : Refresh) : ApiProg Unit := do
  let outcome : Except ApiError Unit ←
    match ← Prog.attempt (withRefreshCookieLock (awaits ApiPromise.refreshTokens)) with
    | .ok tokens =>
        segment none fun (m : ApiMemory) =>
          if refresh.sessionRevision = m.sessionRevision then (.ok (), m.acceptTokens tokens)
          else (.ok (), m)
    | .error error =>
        segment none fun (m : ApiMemory) =>
          if refresh.sessionRevision ≠ m.sessionRevision then (.ok (), m)
          else if 400 ≤ error.status ∧ error.status < 500 then (.error error, m.clearSession)
          else (.error error, m)
  segment none fun m =>
    ((), { m with
      refreshPromise := none
      settled := (refresh.number, outcome) :: m.settled })

/-- Await a refresh. -/
def refreshed (number : Nat) : ApiProg Unit :=
  awaits (ApiPromise.refreshed number)

/-- `authenticatedRequest` up to the response, when it has begun. -/
def fetchAfterRefresh (path : String) (calledUnder : Nat) : Option Nat → ApiProg Unit
  | none => return
  | some number => do
      refreshed number
      segment (some (.fetches calledUnder)) fun m => ((), m.fetch path calledUnder)

/-- The response to a fetch. -/
def fetched (path : String) : ApiProg (Except ApiError Unit) :=
  Prog.attempt (awaits (ApiPromise.response path))

/-- `authenticatedRequest`. -/
def authenticatedRequest (path : String) : ApiProg Unit := do
  let (calledUnder, waiting) ← segment none fun (m : ApiMemory) =>
    ((m.sessionRevision, (m.beginRequest path m.sessionRevision).1),
      (m.beginRequest path m.sessionRevision).2)
  fetchAfterRefresh path calledUnder waiting
  match ← fetched path with
  | .ok _ => return
  | .error error =>
      if error.status ≠ 401 then Prog.throw error
      else
        let number ← segment none (ApiMemory.refreshAccessToken true)
        refreshed number
        let waiting ← segment (some (.retries calledUnder))
          (ApiMemory.beginRequest path calledUnder)
        fetchAfterRefresh path calledUnder waiting
        match ← fetched path with
        | .ok _ => return
        | .error error =>
            if error.status ≠ 401 then Prog.throw error
            else
              segment none fun m => ((), m.clearSession)
              Prog.throw error

/-- `getAccessToken`. -/
def getAccessToken (refresh : Bool) : ApiProg Unit := do
  let (revision, waiting) ← segment none fun (m : ApiMemory) =>
    if refresh || m.accessToken.isNone then
      ((m.sessionRevision, some (m.refreshAccessToken true).1), (m.refreshAccessToken true).2)
    else ((m.sessionRevision, none), m)
  match waiting with
  | none => pure ()
  | some number => refreshed number
  let valid ← segment none fun (m : ApiMemory) =>
    (decide (revision = m.sessionRevision) && m.accessToken.isSome, m)
  if valid then return else Prog.throw sessionEnded

/-- The operation of `login` under the lock. -/
def exchangeCredentials (revision : Nat) : ApiProg Unit := do
  let current ← segment none fun (m : ApiMemory) => (decide (revision = m.sessionRevision), m)
  if current then
    let tokens : TokenResponse ← awaits ApiPromise.loginTokens
    let accepted ← segment none fun (m : ApiMemory) =>
      if revision = m.sessionRevision then (true, m.clearSession.acceptTokens tokens)
      else (false, m)
    if accepted then return else Prog.throw sessionEnded
  else Prog.throw sessionEnded

/-- `login`. -/
def ApiClient.login : ApiProg Unit := do
  let revision ← segment none fun (m : ApiMemory) => (m.sessionRevision, m)
  withRefreshCookieLock (exchangeCredentials revision)

/-- `restoreSession`. -/
def ApiClient.restoreSession : ApiProg Unit := do
  let number ← segment none (ApiMemory.refreshAccessToken false)
  match ← Prog.attempt (refreshed number) with
  | .ok _ => return
  | .error error => if error.status = 401 then return else Prog.throw error

/-- `logout`. -/
def ApiClient.logout : ApiProg Unit := do
  segment none fun m => ((), m.clearSession)
  withRefreshCookieLock (awaits ApiPromise.loggedOut)

/-- What a timer does. -/
def timerFired : TimerKind → ApiProg Unit
  | .refresh => do
      let number ← segment none (ApiMemory.refreshAccessToken true)
      match ← Prog.attempt (refreshed number) with
      | .ok _ => return
      | .error error =>
          segment none fun (m : ApiMemory) =>
            if m.accessToken.isSome ∧ (error.status = 0 ∨ 500 ≤ error.status) then
              ((), m.setTimer .retry)
            else ((), m)
  | .retry => do
      let number ← segment none (ApiMemory.refreshAccessToken true)
      match ← Prog.attempt (refreshed number) with
      | .ok _ => return
      | .error _ => return

/-- What can begin at any time. -/
inductive ApiOp
  | request (path : String)
  | getAccessToken (force : Bool)
  | login
  | restoreSession
  | logout
  /-- The promise of a refresh that has been begun. -/
  | refresh (begun : Refresh)
  | timer (number : Nat) (kind : TimerKind)

/-- The program of a call. -/
def ApiOp.prog (_ : Tid) : ApiOp → ApiProg Unit
  | .request path => authenticatedRequest path
  | .getAccessToken force => Client.getAccessToken force
  | .login => ApiClient.login
  | .restoreSession => ApiClient.restoreSession
  | .logout => ApiClient.logout
  | .refresh begun => runRefresh begun
  | .timer _ kind => timerFired kind

/-- Responses come in any order with any outcome; the lock is granted when it is
free, or the wait for it times out. -/
def ApiPromise.settles :
    (g : ApiPromise) → ApiMemory → Except ApiError g.Reply → ApiMemory → Prop
  | .lock, m, answer, m' =>
      match answer with
      | .ok _ => m.locked = false ∧ m' = { m with locked := true }
      | .error error =>
          error = ⟨"Session refresh is busy. Please try again.", 0⟩ ∧ m' = m
  | .refreshed number, m, answer, m' => (number, answer) ∈ m.settled ∧ m' = m
  | _, m, _, m' => m' = m

/-- The API client with any calls from outside at any time. -/
def apiSystem : System ApiCall ApiCall.Answer ApiError ApiMemory ApiOp where
  exec := Segmented.exec ApiPromise.settles
  prog t op := op.prog t
  start _ op m m' :=
    match op with
    | .refresh begun => ∃ before after, m.refreshes = before ++ begun :: after ∧
        m' = { m with refreshes := before ++ after }
    | .timer number kind => ∃ before after, m.timers = before ++ (number, kind) :: after ∧
        m' = { m with timers := before ++ after }
    | _ => m' = m
  stop _ _ _ := False
  env _ _ := False

end Client
end SecureMessenger

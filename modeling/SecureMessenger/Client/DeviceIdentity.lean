import SecureMessenger.Client.InboxOperations
import SecureMessenger.Lib.Pool
import Mathlib.Data.List.Infix

/-!
# The device identity

`client-core/src/auth/deviceIdentity.ts` over the durable inbox, with the ports
that `main.tsx` passes it.  The tabs share one database; each has its own
`DeviceIdentityService` and its own `IndexedDBDurableInbox`, which remembers the
generation that it has observed last.
-/

namespace SecureMessenger
namespace Client
namespace Device

open Lib

abbrev TabId := Nat

/-! ## Ports -/

/-- `String.prototype.includes`. -/
def includes (s part : String) : Bool :=
  decide (part.toList <:+: s.toList)

/-- `browserName`. -/
def browserName (userAgent : String) : String :=
  if includes userAgent "Edg/" then "Edge"
  else if includes userAgent "Firefox/" then "Firefox"
  else if includes userAgent "Chrome/" then "Chrome"
  else if includes userAgent "Safari/" then "Safari"
  else "Browser"

/-- `operatingSystem`. -/
def operatingSystem (userAgent : String) : String :=
  if includes userAgent "Windows" then "Windows"
  else if includes userAgent "Android" then "Android"
  else if includes userAgent "iPhone" || includes userAgent "iPad" then "iOS"
  else if includes userAgent "Mac OS" then "macOS"
  else if includes userAgent "Linux" then "Linux"
  else "Unknown device"

/-- `browserDeviceDescription`. -/
def browserDeviceDescription (userAgent : String) : String :=
  operatingSystem userAgent ++ " · " ++ browserName userAgent

/-! ## Calls -/

/-- The methods of `DeviceIdentityService`. -/
inductive Method
  | get
  | replace
deriving DecidableEq

/-- What an operation awaits, reads or sets. -/
inductive DeviceCall
  /-- The earlier operations of the tab have settled. -/
  | turn (tab : TabId)
  /-- The promise of the operation settles. -/
  | settle (tab : TabId) (result : Except JsError DeviceIdentity)
  /-- The transaction of `read`. -/
  | read
  /-- The transaction of `write`. -/
  | write (expected : Option String) (generation : String) (device : DeviceIdentity)
  /-- The field `observedGeneration` is read. -/
  | observed (tab : TabId)
  | observe (tab : TabId) (generation : Option String)
  /-- `crypto.randomUUID`. -/
  | randomUUID
  /-- `navigator.userAgent`. -/
  | userAgent

/-- What a call answers. -/
def DeviceCall.Answer : DeviceCall → Type
  | .turn _ | .settle _ _ | .observe _ _ => Unit
  | .read => Except JsError (Option DurableDeviceIdentity)
  | .write _ _ _ => Except JsError Unit
  | .observed _ => Option String
  | .randomUUID | .userAgent => String

abbrev DeviceProg := Prog DeviceCall DeviceCall.Answer JsError

/-- `IndexedDBDurableInbox.read`. -/
def readIdentity (tab : TabId) : DeviceProg (Option DurableDeviceIdentity) :=
  .eff .read fun (r : Except JsError (Option DurableDeviceIdentity)) =>
    Prog.ofExcept r >>= fun identity =>
      .eff (.observe tab (identity.map (·.generation))) fun _ => .ret identity

/-- `IndexedDBDurableInbox.write`. -/
def writeIdentity (tab : TabId) (device : DeviceIdentity) : DeviceProg Unit :=
  .eff (.observed tab) fun (expected : Option String) =>
    .eff .randomUUID fun (generation : String) =>
      .eff (.write expected generation device) fun (r : Except JsError Unit) =>
        Prog.ofExcept r >>= fun _ => .eff (.observe tab (some generation)) fun _ => .ret ()

/-- `isDeviceIdentity` on what `read` returns. -/
def isStored (stored : Option DurableDeviceIdentity) : Option DurableDeviceIdentity :=
  stored.filter isDeviceIdentity

/-- The handler of `create`: another tab may have been first. -/
def adopt (tab : TabId) (device : DeviceIdentity) (x : JsError) : DeviceProg DeviceIdentity :=
  match x with
  | .client _ .local_generation_changed =>
      readIdentity tab >>= fun winner =>
        match isStored winner with
        | some winner => if winner.id ≠ device.id then .ret ⟨winner.id, winner.name⟩ else .throw x
        | none => .throw x
  | _ => .throw x

/-- `DeviceIdentityService.create`. -/
def create (tab : TabId) : DeviceProg DeviceIdentity :=
  .eff .randomUUID fun (id : String) =>
    .eff .userAgent fun (userAgent : String) =>
      let device : DeviceIdentity := ⟨id, browserDeviceDescription userAgent⟩
      (writeIdentity tab device).attempt >>= fun
        | .error x => adopt tab device x
        | .ok _ => .ret device

/-- The operation that `get` or `replace` queues. -/
def operation (tab : TabId) : Method → DeviceProg DeviceIdentity
  | .get =>
      readIdentity tab >>= fun stored =>
        match isStored stored with
        | some stored => .ret ⟨stored.id, stored.name⟩
        | none => create tab
  | .replace => create tab

/-- `enqueue`; the call joins the chain when it starts. -/
def enqueued (tab : TabId) (method : Method) : DeviceProg Unit :=
  .eff (.turn tab) fun _ =>
    (operation tab method).attempt >>= fun result => .eff (.settle tab result) fun _ => .ret ()

/-! ## The tabs -/

/-- The database and the fields of the tabs.  `drawn`, `called`, `written` and
`settled` only record what has happened. -/
structure Tabs where
  db : Database
  observedGeneration : TabId → Option String
  /-- `pending`: the calls that have not settled, in order. -/
  pending : TabId → List Tid := fun _ => []
  /-- Identifiers that are not drawn again. -/
  known : List String
  /-- The identifiers that the calls have drawn. -/
  drawn : List (Tid × String) := []
  called : List TabId := []
  /-- The identities that have been committed, the latest first. -/
  written : List DurableDeviceIdentity := []
  settled : List (Except JsError DeviceIdentity) := []

/-- The transaction fails from outside; the error is no `ClientError`. -/
def Aborted {α : Type} (r : Except JsError α) : Prop :=
  ∃ message, r = .error (.error message)

/-- What the calls do. -/
def exec (t : Tid) : (c : DeviceCall) → Tabs → c.Answer → Tabs → Prop
  | .turn tab, s, _, s' => (s.pending tab).head? = some t ∧ s' = s
  | .settle tab result, s, _, s' =>
      s' = { s with
        pending := Function.update s.pending tab ((s.pending tab).erase t)
        settled := result :: s.settled }
  | .read, s, r, s' => (Inbox.runs read s.db r s.db ∨ Aborted r) ∧ s' = s
  | .write expected generation device, s, r, s' =>
      (∃ db', r = .ok () ∧ Inbox.runs (write expected generation device) s.db r db' ∧
        s' = { s with
          db := db'
          written := ⟨device.id, device.name, generation⟩ :: s.written }) ∨
      ((∃ x, r = .error x ∧ write expected generation device s.db = .error x) ∨ Aborted r) ∧ s' = s
  | .observed tab, s, r, s' => r = s.observedGeneration tab ∧ s' = s
  | .observe tab generation, s, _, s' =>
      s' = { s with observedGeneration := Function.update s.observedGeneration tab generation }
  | .randomUUID, s, r, s' =>
      (isUuid r = true ∧ r ∉ s.known ∧ r ∉ s.drawn.map Prod.snd) ∧
        s' = { s with drawn := (t, r) :: s.drawn }
  | .userAgent, s, _, s' => s' = s

/-- The tabs, with the calls that may start. -/
def devices (starts : TabId → Method → Tabs → Prop) :
    System DeviceCall DeviceCall.Answer JsError Tabs (TabId × Method) where
  exec := exec
  prog _ op := enqueued op.1 op.2
  start t op s s' :=
    starts op.1 op.2 s ∧ s' = { s with
      pending := Function.update s.pending op.1 (s.pending op.1 ++ [t])
      called := op.1 :: s.called }
  stop _ s s' := s' = s
  env _ _ := False

/-- Nothing has been called yet; the identifiers in the database are known. -/
structure Tabs.Initial (s : Tabs) : Prop where
  pending : ∀ tab, s.pending tab = []
  known : ∀ d, s.db.identity = some d → d.id ∈ s.known ∧ d.generation ∈ s.known
  drawn : s.drawn = []
  called : s.called = []
  written : s.written = []
  settled : s.settled = []

end Device
end Client
end SecureMessenger

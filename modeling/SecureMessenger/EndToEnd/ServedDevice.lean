import SecureMessenger.EndToEnd.Progress
import SecureMessenger.EndToEnd.RecoveryWalks
import SecureMessenger.Lib.Simulation
import SecureMessenger.Server.Alone
import SecureMessenger.Server.MailboxReplies

/-!
# A device and the running server

The line assumes that the server answers from some state between the request
and now.  Here the server is a run of all its requests: a page or a receipt is
the result of a request that has arrived since the device asked and has been
answered by now.  A device that talks to this server is a device on the line.
-/

namespace SecureMessenger
namespace EndToEnd

open Lib
open Client (ScopeRef Call Request JsError JsNumber Inbox.runs cursorAt scopeKey phoneScope)
open Recovery (world Responds)

/-- A device, and how far the server has come.  `asked`, `began`, `op` and
`place` only record what happens. -/
structure Device where
  /-- The moment of the run of the server. -/
  now : Nat := 0
  inbox : Client.Database
  tab : Client.Tab
  /-- When the last request of a thread left. -/
  asked : Tid → Nat := fun _ => 0
  /-- When the operation of a thread was called. -/
  began : Tid → Nat := fun _ => 0
  op : Tid → Option LineOp := fun _ => none
  place : Tid → Option Nat := fun _ => none

section System

variable {sec : Server.Security} {init : Server.World → Prop}
  (T : Timeline (Server.serverSystem sec) init) (iso : Server.Instant → Client.Timestamp)
  (principal : Server.Principal) (ref : ScopeRef)

/-- How the promise of a gateway call settles. -/
def Device.replies (t : Tid) (s : Device) : (g : Request) → Except JsError g.Reply → Prop
  | .getMailbox _ after limit, r => ∃ p began,
      Responds T (s.asked t) s.now (.mailbox principal after.toNat limit) (.page p) began ∧
        r = .ok (mailboxPage iso p)
  | .acknowledgeEnvelope _ id, r => ∀ receipt, r = .ok receipt → ∃ e began,
      Responds T (s.asked t) s.now (.acknowledge principal id) (.envelope e) began ∧
        receipt = messageEnvelope iso e
  | .sendMessage _ _, _ => True
  | .findSentMessage _, _ => True
  | .getDestinationDevices _, _ => True
  | .getSentMessages _ _ _, _ => True
  | .getChatStates _ _, _ => True
  | .advanceReadCursor _ _, _ => True

/-- The calls of a thread. -/
def Device.exec (t : Tid) : (c : Call) → Device → c.Answer → Device → Prop
  | .inbox tx, s, r, s' => ∃ db, Inbox.runs tx s.inbox r db ∧ s' = { s with inbox := db }
  | .request _, s, _, s' => s' = { s with asked := Function.update s.asked t s.now }
  | .response g, s, r, s' => s' = s ∧ s.replies T iso principal t g r
  | .notify _, s, _, s' => s' = s
  | .enqueue, s, (place : Nat), s' =>
      ∃ l, Client.Tab.exec .enqueue s.tab place l ∧
        s' = { s with tab := l, place := Function.update s.place t (some place) }
  | .leave place, s, r, s' =>
      ∃ l, Client.Tab.exec (.leave place) s.tab r l ∧
        s' = { s with tab := l, place := Function.update s.place t none }
  | c, s, r, s' => ∃ l, Client.Tab.exec c s.tab r l ∧ s' = { s with tab := l }

/-- An operation is called. -/
def Device.call (s : Device) (t : Tid) (op : LineOp) : Device :=
  { s with
    op := Function.update s.op t (some op)
    began := Function.update s.began t s.now }

/-- A live event about an envelope the server has committed. -/
def Device.Published (s : Device) (e : Client.MailboxEnvelope) : Prop :=
  ∃ m entry, m ≤ s.now ∧ EntryOf (world T m).db ref.scope.deviceId entry ∧
    e = mailboxEnvelope iso entry

/-- The device next to the server, which goes on by itself. -/
def deviceSystem : System Call Call.Answer JsError Device LineOp where
  exec := Device.exec T iso principal
  prog := fun _ op => op.prog
  start := fun t op s s' => s' = s.call t op ∧
    match op with
    | .synchronize => True
    | .ingest envelope => s.Published T iso ref envelope
  stop := fun _ _ _ => False
  env := fun s s' => s' = { s with now := s.now + 1 }

/-- Nothing has been called yet; earlier sessions have left an inbox. -/
structure Device.Initial (s : Device) : Prop where
  now : s.now = 0
  mailbox : Server.HasMailbox ref.scope.deviceId (world T 0).db
  valid : Client.valid ref.scope s.inbox = true
  inStep : InStep ref (world T 0).db s.inbox
  current : s.tab.memory.current = some ref
  chain : s.tab.chain = {}
  asked : ∀ t, s.asked t = 0
  began : ∀ t, s.began t = 0
  op : ∀ t, s.op t = none
  place : ∀ t, s.place t = none

/-- The device and the committed rows, as a device on the line. -/
def Device.line (s : Device) : Line where
  server := (world T s.now).db
  inbox := s.inbox
  tab := s.tab
  asked := fun t => (world T (s.asked t)).db
  began := fun t => (world T (s.began t)).db
  op := s.op
  place := s.place

end System

section Server

variable {sec : Server.Security} {ref : ScopeRef}
  (T : Timeline (Server.serverSystem sec) (Server.World.Initial sec))
  {iso : Server.Instant → Client.Timestamp} {principal : Server.Principal}

theorem served_reporting (n : Nat) : Server.Reporting sec (world T n) :=
  Server.reachable_reporting (T.reachable n)

theorem served_grows {m n : Nat} (h : m ≤ n) : Server.MailboxesGrow (world T m) (world T n) :=
  Server.reaches_mailboxes (T.reachable m) (T.reaches h)

variable {T}

/-- A response describes a state between the request and now. -/
theorem Responds.reported {m n : Nat} (h : m ≤ n) {op : Server.Op} {r : Server.Result}
    {began : Server.Db} (hr : Responds T m n op r began) :
    Server.Follows (world T m).db began ∧ Server.Reported began (world T n).db op r := by
  obtain ⟨u, hnone, hop, hout, rfl⟩ := hr
  exact ⟨(served_grows T h).starts u op hnone hop, (served_reporting T n).reported u op r hop hout⟩

theorem between_of_seen {m n : Nat} {began seen : Server.Db}
    (hbegan : Server.Follows (world T m).db began)
    (hseen : Server.SeenSince began seen (world T n).db) :
    Between (world T m).db seen (world T n).db :=
  ⟨hseen.wf, hbegan.trans hseen.since, hseen.upTo⟩

/-- The replies of the running server are replies on the line. -/
theorem replies_line (hprincipal : principal.device_id = ref.scope.deviceId) {s : Device}
    {t : Tid} (hasked : s.asked t ≤ s.now) {g : Request} {r : Except JsError g.Reply}
    (h : s.replies T iso principal t g r) : (s.line T).replies ref iso t g r := by
  cases g with
  | getMailbox gateway after limit =>
      obtain ⟨p, began, hr, rfl⟩ := h
      obtain ⟨hbegan, seen, hseen, rfl⟩ := Responds.reported hasked hr
      refine ⟨seen, between_of_seen hbegan hseen, ?_⟩
      rw [hprincipal]
      rfl
  | acknowledgeEnvelope gateway id =>
      intro receipt hreceipt
      obtain ⟨e, began, hr, rfl⟩ := h receipt hreceipt
      obtain ⟨hbegan, seen, row, now, hseen, hrow, hid, hdevice, rfl⟩ :=
        Responds.reported hasked hr
      exact ⟨seen, row, now, between_of_seen hbegan hseen, hrow, hid,
        hdevice.trans hprincipal, rfl⟩
  | _ => trivial

theorem update_world (f : Tid → Nat) (t : Tid) (n : Nat) :
    (fun u => (world T (Function.update f t n u)).db) =
      Function.update (fun u => (world T (f u)).db) t (world T n).db := by
  funext u
  by_cases hut : u = t
  · subst hut
    simp
  · simp [hut]

/-- What a thread of the device does, a thread on the line does. -/
theorem exec_line (hprincipal : principal.device_id = ref.scope.deviceId) {t : Tid} {c : Call}
    {s s' : Device} {r : c.Answer} (hasked : ∀ t, s.asked t ≤ s.now)
    (h : Device.exec T iso principal t c s r s') :
    (∀ t, s'.asked t ≤ s'.now) ∧ Line.exec ref iso t c (s.line T) r (s'.line T) := by
  cases c with
  | inbox tx =>
      obtain ⟨db, hrun, rfl⟩ := h
      exact ⟨hasked, db, hrun, rfl⟩
  | request g =>
      have h : s' = { s with asked := Function.update s.asked t s.now } := h
      subst h
      refine ⟨fun u => ?_, ?_⟩
      · by_cases hut : u = t
        · subst hut
          simp
        · simpa [hut] using hasked u
      · show Device.line T _ = _
        simp only [Device.line, update_world]
  | response g =>
      obtain ⟨rfl, hreply⟩ := h
      exact ⟨hasked, rfl, replies_line hprincipal (hasked t) hreply⟩
  | notify =>
      have h : s' = s := h
      subst h
      exact ⟨hasked, rfl⟩
  | enqueue =>
      obtain ⟨l, hl, rfl⟩ := h
      exact ⟨hasked, l, hl, rfl⟩
  | leave place =>
      obtain ⟨l, hl, rfl⟩ := h
      exact ⟨hasked, l, hl, rfl⟩
  | _ =>
      obtain ⟨l, hl, rfl⟩ := h
      exact ⟨hasked, l, hl, rfl⟩

/-- While the server goes on, the line rests or a transaction commits on it. -/
theorem goesOn_line (hsafe : ∀ n, (Server.lastSeq ref.scope.deviceId (world T n).db : ℤ) ≤
      JsNumber.maxSafeInteger) (s : Device) :
    ({ s with now := s.now + 1 } : Device).line T = s.line T ∨
      Line.commits ref (s.line T) (({ s with now := s.now + 1 } : Device).line T) := by
  rcases T.next s.now with hrest | ⟨m, hstep⟩
  · left
    simp only [Device.line, world, hrest]
  · rcases Server.step_commits hstep with ⟨hdb, -⟩ | ⟨t, hhistory⟩
    · left
      have hdb : (world T (s.now + 1)).db = (world T s.now).db := hdb
      simp only [Device.line, hdb]
    · right
      have hinv := (served_reporting T (s.now + 1)).inv
      have hlast : (⟨t, (world T s.now).db, (world T (s.now + 1)).db⟩ : Server.Commit) ∈
          (world T (s.now + 1)).history := by
        have hhistory' : (world T (s.now + 1)).history = _ := hhistory
        rw [hhistory']
        exact List.mem_cons_self
      obtain ⟨op, -, heffect, -⟩ := hinv.commits _ hlast
      exact ⟨sec, op, _, heffect, hinv.wf.unique, hsafe _, rfl⟩

variable (T iso principal) in
/-- **A device that talks to the running server is a device on the line.** -/
def served (hprincipal : principal.device_id = ref.scope.deviceId)
    (hsafe : ∀ n, (Server.lastSeq ref.scope.deviceId (world T n).db : ℤ) ≤
      JsNumber.maxSafeInteger) :
    Simulation (deviceSystem T iso principal ref) (Device.Initial T ref) (lineSystem ref iso)
      (Line.Initial ref) where
  view := Device.line T
  inv s := ∀ t, s.asked t ≤ s.now
  first s h := by
    refine ⟨fun t => (h.asked t).le.trans (Nat.zero_le _), ?_⟩
    have hserver : (s.line T).server = (world T 0).db := congrArg (fun n => (world T n).db) h.now
    exact {
      wf := hserver ▸ (served_reporting T 0).inv.wf
      mailbox := hserver ▸ h.mailbox
      safe := hserver ▸ hsafe 0
      valid := h.valid
      inStep := hserver ▸ h.inStep
      current := h.current
      chain := h.chain
      asked := fun t => by rw [hserver]; exact congrArg (fun n => (world T n).db) (h.asked t)
      began := fun t => by rw [hserver]; exact congrArg (fun n => (world T n).db) (h.began t)
      op := h.op
      place := h.place }
  prog _ _ := rfl
  exec _ _ _ _ _ hinv h := exec_line hprincipal hinv h
  start := by
    rintro t op s s' hinv ⟨rfl, hop⟩
    refine ⟨hinv, ?_, ?_⟩
    · simp only [Device.line, Device.call, Line.call, update_world]
    · cases op with
      | synchronize => trivial
      | ingest envelope =>
          obtain ⟨m, entry, hm, hentry, he⟩ := hop
          exact ⟨_, entry, (served_reporting T m).inv.wf, (served_grows T hm).follows, hentry, he⟩
  stop _ _ _ _ h := h.elim
  env := by
    rintro s s' hinv rfl
    exact ⟨fun t => (hinv t).trans (Nat.le_succ _), goesOn_line hsafe s⟩

/-- **A device keeps up with the server**, whatever requests of other devices
the server takes at the same time. -/
theorem device_keeps_up_with_the_server (hprincipal : principal.device_id = ref.scope.deviceId)
    (hsafe : ∀ n, (Server.lastSeq ref.scope.deviceId (world T n).db : ℤ) ≤
      JsNumber.maxSafeInteger)
    (U : Timeline (deviceSystem T iso principal ref) (Device.Initial T ref)) :
    (∀ n, (∀ t x, (U.pool n).threads t ≠ some (.throw x)) ∧
      InStep ref (world T (U.pool n).shared.now).db (U.pool n).shared.inbox ∧
      ∀ t, (U.pool n).threads t = some (.ret ()) →
        (U.pool n).shared.op t = some .synchronize →
          (Server.lastSeq ref.scope.deviceId (world T ((U.pool n).shared.began t)).db : ℤ) ≤
            cursorAt (scopeKey ref.scope) (U.pool n).shared.inbox) ∧
    ∀ t, ∃ N, ∀ n, N ≤ n → ¬U.Acts t n := by
  have hp : ∀ n, _ := fun n => (served T iso principal hprincipal hsafe).reachable (U.reachable n)
  have hholds : ∀ n, _ := fun n => holds_line (hp n).2
  refine ⟨fun n => ⟨fun t x ht => (hholds n).safe t _ ht, (hholds n).inv.inStep,
    fun t ht hop => ?_⟩, fun t => ?_⟩
  · have hdone : ((U.pool n).shared.line T).Done ref t := (hholds n).safe t _ ht
    exact hdone.2 hop
  · obtain ⟨N, hN⟩ := loose_line.rests (fun _ _ _ h => h)
      ((served T iso principal hprincipal hsafe).timeline U) t
    exact ⟨N, fun n hn hacts => hN n hn ((served T iso principal hprincipal hsafe).acts U hacts)⟩

end Server

section FirstPage

/-! A device whose server has one envelope for it. -/

open Server.Example (plainSecurity smallWorld)

def firstWorld : Server.World :=
  { smallWorld with
    db := firstServer
    began := fun _ => firstServer
    issued := [] }

def phone : Server.Principal :=
  ⟨"alice", phoneScope.deviceId, "session"⟩

theorem firstWorld_initial : Server.World.Initial plainSecurity firstWorld := by
  refine ⟨firstLine_initial.wf, fun _ => ?_, ?_, fun _ _ => trivial, rfl,
    fun _ => ⟨rfl, rfl, rfl, rfl, rfl, rfl, rfl⟩⟩
  · unfold Server.Rotation
    decide
  · rintro h (⟨s, hs, -⟩ | ⟨x, hx, -⟩)
    · cases hs
    · cases hx

def firstPage : Server.MailboxPage :=
  Server.mailboxPage (firstServer.mailboxRows phoneScope.deviceId 0 100) 0 100

/-- The server answers a request for the first page. -/
theorem firstPage_reaches
    {p : Pool Server.Sql Server.Sql.Answer Server.PyError Server.World}
    (hdb : p.shared.db = firstServer) (hpending : p.shared.pending 1 = id)
    (ht : p.threads 1 = none) :
    ∃ p', System.Reaches (Server.serverSystem plainSecurity) p p' ∧
      p'.shared.db = firstServer ∧ p'.shared.op 1 = some (.mailbox phone 0 100) ∧
      p'.shared.outcome 1 = some (.ok (.page firstPage)) ∧ p'.shared.began 1 = firstServer := by
  have hview : p.shared.pending 1 p.shared.db = firstServer := by
    rw [hpending, hdb]
    rfl
  have hread {α : Type} (f : Server.Db → α) :
      f firstServer = f (p.shared.pending 1 p.shared.db) := congrArg f hview.symm
  -- nothing is due, so the purge changes nothing
  let due (e : Server.Envelope) : Bool :=
    decide (e.recipient_device_id = phone.device_id) && Server.Db.expired 0 e
  let listed (e : Server.Envelope) : Bool :=
    decide (e.id ∈ ([] : List Server.UUID)) && due e
  let purge (db : Server.Db) : Server.Db := db.updateEnvelopes listed (Server.Db.purged 0)
  have h : System.Reaches (Server.serverSystem plainSecurity) p p := Relation.ReflTransGen.refl
  have h := h.starts 1 (.mailbox phone 0 100) ht rfl
  have h := h.acts 1 rfl (0 : Server.Instant) rfl
  have h := h.acts 1 rfl ([] : List Server.UUID)
    ⟨hread fun db => (db.envelopes.filter due).map Server.Envelope.id, rfl⟩
  have h := h.acts 1 rfl (0 : Nat) ⟨hread fun db => (db.envelopes.filter listed).length, rfl⟩
  have h := h.acts 1 rfl () rfl
  have h := h.acts 1 rfl (firstServer.mailboxRows phoneScope.deviceId 0 100)
    ⟨hread fun db => (purge db).mailboxRows phoneScope.deviceId 0 100, rfl⟩
  have hunique : (purge (p.shared.pending 1 p.shared.db)).uniqueKeys :=
    (hread fun db => (purge db).uniqueKeys) ▸ firstLine_initial.wf.unique
  have h := h.acts 1 rfl (.ok ()) (.inl ⟨rfl, hunique, rfl⟩)
  have h := h.acts 1 rfl () rfl
  have h := h.acts 1 rfl () rfl
  exact ⟨_, h, (hread purge).symm, rfl, rfl, hdb⟩

/-- The phone never has more than one envelope. -/
theorem lastSeq_le_one
    {T : Timeline (Server.serverSystem plainSecurity) (Server.World.Initial plainSecurity)}
    {m : Nat} (hmailbox : Server.HasMailbox phoneScope.deviceId (world T 0).db)
    (hm : (world T m).db = firstServer) (n : Nat) :
    Server.lastSeq phoneScope.deviceId (world (T.stopAt m) n).db ≤ 1 := by
  have hle : Server.lastSeq phoneScope.deviceId (world T (min n m)).db ≤
      Server.lastSeq phoneScope.deviceId (world T m).db :=
    (served_grows T (Nat.min_le_right n m)).follows.lastSeq_le (served_reporting T _).inv.wf
      (served_reporting T m).inv.wf
      ((served_grows T (Nat.zero_le (min n m))).follows.hasMailbox hmailbox)
  rw [hm] at hle
  have hone : Server.lastSeq phoneScope.deviceId firstServer = 1 := by decide
  exact hle.trans hone.le

/-- The server answers a request for the first page and rests. -/
theorem exists_firstPage :
    ∃ (T : Timeline (Server.serverSystem plainSecurity) (Server.World.Initial plainSecurity))
      (m : Nat),
      (world T 0).db = firstServer ∧
      Responds T 0 m (.mailbox phone 0 100) (.page firstPage) firstServer ∧
      ∀ n, Server.lastSeq phoneScope.deviceId (world T n).db ≤ 1 := by
  have hidle : System.Reachable (Server.serverSystem plainSecurity)
      (Server.World.Initial plainSecurity) (System.idle firstWorld) := .idle firstWorld_initial
  obtain ⟨p, h, hdb, hop, hout, hbegan⟩ := firstPage_reaches (p := System.idle firstWorld) rfl rfl
    rfl
  obtain ⟨T, m, -, hfirst, hm⟩ := (Timeline.resting hidle).exists_onto 0 h
  have hw₀ : world T 0 = firstWorld := by
    unfold world
    rw [hfirst 0 le_rfl]
    rfl
  have hw : world T m = p.shared := congrArg (·.shared) hm
  have hlast : world (T.stopAt m) m = p.shared :=
    (congrArg (world T) (Nat.min_self m)).trans hw
  have hbegin : world (T.stopAt m) 0 = firstWorld :=
    (congrArg (world T) (Nat.zero_min m)).trans hw₀
  refine ⟨T.stopAt m, m, ?_, ⟨1, ?_, ?_, ?_, ?_⟩, lastSeq_le_one ?_ ?_⟩
  · rw [hbegin]
    rfl
  · rw [hbegin]
    rfl
  · rw [hlast, hop]
  · rw [hlast, hout]
  · rw [hlast, hbegan]
  · rw [hw₀]
    exact List.mem_cons_self
  · rw [hw, hdb]

def firstDevice : Device where
  inbox := newInbox
  tab := { memory := { current := some phoneRef } }

variable {T : Timeline (Server.serverSystem plainSecurity) (Server.World.Initial plainSecurity)}

theorem firstDevice_initial (h : Server.HasMailbox phoneScope.deviceId (world T 0).db) :
    Device.Initial T phoneRef firstDevice where
  now := rfl
  mailbox := h
  valid := firstLine_initial.valid
  inStep := inStep_newInbox _
  current := rfl
  chain := rfl
  asked := fun _ => rfl
  began := fun _ => rfl
  op := fun _ => rfl
  place := fun _ => rfl

/-- The server goes on for a while. -/
theorem device_waits {p : Pool Call Call.Answer JsError Device}
    (hp : System.Reachable (deviceSystem T newYear phone phoneRef) (Device.Initial T phoneRef) p)
    (k : Nat) :
    System.Reachable (deviceSystem T newYear phone phoneRef) (Device.Initial T phoneRef)
      ⟨{ p.shared with now := p.shared.now + k }, p.threads⟩ := by
  induction k with
  | zero => exact hp
  | succ k ih => exact ih.step (.env rfl)

/-- The device synchronizes, once the server has the envelope. -/
theorem reachable_caughtUp {m n : Nat}
    (hmailbox : Server.HasMailbox phoneScope.deviceId (world T 0).db) (hmn : m ≤ n)
    (hresponds : Responds T m n (.mailbox phone 0 100) (.page firstPage) firstServer) :
    ∃ p : Pool Call Call.Answer JsError Device,
      System.Reachable (deviceSystem T newYear phone phoneRef) (Device.Initial T phoneRef) p ∧
        p.threads 0 = some (.ret ()) ∧ p.shared.op 0 = some .synchronize ∧
          p.shared.began 0 = m := by
  obtain ⟨k, rfl⟩ := Nat.exists_eq_add_of_le hmn
  rw [← Nat.zero_add m] at hresponds
  have h : System.Reachable (deviceSystem T newYear phone phoneRef) (Device.Initial T phoneRef)
      (System.idle firstDevice) := .idle (firstDevice_initial hmailbox)
  have h := device_waits h m
  have hvalid : Client.valid phoneScope newInbox = true := by decide
  have hcursor : cursorAt (scopeKey phoneScope) newInbox = 0 := by decide
  have hvalid' : Client.valid phoneScope filledInbox = true := by decide
  have hcursor' : cursorAt (scopeKey phoneScope) filledInbox = 1 := by decide
  have h := h.starts 0 .synchronize rfl ⟨rfl, trivial⟩
  have h := h.acts 0 rfl (some phoneRef) ⟨_, ⟨rfl, rfl⟩, rfl⟩
  have h := h.acts 0 rfl (0 : Nat) ⟨_, ⟨rfl, rfl⟩, rfl⟩
  have h := h.acts 0 rfl () ⟨_, ⟨fun q hq => absurd hq (Nat.not_lt_zero q), rfl⟩, rfl⟩
  have hneeds : Client.needsSequenceBackfill phoneScope newInbox = .ok (false, newInbox) := by
    rw [Client.needsSequenceBackfill_valid hvalid]
    rfl
  have h := h.acts 0 rfl (.ok false) ⟨_, .inl ⟨_, hneeds, rfl⟩, rfl⟩
  have h := h.acts 0 rfl Client.Transport.http ⟨_, rfl, rfl⟩
  have hpending : Client.getPendingAcknowledgments phoneScope newInbox = .ok ([], newInbox) := by
    rw [Client.getPendingAcknowledgments_valid hvalid]
    rfl
  have h := h.acts 0 rfl (.ok []) ⟨_, .inl ⟨_, hpending, rfl⟩, rfl⟩
  have h := h.step (.unfold (t := 0) rfl)
  have h := h.acts 0 rfl true ⟨_, ⟨rfl, rfl⟩, rfl⟩
  have hread : Client.readCursor phoneScope newInbox = .ok (0, newInbox) := by
    rw [Client.readCursor_valid hvalid, hcursor]
  have h := h.acts 0 rfl (.ok 0) ⟨_, .inl ⟨_, hread, rfl⟩, rfl⟩
  have h := h.acts 0 rfl Client.Transport.http ⟨_, rfl, rfl⟩
  have h := h.acts 0 rfl () rfl
  have h := device_waits h k
  have h := h.acts 0 rfl (.ok ⟨[firstLive], .integer 1, false⟩) ⟨rfl, firstPage, firstServer,
    hresponds, congrArg Except.ok servedPage_first.symm⟩
  have h := h.acts 0 rfl true ⟨_, ⟨rfl, rfl⟩, rfl⟩
  obtain ⟨⟨cs, db⟩, hcommit⟩ := @Client.commitPage_total phoneScope 0 1 [firstLive] newInbox hvalid
    hcursor (by decide) rfl (by decide)
  obtain rfl : db = filledInbox := (Client.commitPage_ok hcommit).1.db_eq
  have h := h.acts 0 rfl (.ok cs) ⟨_, .inl ⟨_, hcommit, rfl⟩, rfl⟩
  have h := h.acts 0 rfl Client.Transport.http ⟨_, rfl, rfl⟩
  have hpending' : Client.getPendingAcknowledgments phoneScope filledInbox =
      .ok ([firstLive], filledInbox) := by
    rw [Client.getPendingAcknowledgments_valid hvalid']
    rfl
  have h := h.acts 0 rfl (.ok [firstLive]) ⟨_, .inl ⟨_, hpending', rfl⟩, rfl⟩
  have h := h.acts 0 rfl true ⟨_, ⟨rfl, rfl⟩, rfl⟩
  have h := h.acts 0 rfl () rfl
  -- the acknowledgment is lost
  have h := h.acts 0 rfl (.error (.error "offline")) ⟨rfl, fun receipt heq => by cases heq⟩
  have h := h.acts 0 rfl true ⟨_, ⟨rfl, rfl⟩, rfl⟩
  have hread' : Client.readCursor phoneScope filledInbox = .ok (1, filledInbox) := by
    rw [Client.readCursor_valid hvalid', hcursor']
  have h := h.acts 0 rfl (.ok 1) ⟨_, .inl ⟨_, hread', rfl⟩, rfl⟩
  have h := h.acts 0 rfl () ⟨_, rfl, rfl⟩
  exact ⟨_, h, rfl, rfl, Nat.zero_add m⟩

/-- It has caught up with the running server. -/
theorem device_keeps_up_with_the_server_first :
    ∃ (T : Timeline (Server.serverSystem plainSecurity) (Server.World.Initial plainSecurity))
        (p : Pool Call Call.Answer JsError Device),
      p.threads 0 = some (.ret ()) ∧ 1 ≤ cursorAt (scopeKey phoneScope) p.shared.inbox ∧
        InStep phoneRef (world T p.shared.now).db p.shared.inbox := by
  obtain ⟨T, m, hfirst, hresponds, hlast⟩ := exists_firstPage
  have hmailbox : Server.HasMailbox phoneScope.deviceId (world T 0).db :=
    hfirst ▸ List.mem_cons_self
  obtain ⟨p, hp, hret, hop, hbegan⟩ := reachable_caughtUp hmailbox (Nat.zero_le m) hresponds
  have hsafe : ∀ n, (Server.lastSeq phoneScope.deviceId (world T n).db : ℤ) ≤
      JsNumber.maxSafeInteger := by
    intro n
    have hn := hlast n
    have hmax : (1 : ℤ) ≤ JsNumber.maxSafeInteger := by decide
    omega
  obtain ⟨hmoments, -⟩ := @device_keeps_up_with_the_server plainSecurity phoneRef T newYear phone
    rfl hsafe (Timeline.resting hp)
  obtain ⟨-, hstep, hcaught⟩ := hmoments 0
  have hpool : (Timeline.resting hp).pool 0 = p := rfl
  rw [hpool] at hstep hcaught
  have hle := hcaught 0 hret hop
  have hone : Server.lastSeq phoneRef.scope.deviceId firstServer = 1 := by decide
  rw [hbegan, hfirst, hone] at hle
  exact ⟨T, p, hret, hle, hstep⟩

end FirstPage

end EndToEnd
end SecureMessenger

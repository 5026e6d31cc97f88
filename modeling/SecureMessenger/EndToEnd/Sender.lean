import SecureMessenger.EndToEnd.JsonWire
import SecureMessenger.EndToEnd.SentRows
import SecureMessenger.EndToEnd.ServedDevice
import SecureMessenger.EndToEnd.TextCodec
import SecureMessenger.Lib.Evidence

/-!
# A sender and the running server

`OutgoingManager` next to a server that goes on taking requests.  What it
stores as accepted it has been told by the server: in the response to a
transmission or a lookup, in a page of metadata, or in a late acceptance that
reaches it through the socket.  Sessions may come and go, the page may be
reloaded, and other functions may write the other tables of the inbox.
-/

namespace SecureMessenger
namespace EndToEnd
namespace Acceptance

open Lib
open Lib.Discipline
open Client (Database JsError ScopeRef SentMessage OutgoingCommand)
open Client.Outgoing (Async Call Fields Promise)
open Recovery (world Responds)

/-- A device that sends, and how far the server has come.  `asked` only records
when a thread went on last after awaiting something. -/
structure Sender where
  now : Nat := 0
  fields : Fields
  asked : Tid → Nat := fun _ => 0

/-- The thread goes on. -/
def Sender.goesOn (t : Tid) (s : Sender) : Sender :=
  { s with asked := Function.update s.asked t s.now }

/-- The request body of a command. -/
def sendRequest (command : Client.SendMessageRequest) : Server.SendMessageRequest where
  chat_id := command.chat_id
  client_message_id := command.client_message_id
  envelopes := command.envelopes.map envelopeRequest

section System

variable {sec : Server.Security} {init : Server.World → Prop}
  (T : Timeline (Server.serverSystem sec) init) (iso : Server.Instant → Client.Timestamp)

/-- The server has accepted a message between the two moments.  The response
to a send has the payloads, unlike a page of sent messages. -/
def Accepts (m n : Nat) (request : Server.SendMessageRequest) (message : SentMessage) : Prop :=
  ∃ principal stored began, Responds T m n (.send principal request) (.stored stored) began ∧
    message = arrivedMessage iso true stored

/-- What the gateways resolve to, they have from the server. -/
def Sender.Answered (t : Tid) (s : Sender) : (g : Promise) → g.Reply → Prop
  | .sendMessage command, message =>
      Accepts T iso (s.asked t) s.now (sendRequest command) message
  | .findSentMessage id, (found : Option SentMessage) => ∀ message ∈ found,
      ∃ principal stored began,
        Responds T (s.asked t) s.now (.lookup principal id) (.found (some stored)) began ∧
          message = arrivedMessage iso true stored
  | .getSentMessages after, page => ∃ principal p began,
      Responds T (s.asked t) s.now (.sentPage principal after 100 true) (.sentMessages p) began ∧
        page = sentMessagesPage iso p
  | _, _ => True

/-- Calls of `OutgoingManager`. -/
def Sender.exec (t : Tid) : (c : Call) → Sender → Call.Answer c → Sender → Prop
  | .segment _ f, s, a, s' => a = (f s.fields).1 ∧ s' = { s with fields := (f s.fields).2 }
  | .settle g, s, (r : Except JsError g.Reply), s' =>
      ∃ fields, Client.Outgoing.settles g s.fields r fields ∧
        (∀ a, r = .ok a → s.Answered T iso t g a) ∧
        s' = ({ s with fields := fields } : Sender).goesOn t

/-- What is not a step of a function. -/
inductive Sender.Env (s : Sender) : Sender → Prop
  /-- The server goes on. -/
  | server : Env s { s with now := s.now + 1 }
  /-- A session begins or ends. -/
  | signs {fields : Fields} (h : s.fields.signs fields) : Env s { s with fields := fields }
  /-- The page is loaded anew. -/
  | reload (fields : Fields) (h : fields.db = s.fields.db) : Env s { s with fields := fields }
  /-- Other functions write to other tables. -/
  | other (db : Database) (hout : db.outgoing = s.fields.db.outgoing)
      (hmeta : db.sentMetadata = s.fields.db.sentMetadata) :
      Env s { s with fields := { s.fields with db := db } }

/-- The device over its sessions; a thread ends with the page it runs on. -/
def senderSystem : System Call Call.Answer JsError Sender Client.Outgoing.Op where
  exec := Sender.exec T iso
  prog := fun self op => op.prog self
  start := fun t op s s' => s' = s.goesOn t ∧
    match op with
    | .accepted message => ∃ m request, Accepts T iso m s.now request message
    | _ => True
  stop := fun _ s s' => s' = s
  env := Sender.Env

/-- Nothing has been called yet; earlier sessions have left an inbox. -/
structure Sender.Initial (s : Sender) : Prop where
  now : s.now = 0
  asked : ∀ t, s.asked t = 0
  rows : SentRows (world T 0).db s.fields.db

end System

/-! ## What the server says -/

section Server

variable {sec : Server.Security}
  {T : Timeline (Server.serverSystem sec) (Server.World.Initial sec)}
  {iso : Server.Instant → Client.Timestamp} {m n : Nat} {began : Server.Db}

theorem Responds.outcome {op : Server.Op} {r : Server.Result}
    (h : Responds T m n op r began) :
    ∃ own published, Server.Outcome sec own published began (world T n).db op (.ok r) := by
  obtain ⟨u, -, hop, hout, rfl⟩ := h
  obtain ⟨op', hop', hresult⟩ := (served_reporting T n).inv.outcomes u _ hout
  obtain rfl : op = op' := Option.some.inj (hop.symm.trans hop')
  exact ⟨_, _, hresult⟩

theorem genuine_sentMessage {server : Server.Db} {stored : Server.StoredMessage}
    (h : stored.message ∈ server.messages) : Genuine server (sentMessage iso stored) :=
  ⟨stored.message, h, rfl, rfl, rfl, rfl, rfl⟩

theorem genuine_arrivedMessage {server : Server.Db} {stored : Server.StoredMessage}
    (h : stored.message ∈ server.messages) : Genuine server (arrivedMessage iso true stored) :=
  ⟨stored.message, h, rfl, rfl, rfl, rfl, rfl⟩

theorem Accepts.genuine {request : Server.SendMessageRequest} {message : SentMessage}
    (h : Accepts T iso m n request message) : Genuine (world T n).db message := by
  obtain ⟨principal, stored, began, hr, rfl⟩ := h
  obtain ⟨own, published, hout⟩ := Responds.outcome hr
  exact genuine_arrivedMessage (Server.Returned.message hout)

theorem genuine_of_lookup {principal : Server.Principal} {id : String}
    {stored : Server.StoredMessage}
    (h : Responds T m n (.lookup principal id) (.found (some stored)) began) :
    Genuine (world T n).db (arrivedMessage iso true stored) := by
  obtain ⟨own, published, hout⟩ := Responds.outcome h
  exact genuine_arrivedMessage (Server.Returned.message hout)

theorem genuine_of_sentPage {principal : Server.Principal} {after : Option String}
    {p : Server.SentMessagesPage}
    (h : Responds T m n (.sentPage principal after 100 true) (.sentMessages p) began) :
    ∀ message ∈ (sentMessagesPage iso p).messages, Genuine (world T n).db message := by
  obtain ⟨own, published, page, db, hpage, -, hgrows, -, hfrom⟩ := Responds.outcome h
  obtain rfl : p = page := by injection hpage
  intro message hmem
  obtain ⟨stored, hstored, rfl⟩ := List.mem_map.mp hmem
  refine genuine_sentMessage (hgrows.messages _ ?_)
  have hrow : stored.message ∈ (db.sentRows principal.user_id after 100 true).take 100 :=
    hfrom.messages ▸ List.mem_map_of_mem hstored
  have hsorted := List.mem_of_mem_take (List.mem_of_mem_take hrow)
  rw [List.mem_insertionSort] at hsorted
  exact List.mem_of_mem_filter hsorted

end Server

/-! ## What is stored is true -/

section Discipline

variable {sec : Server.Security}
  (T : Timeline (Server.serverSystem sec) (Server.World.Initial sec))

/-- The record is true of the server as it is now. -/
structure Sender.Inv (s : Sender) : Prop where
  rows : SentRows (world T s.now).db s.fields.db
  asked : ∀ t, s.asked t ≤ s.now

/-- The server goes on. -/
def sendingDiscipline : Discipline Sender where
  inv := Sender.Inv T
  grow := fun s s' => s.now ≤ s'.now
  own := fun _ _ _ => True
  grow_refl := fun _ => le_rfl
  grow_trans := fun h h' => h.trans h'
  own_refl := fun _ _ => trivial
  own_trans := fun _ _ => trivial

theorem world_messages {m n : Nat} (h : m ≤ n) :
    ∀ x ∈ (world T m).db.messages, x ∈ (world T n).db.messages :=
  (served_grows T h).follows.messages

/-- The server vouches for the messages it has. -/
def genuine : Evidence (sendingDiscipline T) SentMessage where
  vouches := fun m s => Genuine (world T s.now).db m
  lasting := fun _ _ _ h hg => h.grow (world_messages T hg)

variable {T} {s s' : Sender} {t : Tid}

/-- A step at one moment of the server. -/
theorem keeps_of_rows (hinv : s.Inv T) (hrows : SentRows (world T s.now).db s'.fields.db)
    (hnow : s'.now = s.now) (hasked : s'.asked = s.asked) :
    (sendingDiscipline T).Keeps t s s' :=
  ⟨⟨hnow ▸ hrows, fun u => by rw [hasked, hnow]; exact hinv.asked u⟩, hnow.ge,
    fun _ _ => trivial⟩

theorem keeps_goesOn (hinv : s.Inv T) : (sendingDiscipline T).Keeps t s (s.goesOn t) := by
  refine ⟨⟨hinv.rows, fun u => ?_⟩, le_rfl, fun _ _ => trivial⟩
  by_cases hu : u = t
  · subst hu
    simp [Sender.goesOn]
  · simpa [Sender.goesOn, Function.update_of_ne hu] using hinv.asked u

end Discipline

/-! ## Awaiting -/

section Awaiting

/-- What must be vouched for before it is stored. -/
def needs : Promise → List SentMessage
  | .acceptOutgoing _ message => [message]
  | .mergeSentMetadata _ message => [message]
  | _ => []

/-- What the answer of a promise vouches for. -/
def gives : (g : Promise) → g.Reply → List SentMessage
  | .getOutgoing _ _, (r : Option OutgoingCommand) => (r.bind (·.accepted)).toList
  | .getOutgoingToRecover _, (r : List OutgoingCommand) => r.filterMap (·.accepted)
  | .sendMessage _, (message : SentMessage) => [message]
  | .findSentMessage _, (r : Option SentMessage) => r.toList
  | .getSentMessages _, (page : Client.SentMessagesPage) => page.messages
  | _, _ => []

variable {sec : Server.Security}
  {T : Timeline (Server.serverSystem sec) (Server.World.Initial sec)}
  {iso : Server.Instant → Client.Timestamp} {s s' : Sender} {t : Tid}

/-- A transaction of the inbox that keeps the record true. -/
theorem stores_rows {α : Type} {tx : Client.Transaction α} {fields fields' : Fields}
    {r : Except JsError α} {server : Server.Db} (h : fields.stores tx r fields')
    (hrows : SentRows server fields.db)
    (htx : ∀ a db, tx fields.db = .ok (a, db) → SentRows server db) :
    SentRows server fields'.db := by
  obtain ⟨db, rfl, (⟨a, hok, rfl⟩ | ⟨x, -, rfl, rfl⟩) | ⟨rfl, -⟩⟩ := h
  · exact htx a db hok
  · exact hrows
  · exact hrows

/-- A transaction that only reads. -/
theorem stores_read {α : Type} {tx : Client.Transaction α} {fields fields' : Fields}
    {r : Except JsError α} {server : Server.Db} (h : fields.stores tx r fields')
    (hrows : SentRows server fields.db)
    (htx : ∀ a db, tx fields.db = .ok (a, db) → db = fields.db) :
    SentRows server fields'.db :=
  stores_rows h hrows fun a db hok => htx a db hok ▸ hrows

theorem settles_rows {g : Promise} {server : Server.Db} {fields fields' : Fields}
    {r : Except JsError g.Reply} (hu : server.uniqueKeys) (hrows : SentRows server fields.db)
    (hneeds : ∀ m ∈ needs g, Genuine server m)
    (h : Client.Outgoing.settles g fields r fields') : SentRows server fields'.db := by
  cases g with
  | getOutgoing scope id =>
      refine stores_read h hrows fun a db hok => ?_
      obtain ⟨_, -, hok⟩ := Client.ok_of_bind hok
      exact (Prod.mk.inj (Except.ok.inj hok)).2.symm
  | putOutgoing scope command replaceRejected =>
      obtain ⟨now, h⟩ := h
      exact stores_rows h hrows fun a db hok => hrows.putOutgoing hok
  | acceptOutgoing scope message =>
      exact stores_rows h hrows fun a db hok =>
        hrows.acceptOutgoing (hneeds message List.mem_cons_self) hok
  | applyDeliveryReceipt scope receipt =>
      exact stores_rows h hrows fun a db hok => hrows.applyDeliveryReceipt hok
  | getSentMetadata scope id =>
      refine stores_read h hrows fun a db hok => ?_
      obtain ⟨_, -, hok⟩ := Client.ok_of_bind hok
      exact (Prod.mk.inj (Except.ok.inj hok)).2.symm
  | mergeSentMetadata scope message =>
      exact stores_rows h hrows fun a db hok =>
        (hrows.mergeSentMetadata hu (hneeds message List.mem_cons_self) hok).1
  | getOutgoingToRecover scope =>
      obtain ⟨fields₁, h, rfl⟩ := h
      have hrows₁ : SentRows server fields₁.db := by
        refine stores_read h hrows fun a db hok => ?_
        obtain ⟨_, -, hok⟩ := Client.ok_of_bind hok
        exact (Prod.mk.inj (Except.ok.inj hok)).2.symm
      cases r with
      | ok commands => exact hrows₁
      | error x => exact hrows₁
  | readChatReadStates scope =>
      refine stores_read h hrows fun a db hok => ?_
      obtain ⟨_, -, hok⟩ := Client.ok_of_bind hok
      exact (Prod.mk.inj (Except.ok.inj hok)).2.symm
  | findSentMessage id =>
      obtain rfl : fields' = _ := h
      split_ifs
      · exact hrows
      · exact hrows
  | sendMessage command => exact (show fields' = _ from h) ▸ hrows
  | recovery n => exact h.2 ▸ hrows
  | _ => exact (show fields' = fields from h) ▸ hrows

/-- What is read from the inbox is in it. -/
theorem stores_value {α : Type} {tx : Client.Transaction α} {fields fields' : Fields}
    {a : α} (h : fields.stores tx (.ok a) fields') : ∃ db, tx fields.db = .ok (a, db) := by
  obtain ⟨db, rfl, (⟨b, hok, hb⟩ | ⟨x, -, hx, -⟩) | ⟨-, reason, hx⟩⟩ := h
  · obtain rfl : a = b := Except.ok.inj hb
    exact ⟨db, hok⟩
  · cases hx
  · cases hx

theorem settles_gives {g : Promise} {fields : Fields} {a : g.Reply} (hinv : s.Inv T)
    (h : Client.Outgoing.settles g s.fields (.ok a) fields) (ha : s.Answered T iso t g a) :
    ∀ m ∈ gives g a, Genuine (world T s.now).db m := by
  cases g with
  | getOutgoing scope id =>
      obtain ⟨db, hok⟩ := stores_value h
      obtain ⟨_, -, hok⟩ := Client.ok_of_bind hok
      obtain ⟨rfl, -⟩ := Prod.mk.inj (Except.ok.inj hok)
      intro m hm
      simp only [gives, Option.mem_toList, Option.bind_eq_some_iff, Option.map_eq_some_iff] at hm
      obtain ⟨_, ⟨r, hr, rfl⟩, hm⟩ := hm
      exact (hinv.rows.accepted r (hinv.rows.row_at hr).1 m hm).1
  | getOutgoingToRecover scope =>
      obtain ⟨fields₁, h, -⟩ := h
      obtain ⟨db, hok⟩ := stores_value h
      obtain ⟨_, -, hok⟩ := Client.ok_of_bind hok
      obtain ⟨rfl, -⟩ := Prod.mk.inj (Except.ok.inj hok)
      intro m hm
      obtain ⟨_, hvalue, hm⟩ := List.mem_filterMap.mp hm
      obtain ⟨r, hr, rfl⟩ := List.mem_map.mp hvalue
      exact (hinv.rows.accepted r (List.mem_of_mem_filter hr) m hm).1
  | sendMessage command =>
      intro m hm
      obtain rfl := List.mem_singleton.mp hm
      exact Accepts.genuine ha
  | findSentMessage id =>
      intro m hm
      obtain ⟨principal, stored, began, hr, rfl⟩ := ha m (Option.mem_toList.mp hm)
      exact genuine_of_lookup hr
  | getSentMessages after =>
      obtain ⟨principal, p, began, hr, rfl⟩ := ha
      exact genuine_of_sentPage hr
  | _ =>
      intro m hm
      cases hm

variable (T iso t)

/-- A thread of a sender that has been told of the messages in the list. -/
abbrev Told {α : Type} (l : List SentMessage) (p : Async α) (Q : α → List SentMessage) : Prop :=
  Informed (genuine T) (Sender.exec T iso) t l p Q

variable {T iso t}

/-- What is awaited may be what has been told. -/
theorem told_await (g : Promise) :
    Told T iso t (needs g) (Client.Outgoing.await g) (gives g) := by
  refine Triple.eff (J := fun (r : Except JsError g.Reply) s => ∀ a, r = .ok a →
    (genuine T).all (gives g a) s) ((genuine T).all_lasting _).persists ?_
    fun _ => Triple.ofExcept (fun a ha _ h => h a ha) fun _ _ _ _ => trivial
  rintro s r s' hinv hneeds ⟨fields, hsettles, hanswered, rfl⟩
  have hu := (served_reporting T s.now).inv.wf.unique
  have hkeeps : (sendingDiscipline T).Keeps t s { s with fields := fields } :=
    keeps_of_rows hinv (settles_rows hu hinv.rows hneeds hsettles) rfl rfl
  refine ⟨hkeeps.trans (keeps_goesOn hkeeps.inv), fun a ha => ?_⟩
  subst ha
  have hgives := settles_gives hinv hsettles (hanswered a rfl)
  exact hgives

/-- A segment that leaves the inbox alone. -/
theorem told_segment {α : Type} {mark : Option Client.Outgoing.Mark} {f : Fields → α × Fields}
    (hf : ∀ fields, (f fields).2.db = fields.db) :
    Told T iso t [] (segment mark f : Async α) fun _ => [] := by
  refine Triple.eff (J := fun _ _ => True) ((genuine T).all_lasting _).persists ?_
    fun _ => Triple.pure fun _ _ => Evidence.all_nil
  rintro s a s' hinv - ⟨-, rfl⟩
  exact ⟨keeps_of_rows hinv ((hf s.fields).symm ▸ hinv.rows) rfl rfl, trivial⟩

theorem told_reads {α : Type} {f : Fields → Except JsError α} :
    Told T iso t [] (Client.Outgoing.reads f) fun _ => [] :=
  (told_segment fun _ => rfl).andThen fun _ => Informed.handOn

end Awaiting

/-! ## The functions of the manager -/

section Functions

variable {sec : Server.Security}
  {T : Timeline (Server.serverSystem sec) (Server.World.Initial sec)}
  {iso : Server.Instant → Client.Timestamp} {t : Tid} {scope : ScopeRef}
  {l : List SentMessage}

/-- A function that needs to be told nothing, of which nothing is learnt. -/
theorem told_quiet {α β : Type} {p : Async α} {f : α → Async β} {Q : β → List SentMessage}
    (hp : Told T iso t [] p fun _ => []) (hf : ∀ a, Told T iso t l (f a) Q) :
    Told T iso t l (p >>= f) Q :=
  (hp.mono (List.nil_subset l)).andThen hf

theorem told_sendCommand (command : Client.SendMessageRequest) :
    Told T iso t [] (Client.Outgoing.sendCommand command) fun a => [a] :=
  told_quiet (told_segment fun _ => rfl) fun _ => told_await (.sendMessage command)

theorem told_confirmOnce (command : Client.SendMessageRequest) :
    Told T iso t [] (Client.Outgoing.confirmOnce command scope) fun a => [a] := by
  unfold Client.Outgoing.confirmOnce
  refine (told_await (.getOutgoing scope.scope command.client_message_id)).bind fun stored => ?_
  refine told_quiet told_reads fun _ => ?_
  cases hstored : stored.bind (·.accepted) with
  | some accepted =>
      refine Informed.pure ?_
      simp [gives, hstored]
  | none =>
      refine Informed.mono ?_ (List.nil_subset _)
      refine (told_await (.findSentMessage command.client_message_id)).bind fun found => ?_
      refine told_quiet told_reads fun _ => ?_
      cases found with
      | some found =>
          refine Informed.pure ?_
          simp [gives]
      | none =>
          refine Informed.mono ?_ (List.nil_subset _)
          refine (told_await (.getOutgoing scope.scope command.client_message_id)).bind
            fun latest => told_quiet told_reads fun _ => ?_
          cases hlatest : latest.bind (·.accepted) with
          | some accepted =>
              refine Informed.pure ?_
              simp [gives, hlatest]
          | none => exact (told_sendCommand command).mono (List.nil_subset _)

theorem told_confirm (command : Client.SendMessageRequest) (attempts : List Nat) :
    Told T iso t [] (Client.Outgoing.confirm command scope attempts) fun a => [a] := by
  induction attempts with
  | nil => exact Informed.throw
  | cons attempt rest ih =>
      unfold Client.Outgoing.confirm
      split
      case' isTrue => refine told_quiet (told_await .timer) fun _ => ?_
      all_goals
        refine told_quiet told_reads fun _ => (told_confirmOnce command).attempt.bind fun r => ?_
        rcases r with x | accepted
        · simp only
          split
          · exact ih
          · exact Informed.throw
        · exact Informed.pure (List.subset_append_left _ _)

theorem told_sendAndConfirm (command : Client.SendMessageRequest) :
    Told T iso t [] (Client.Outgoing.sendAndConfirm command scope) fun a => [a] := by
  unfold Client.Outgoing.sendAndConfirm
  refine (told_sendCommand command).attempt.bind fun r => ?_
  rcases r with x | accepted
  · simp only
    split
    · exact told_confirm command _
    · exact Informed.throw
  · exact Informed.pure (List.subset_append_left _ _)

theorem told_decodeEach (commands : List OutgoingCommand) :
    Told T iso t [] (Client.Outgoing.decodeEach scope commands) fun _ => [] := by
  induction commands with
  | nil => exact Informed.pure (List.nil_subset _)
  | cons outgoing rest ih =>
      unfold Client.Outgoing.decodeEach
      refine told_quiet (told_segment fun _ => rfl) fun shown => ?_
      split
      · split
        · exact ih
        · refine told_quiet (told_await (.decodeIncoming _)) fun _ =>
            told_quiet told_reads fun same => ?_
          split
          · exact ih
          · exact Informed.pure (List.nil_subset _)
      · exact ih

theorem told_publishOutgoing (commands : List OutgoingCommand) :
    Told T iso t [] (Client.Outgoing.publishOutgoing commands scope) fun _ => [] := by
  unfold Client.Outgoing.publishOutgoing
  refine told_quiet (told_segment fun _ => rfl) fun handled => ?_
  split
  · refine told_quiet told_reads fun same => ?_
    split
    · refine told_quiet (told_decodeEach commands) fun decoded => ?_
      split
      · exact told_segment fun _ => rfl
      · exact Informed.pure (List.nil_subset _)
    · exact Informed.pure (List.nil_subset _)
  · exact told_segment fun _ => rfl

theorem told_outgoingChanged (outgoing : OutgoingCommand) (changes : Option Tid) :
    Told T iso t [] (Client.Outgoing.outgoingChanged outgoing scope changes) fun _ => [] := by
  cases changes with
  | some recovery => exact told_segment fun _ => rfl
  | none => exact told_publishOutgoing _

/-- The inbox does not change when deliveries are published. -/
theorem publishDeliveries_db (fields : Fields) : fields.publishDeliveries.db = fields.db := by
  unfold Client.Outgoing.Fields.publishDeliveries
  split
  · rfl
  · rfl

theorem told_sendOnce (command : Client.SendMessageRequest) (replaceRejected : Bool)
    (changes : Option Tid) :
    Told T iso t [] (Client.Outgoing.sendOnce scope command replaceRejected changes)
      fun a => [a] := by
  unfold Client.Outgoing.sendOnce
  refine told_quiet (told_segment fun _ => rfl) fun _ => ?_
  refine told_quiet (told_await (.putOutgoing scope.scope command replaceRejected))
    fun outgoing => ?_
  refine told_quiet (told_outgoingChanged outgoing changes) fun _ =>
    told_quiet told_reads fun _ => ?_
  refine (told_sendAndConfirm command).bind fun accepted => ?_
  refine (Informed.mono (told_await (.acceptOutgoing scope.scope accepted))
    (List.subset_append_left _ _)).andThen fun outgoing => ?_
  exact told_quiet (told_outgoingChanged outgoing changes) fun _ =>
    Informed.pure (List.subset_append_left _ _)

theorem told_sendAttempts (chatId content id : String) (changes : Option Tid) (attempts : Nat)
    (replaceRejected : Bool) :
    Told T iso t []
      (Client.Outgoing.sendAttempts scope chatId content id changes attempts replaceRejected)
      fun a => [a] := by
  induction attempts generalizing replaceRejected with
  | zero => exact Informed.throw
  | succ attempts ih =>
      unfold Client.Outgoing.sendAttempts
      refine told_quiet (told_await (.getDestinationDevices chatId)) fun destinationDevices => ?_
      split
      · exact Informed.throw
      · refine told_quiet (told_await (.buildOutgoing content destinationDevices))
          fun envelopes => ?_
        refine (told_sendOnce _ replaceRejected changes).attempt.bind fun r => ?_
        refine told_quiet (told_segment fun fields => publishDeliveries_db _) fun _ => ?_
        rcases r with x | accepted
        · simp only
          split
          · exact ih true
          · exact Informed.throw
        · exact Informed.pure (List.subset_append_left _ _)

theorem told_sendNewText (chatId content id : String) (replaceRejected : Bool)
    (changes : Option Tid) :
    Told T iso t [] (Client.Outgoing.sendNewText chatId content id replaceRejected changes)
      fun a => [a] :=
  told_quiet told_reads fun _ => told_sendAttempts chatId content id changes 2 replaceRejected

theorem told_confirmCommand (outgoing : OutgoingCommand) (changes : Option Tid) :
    Told T iso t outgoing.accepted.toList
      (Client.Outgoing.confirmCommand scope outgoing changes) fun a => [a] := by
  unfold Client.Outgoing.confirmCommand
  have hend : ∀ (l : List SentMessage) (accepted : SentMessage), accepted ∈ l →
      Told T iso t l (do
        let updated ← Client.Outgoing.await (.acceptOutgoing scope.scope accepted)
        if updated.accepted ≠ outgoing.accepted then
          Client.Outgoing.outgoingChanged updated scope changes
        return accepted : Async SentMessage) fun a => [a] := by
    intro l accepted hmem
    have hsub : [accepted] ⊆ l := List.cons_subset.mpr ⟨hmem, List.nil_subset l⟩
    refine (Informed.mono (told_await (.acceptOutgoing scope.scope accepted)) hsub).andThen
      fun updated => ?_
    split
    · exact told_quiet (told_outgoingChanged _ changes) fun _ => Informed.pure hsub
    · exact Informed.pure hsub
  refine Informed.bind (Informed.mono (told_await (.findSentMessage _)) (List.nil_subset _))
    fun found => told_quiet told_reads fun _ => ?_
  split
  · refine hend _ _ ?_
    simp [gives]
  · split
    · rename_i accepted haccepted
      refine hend _ accepted ?_
      simp [haccepted]
    · refine Informed.bind (Informed.mono (told_await (.getOutgoing scope.scope _))
        (List.nil_subset _)) fun latest => told_quiet told_reads fun _ => ?_
      split
      · rename_i accepted hlatest
        refine hend _ accepted ?_
        simp [gives, hlatest]
      · refine (Informed.mono (told_sendAndConfirm outgoing.command)
          (List.nil_subset _)).bind fun accepted => hend _ accepted ?_
        exact List.mem_cons_self

theorem told_resend (outgoing : OutgoingCommand) (changes : Option Tid) :
    Told T iso t [] (Client.Outgoing.resend scope outgoing changes) fun a => [a] := by
  unfold Client.Outgoing.resend
  refine told_quiet told_reads fun _ => ?_
  split
  · exact Informed.throw
  · exact told_quiet (told_await (.decodeIncoming _)) fun content =>
      told_quiet told_reads fun _ => told_sendNewText _ content _ true changes

/-- The outcome of a `try` is returned or thrown again. -/
theorem told_rethrow (r : Except JsError SentMessage) :
    Told T iso t (onReturn (fun a => [a]) r) (Prog.ofExcept r : Async SentMessage)
      fun a => [a] :=
  Informed.ofExcept (List.Subset.refl _)

theorem told_recoverTaken (outgoing : OutgoingCommand) (changes : Option Tid) :
    Told T iso t outgoing.accepted.toList
      (Client.Outgoing.recoverTaken t scope outgoing changes) fun a => [a] := by
  unfold Client.Outgoing.recoverTaken
  have hend : ∀ r : Except JsError SentMessage,
      Told T iso t (onReturn (fun a => [a]) r) (do
        segment none fun s => ((), (s.finish t outgoing.command.client_message_id).release
          outgoing.command.client_message_id)
        Prog.ofExcept r : Async SentMessage) fun a => [a] :=
    fun r => told_quiet (told_segment fun fields => publishDeliveries_db _) fun _ => told_rethrow r
  refine (told_confirmCommand outgoing changes).attempt.bind fun r => ?_
  rcases r with x | accepted
  · simp only
    split
    · exact (Informed.mono (told_resend outgoing changes).attempt (List.nil_subset _)).bind
        fun r => Informed.mono (hend r) (List.subset_append_left _ _)
    · exact Informed.mono (hend (.error x)) (List.nil_subset _)
  · exact Informed.mono (hend (.ok accepted)) (List.subset_append_left _ _)

theorem take_db (id : String) (fields : Fields) : (fields.take t id).2.db = fields.db := by
  unfold Client.Outgoing.Fields.take
  split
  · rfl
  · split
    · rfl
    · rfl

/-- A segment that may throw. -/
theorem told_orThrow {α : Type} {mark : Option Client.Outgoing.Mark}
    {f : Fields → Except JsError α × Fields} (hf : ∀ fields, (f fields).2.db = fields.db) :
    Told T iso t [] (do Prog.ofExcept (← segment mark f) : Async α) fun _ => [] :=
  (told_segment hf).andThen fun _ => Informed.handOn

theorem told_recoverCommand (outgoing : OutgoingCommand) (changes : Option Tid) :
    Told T iso t outgoing.accepted.toList
      (Client.Outgoing.recoverCommand t outgoing changes) fun a => [a] :=
  told_quiet (told_segment fun fields => take_db _ fields) fun r =>
    told_quiet Informed.handOn fun scope => told_recoverTaken outgoing changes

theorem told_sendNewMessage (chatId content id : String) :
    Told T iso t [] (Client.Outgoing.sendNewMessage t chatId content id) fun a => [a] := by
  unfold Client.Outgoing.sendNewMessage
  refine told_quiet (told_segment fun _ => rfl) fun _ => ?_
  refine (told_sendNewText chatId content id false none).attempt.bind fun r => ?_
  exact told_quiet (told_segment fun _ => rfl) fun _ =>
    Informed.mono (told_rethrow r) (List.subset_append_left _ _)

theorem told_sendText (chatId content : String) (clientMessageId : Option String)
    (created : String) :
    Told T iso t [] (Client.Outgoing.sendText t chatId content clientMessageId created)
      fun a => [a] := by
  unfold Client.Outgoing.sendText
  refine told_quiet told_reads fun scope => ?_
  split
  · exact told_sendNewMessage chatId content created
  · split
    · exact told_sendNewMessage chatId content _
    · refine (told_await (.getOutgoing scope.scope _)).bind fun existing =>
        told_quiet told_reads fun _ => ?_
      split
      · split
        · exact Informed.throw
        · exact Informed.mono (told_recoverCommand _ none) (List.subset_append_left _ _)
      · exact Informed.mono (told_sendNewMessage chatId content _) (List.nil_subset _)

theorem told_retryOutgoing (clientMessageId : String) :
    Told T iso t [] (Client.Outgoing.retryOutgoing t clientMessageId) fun _ => [] := by
  unfold Client.Outgoing.retryOutgoing
  refine told_quiet told_reads fun scope =>
    (told_await (.getOutgoing scope.scope clientMessageId)).bind fun outgoing =>
      told_quiet told_reads fun _ => ?_
  split
  · exact Informed.pure (List.nil_subset _)
  · exact (Informed.mono (told_recoverCommand _ none) (List.subset_append_left _ _)).andThen
      fun _ => Informed.pure (List.nil_subset _)

theorem takeNext_db (readStates : List Client.ChatReadState) (outgoing : OutgoingCommand)
    (fields : Fields) : (fields.takeNext t scope readStates outgoing).2.db = fields.db := by
  unfold Client.Outgoing.Fields.takeNext
  split
  · rfl
  · split
    · rfl
    · rfl

theorem told_recoverEach (readStates : List Client.ChatReadState)
    (commands : List OutgoingCommand) :
    Told T iso t (commands.filterMap (·.accepted))
      (Client.Outgoing.recoverEach t scope readStates commands) fun _ => [] := by
  induction commands with
  | nil => exact Informed.pure (List.nil_subset _)
  | cons outgoing rest ih =>
      have hone : outgoing.accepted.toList ⊆ (outgoing :: rest).filterMap (·.accepted) := by
        intro m hm
        exact List.mem_filterMap.mpr ⟨outgoing, List.mem_cons_self, Option.mem_toList.mp hm⟩
      have hrest : rest.filterMap (·.accepted) ⊆ (outgoing :: rest).filterMap (·.accepted) := by
        intro m hm
        obtain ⟨other, hother, hm⟩ := List.mem_filterMap.mp hm
        exact List.mem_filterMap.mpr ⟨other, List.mem_cons_of_mem _ hother, hm⟩
      unfold Client.Outgoing.recoverEach
      refine told_quiet (told_segment fun fields => takeNext_db _ _ fields) fun r => ?_
      refine told_quiet Informed.handOn fun taken => ?_
      split
      · refine (Informed.mono (told_recoverTaken outgoing (some t)).attempt hone).andThen
          fun r => ?_
        rcases r with x | accepted
        · exact told_quiet told_reads fun _ => ih.mono hrest
        · exact ih.mono hrest
      · exact ih.mono hrest

theorem told_recovery : Told T iso t [] (Client.Outgoing.recovery t scope) fun _ => [] := by
  unfold Client.Outgoing.recovery
  refine told_quiet (told_await (.readChatReadStates scope.scope)) fun readStates => ?_
  refine (told_await (.getOutgoingToRecover scope.scope)).bind fun commands => ?_
  refine told_quiet (told_segment fun _ => rfl) fun _ => ?_
  refine (Informed.mono (told_recoverEach readStates commands)
    (List.subset_append_left _ _)).andThen fun _ => ?_
  exact told_quiet (told_segment fun _ => rfl) fun changes =>
    Informed.mono (told_publishOutgoing changes) (List.nil_subset _)

theorem joinOrBegin_db (fields : Fields) : (fields.joinOrBegin t).2.db = fields.db := by
  unfold Client.Outgoing.Fields.joinOrBegin
  split
  · rfl
  · split
    · rfl
    · rfl

theorem told_recoverOutgoing :
    Told T iso t [] (Client.Outgoing.recoverOutgoing t) fun _ => [] := by
  unfold Client.Outgoing.recoverOutgoing
  refine told_quiet (told_segment joinOrBegin_db) fun r => ?_
  refine told_quiet Informed.handOn fun joined => ?_
  split
  · exact told_await (.recovery _)
  · refine told_recovery.attempt.andThen fun r => ?_
    exact told_quiet (told_segment fun fields => publishDeliveries_db _) fun _ => Informed.handOn

theorem queueMerged_db (accepted : SentMessage) (fields : Fields) :
    (Client.Outgoing.queueMerged scope accepted fields).2.db = fields.db := by
  unfold Client.Outgoing.queueMerged
  split
  · rfl
  · exact publishDeliveries_db _

theorem queueAccepted_db (accepted : SentMessage) (fields : Fields) :
    (Client.Outgoing.queueAccepted scope accepted fields).2.db = fields.db := by
  unfold Client.Outgoing.queueAccepted
  split
  · rfl
  · exact publishDeliveries_db _
  · rfl

theorem told_mergeEach (messages : List SentMessage) :
    Told T iso t messages (Client.Outgoing.mergeEach scope messages) fun _ => [] := by
  induction messages with
  | nil => exact Informed.pure (List.nil_subset _)
  | cons message rest ih =>
      unfold Client.Outgoing.mergeEach
      refine (Informed.mono (told_await (.mergeSentMetadata scope.scope message))
        (List.cons_subset_cons _ (List.nil_subset _))).andThen fun accepted => ?_
      refine told_quiet (told_segment fun fields => queueMerged_db accepted fields) fun r => ?_
      exact told_quiet Informed.handOn fun _ => ih.mono (List.subset_cons_self _ _)

theorem told_recoverSentMetadata :
    Told T iso t [] (Client.Outgoing.recoverSentMetadata scope) fun _ => [] := by
  unfold Client.Outgoing.recoverSentMetadata
  refine Informed.iterate fun after => ?_
  refine (told_await (.getSentMessages after)).bind fun page => ?_
  refine told_quiet told_reads fun _ => ?_
  refine (Informed.mono (told_mergeEach page.messages) (List.subset_append_left _ _)).andThen
    fun _ => ?_
  split
  · exact Informed.pure (List.nil_subset _)
  · split
    · exact Informed.throw
    · exact Informed.pure (List.nil_subset _)

theorem told_handleDeliveryReceipt (receipt : Client.MessageEnvelope) :
    Told T iso t [] (Client.Outgoing.handleDeliveryReceipt receipt) fun _ => [] := by
  have hqueue : ∀ (scope : ScopeRef) (accepted : SentMessage),
      Told T iso t [] (Client.Outgoing.queueReceipt scope accepted) fun _ => [] :=
    fun scope accepted => told_orThrow fun fields => queueAccepted_db accepted fields
  unfold Client.Outgoing.handleDeliveryReceipt
  refine told_quiet told_reads fun scope =>
    told_quiet (told_await (.applyDeliveryReceipt scope.scope receipt)) fun outgoing =>
      told_quiet told_reads fun same => ?_
  split
  · split
    · exact hqueue scope _
    · refine told_quiet (told_await (.getSentMetadata scope.scope receipt.message_id))
        fun metadata => ?_
      split
      · exact hqueue scope _
      · refine told_quiet told_recoverSentMetadata fun _ =>
          told_quiet (told_await (.getSentMetadata scope.scope receipt.message_id))
            fun metadata => ?_
        split
        · exact hqueue scope _
        · exact Informed.pure (List.nil_subset _)
  · exact Informed.pure (List.nil_subset _)

theorem told_handleAccepted (message : SentMessage) :
    Told T iso t [message] (Client.Outgoing.handleAccepted t message) fun _ => [] := by
  unfold Client.Outgoing.handleAccepted
  refine told_quiet told_reads fun scope => ?_
  refine (Informed.mono (told_await (.getOutgoing scope.scope message.clientMessageId))
    (List.nil_subset _)).andThen fun outgoing => told_quiet told_reads fun same => ?_
  split
  · split
    · refine told_quiet (told_segment fun _ => rfl) fun _ => ?_
      have hlate : Told T iso t [message] (Client.Outgoing.acceptLate scope message)
          fun _ => [] := by
        unfold Client.Outgoing.acceptLate
        refine Informed.andThen (told_await (.acceptOutgoing scope.scope message))
          fun updated => told_quiet told_reads fun same => ?_
        split
        · exact Informed.mono (told_outgoingChanged updated none) (List.nil_subset _)
        · exact Informed.pure (List.nil_subset _)
      exact hlate.attempt.andThen fun r =>
        told_quiet (told_segment fun _ => rfl) fun _ => Informed.handOn
    · exact Informed.pure (List.nil_subset _)
  · exact Informed.pure (List.nil_subset _)

/-- What a thread is told when it is started. -/
def opNeeds : Client.Outgoing.Op → List SentMessage
  | .accepted message => [message]
  | _ => []

theorem told_op (op : Client.Outgoing.Op) :
    Told T iso t (opNeeds op) (op.prog t) fun _ => [] := by
  cases op with
  | sendText chatId content clientMessageId created =>
      exact (told_sendText chatId content clientMessageId created).andThen fun _ =>
        Informed.pure (List.nil_subset _)
  | retryOutgoing clientMessageId => exact told_retryOutgoing clientMessageId
  | recoverOutgoing => exact told_recoverOutgoing
  | accepted message => exact told_handleAccepted message
  | delivered receipt => exact told_handleDeliveryReceipt receipt

end Functions

/-! ## Runs -/

section Runs

variable {sec : Server.Security}
  {T : Timeline (Server.serverSystem sec) (Server.World.Initial sec)}
  {iso : Server.Instant → Client.Timestamp}

theorem keeps_env {s s' : Sender} {t : Tid} (hinv : s.Inv T) (h : Sender.Env s s') :
    (sendingDiscipline T).Keeps t s s' := by
  cases h with
  | server =>
      exact ⟨⟨hinv.rows.grow (world_messages T (Nat.le_succ _)),
        fun u => (hinv.asked u).trans (Nat.le_succ _)⟩, Nat.le_succ _, fun _ _ => trivial⟩
  | signs h =>
      refine keeps_of_rows hinv ?_ rfl rfl
      rcases h with rfl | ⟨scope, rfl⟩
      · exact hinv.rows
      · exact hinv.rows
  | reload fields h => exact keeps_of_rows hinv (h.symm ▸ hinv.rows) rfl rfl
  | other db hout hmeta => exact keeps_of_rows hinv (hinv.rows.congr hout hmeta) rfl rfl

theorem respected_sender : (sendingDiscipline T).Respected (senderSystem T iso) where
  start := by
    rintro t op s s' hinv - ⟨rfl, hop⟩
    have hkeeps := keeps_goesOn (t := t) hinv
    refine ⟨hkeeps, (told_op op).ends (fun _ _ => trivial) (fun _ _ => trivial) hkeeps.inv ?_⟩
    intro m hm
    cases op with
    | accepted message =>
        obtain rfl := List.mem_singleton.mp hm
        obtain ⟨n, request, haccepts⟩ := hop
        exact Accepts.genuine haccepts
    | _ => cases hm
  stop := by
    rintro t s s' hinv rfl
    exact ⟨Keeps.refl hinv, trivial⟩
  env := fun s s' hinv h t => ⟨keeps_env hinv h, trivial⟩

theorem Sender.Initial.inv {s : Sender} (h : s.Initial T) : s.Inv T := by
  refine ⟨h.now.symm ▸ h.rows, fun t => ?_⟩
  rw [h.asked t]
  exact Nat.zero_le _

/-- **What is recorded as sent is true**, in every state of every run. -/
theorem reachable_sentRows {p : Pool Call Call.Answer JsError Sender}
    (hp : System.Reachable (senderSystem T iso) (Sender.Initial T) p) :
    SentRows (world T p.shared.now).db p.shared.fields.db :=
  (Discipline.sound respected_sender (fun _ h => ⟨h.inv, fun _ => trivial⟩) hp).inv.rows

end Runs

end Acceptance
end EndToEnd
end SecureMessenger

import SecureMessenger.Client.OutgoingManager
import SecureMessenger.Client.ReadCursorManager
import SecureMessenger.EndToEnd.Wire
import SecureMessenger.Lib.Outcomes
import SecureMessenger.Server.KeysetPages

/-!
# Walking the pages

The three endpoints with keyset pages, and the two loops of the client that
follow them.  Whatever the memory of the client looks like between two of its
steps, a loop that is served pages of one state of the database does not find
that paging has stopped.
-/

namespace SecureMessenger
namespace EndToEnd

open Lib
open Client (JsError)
open Lib.Prog (Ensures)

/-! ## Pages as the client receives them -/

section Served

variable (iso : Server.Instant → Client.Timestamp) (sec : Server.Security) (t : Tid)
  (db : Server.Db) (principal : Server.Principal)

/-- What `getSentMessages(after, 100, true)` receives from the state. -/
def SentServed (after : Option String) (page : Client.SentMessagesPage) : Prop :=
  ∃ w p w', Server.Still t db w ∧
    Evaluates (Server.quiet sec) t (Server.sent_page principal after 100 true) w (.ok p) w' ∧
    page = sentMessagesPage iso p

/-- What `getChatStates(after, 100)` receives from the state. -/
def StatesServed (after : Option String) (page : Client.ChatStatesPage) : Prop :=
  ∃ w p w', Server.Still t db w ∧
    Evaluates (Server.quiet sec) t (Server.states_page principal after 100) w (.ok p) w' ∧
    page = chatStatesPage iso p

/-- The cursor of a page with more to come leads on. -/
def LeadsOn (after next : Option String) : Prop :=
  ¬ (next = none ∨ next = some "" ∨ next = after)

variable {iso sec t db principal} {after : Option String}

/-- The last row of a page lies beyond the cursor. -/
theorem leadsOn_of_beyond {ρ : Type} {key : ρ → String} {r : ρ}
    (hbeyond : Keyset.beyond key after r = true) (htext : key r ≠ "") :
    LeadsOn after (some (key r)) := by
  rintro (hnone | hempty | hsame)
  · cases hnone
  · exact htext (Option.some.inj hempty)
  · subst hsame
    exact lt_irrefl _ (Keyset.beyond_some.mp hbeyond)

theorem SentServed.leadsOn (hk : Server.Keyed db) {page : Client.SentMessagesPage}
    (h : SentServed iso sec t db principal after page) (hmore : page.hasMore = true) :
    LeadsOn after page.nextMessageId := by
  obtain ⟨w, p, w', hw, hread, rfl⟩ := h
  have hserves := @Server.sent_serves sec t db principal 100 hk true
  obtain ⟨⟨past, hcalm⟩, -, hpage⟩ := hserves.page hw hread
  obtain ⟨r, hlast, hnext⟩ := hpage.last (by omega) hmore
  obtain ⟨hmem, hbeyond⟩ := Keyset.mem_page (List.mem_of_getLast? hlast)
  have hnext : p.next_message_id = some r.message.id := hnext
  rw [sentMessagesPage, hnext]
  refine leadsOn_of_beyond hbeyond ?_
  rw [hcalm.db] at hmem
  obtain ⟨m, hm, rfl⟩ := List.mem_map.mp hmem
  exact hk.message_text m (List.mem_filter.mp hm).1

theorem StatesServed.leadsOn (hk : Server.Keyed db) {page : Client.ChatStatesPage}
    (h : StatesServed iso sec t db principal after page) (hmore : page.hasMore = true) :
    LeadsOn after page.nextChatId := by
  obtain ⟨w, p, w', hw, hread, rfl⟩ := h
  have hserves := @Server.chatStates_serves sec t db principal 100 hk
  obtain ⟨⟨past, hcalm⟩, -, hpage⟩ := hserves.page hw hread
  obtain ⟨r, hlast, hnext⟩ := hpage.last (by omega) hmore
  obtain ⟨hmem, hbeyond⟩ := Keyset.mem_page (List.mem_of_getLast? hlast)
  have hnext : p.next_chat_id = some r.chat_id := hnext
  rw [chatStatesPage, hnext]
  refine leadsOn_of_beyond hbeyond ?_
  rw [hcalm.db] at hmem
  obtain ⟨c, hc, rfl⟩ := List.mem_map.mp hmem
  exact hk.chat_text c (List.mem_filter.mp hc).1

end Served

/-! ## The loops of the client -/

/-- What the two loops throw when a page leads nowhere. -/
def didNotAdvance : List JsError :=
  [.error "Sent metadata paging did not advance.", .error "Chat state paging did not advance"]

/-- The program does not end with one of these errors. -/
def Advances {α : Type} (o : Except JsError α) : Prop :=
  ∀ x, o = .error x → x ∉ didNotAdvance

theorem advances_ok {α : Type} (a : α) : Advances (.ok a) := by
  intro x h
  cases h

theorem advances_error {α : Type} {x : JsError} (h : x ∉ didNotAdvance) :
    Advances (.error x : Except JsError α) := by
  intro y hy
  obtain rfl := Except.error.inj hy
  exact h

theorem Advances.rethrow {α β : Type} {o : Except JsError α} (h : Advances o) (x : JsError)
    (hx : o = .error x) : Advances (.error x : Except JsError β) :=
  advances_error (h x hx)

section Sent

open Client.Outgoing

/-- Answers of the calls of `OutgoingManager`: a segment may find any memory,
the pages of sent messages are among `served`, and nothing that is awaited
throws one of the two errors. -/
def SentAnswers (served : Option String → Client.SentMessagesPage → Prop) :
    (c : Client.Outgoing.Call) → c.Answer → Prop
  | .segment _ f, a => ∃ s, a = (f s).1
  | .settle (.getSentMessages after), (r : Except JsError Client.SentMessagesPage) =>
      Advances r ∧ ∀ page, r = .ok page → served after page
  | .settle _, r => Advances r

variable {served : Option String → Client.SentMessagesPage → Prop}

theorem ensures_sent_await {g : Promise} :
    Ensures (SentAnswers served) (await g) (SentAnswers served (.settle g)) :=
  .eff fun _ hr => .ofExcept hr

theorem sentAnswers_advances {g : Promise} {r : Except JsError g.Reply}
    (h : SentAnswers served (.settle g) r) : Advances r := by
  cases g
  case getSentMessages => exact h.1
  all_goals exact h

theorem ensures_sent_segment {α : Type} {mark : Option Mark} {f : Fields → α × Fields} :
    Ensures (SentAnswers served) (segment mark f) fun o => ∃ s, o = .ok (f s).1 :=
  .eff fun _ hr => .ret (by
    obtain ⟨s, rfl⟩ := hr
    exact ⟨s, rfl⟩)

/-- The segments of the loop throw that there is no session, or another one. -/
theorem checkScope_advances (scope : Client.ScopeRef) (s : Fields) :
    Advances (s.checkScope scope) := by
  have hready : notReady ∉ didNotAdvance := by decide
  have hsession : sessionChanged ∉ didNotAdvance := by decide
  cases hscope : s.sameScope scope with
  | error x =>
      have hx : x = notReady := by
        unfold Fields.sameScope at hscope
        cases hc : s.current with
        | none => simpa [hc, eq_comm] using hscope
        | some current => simp [hc] at hscope
      simp only [Fields.checkScope, hscope, hx]
      exact advances_error hready
  | ok same =>
      cases same with
      | true =>
          simp only [Fields.checkScope, hscope]
          exact advances_ok ()
      | false =>
          simp only [Fields.checkScope, hscope]
          exact advances_error hsession

theorem ensures_checkScope (scope : Client.ScopeRef) :
    Ensures (SentAnswers served) (reads (·.checkScope scope)) Advances := by
  refine .bind (ensures_sent_segment.mono ?_)
  rintro o ⟨s, rfl⟩
  exact .ofExcept (checkScope_advances scope s)

theorem queueMerged_advances (scope : Client.ScopeRef) (accepted : Client.SentMessage)
    (s : Fields) : Advances (queueMerged scope accepted s).1 := by
  have h := checkScope_advances scope s
  unfold queueMerged
  cases hcheck : s.checkScope scope with
  | error x =>
      rw [hcheck] at h
      exact h
  | ok _ => exact advances_ok ()

theorem ensures_mergeEach (scope : Client.ScopeRef) (messages : List Client.SentMessage) :
    Ensures (SentAnswers served) (mergeEach scope messages) Advances := by
  induction messages with
  | nil => exact .ret (advances_ok ())
  | cons message rest ih =>
      unfold mergeEach
      refine .then (ensures_sent_await.mono fun o ho => (sentAnswers_advances ho).rethrow)
        fun accepted => .bind (ensures_sent_segment.mono ?_)
      rintro o ⟨s, rfl⟩
      have hqueue := queueMerged_advances scope accepted s
      exact .then (.ofExcept hqueue.rethrow) fun _ => ih

/-- **`recoverSentMetadata` finds its way.** -/
theorem ensures_recoverSentMetadata (scope : Client.ScopeRef)
    (hserved : ∀ after page, served after page → page.hasMore = true →
      LeadsOn after page.nextMessageId) :
    Ensures (SentAnswers served) (recoverSentMetadata scope) Advances := by
  refine Ensures.iterate (fun _ => True) (fun after _ => ?_) trivial
  refine .bind (ensures_sent_await.mono fun o ho => ?_)
  obtain ⟨hadvances, hpage⟩ := ho
  cases o with
  | error x => exact hadvances.rethrow x rfl
  | ok page =>
      refine .then ((ensures_checkScope scope).mono fun o ho => ho.rethrow) fun _ => ?_
      refine .then ((ensures_mergeEach scope page.messages).mono fun o ho => ho.rethrow) fun _ => ?_
      cases hmore : page.hasMore with
      | false =>
          rw [if_pos (by rfl)]
          exact .ret (advances_ok ())
      | true =>
          rw [if_neg (by simp), if_neg (hserved after page (hpage page rfl) hmore)]
          exact .ret trivial

end Sent

section States

open Client.Reads

/-- Answers of the calls of `ReadCursorManager`: a segment may find any memory,
the pages of chat states are among `served`, and nothing that is awaited throws
one of the two errors. -/
def StatesAnswers (served : Option String → Client.ChatStatesPage → Prop) :
    (c : Client.Reads.Call) → c.Answer → Prop
  | .segment _ f, a => ∃ s, a = (f s).1
  | .settle (.getChatStates after), (r : Except JsError Client.ChatStatesPage) =>
      Advances r ∧ ∀ page, r = .ok page → served after page
  | .settle _, r => Advances r

variable {served : Option String → Client.ChatStatesPage → Prop} {i : Nat}

theorem ensures_states_await {g : Promise} :
    Ensures (StatesAnswers served) (await g) (StatesAnswers served (.settle g)) :=
  .eff fun _ hr => .ofExcept hr

theorem statesAnswers_advances {g : Promise} {r : Except JsError g.Reply}
    (h : StatesAnswers served (.settle g) r) : Advances r := by
  cases g
  case getChatStates => exact h.1
  all_goals exact h

theorem ensures_onTab {α : Type} {f : Manager → α × Manager} :
    Ensures (StatesAnswers served) (onTab i f) fun o => ∃ m, o = .ok (f m).1 :=
  .eff fun _ hr => .ret (by
    obtain ⟨s, rfl⟩ := hr
    exact ⟨s.tabs i, rfl⟩)

/-- The segment throws at most that there is no session. -/
def Quiet {α : Type} (f : Manager → Except JsError α × Manager) : Prop :=
  ∀ m x, (f m).1 = .error x → x = notReady

theorem ensures_orThrow {α : Type} {f : Manager → Except JsError α × Manager} (hf : Quiet f) :
    Ensures (StatesAnswers served) (orThrow i f) Advances := by
  refine .bind (ensures_onTab.mono ?_)
  rintro o ⟨m, rfl⟩
  refine .ofExcept fun x hx => ?_
  rw [hf m x hx]
  decide

theorem quiet_scope : Quiet Manager.scope := by
  intro m x hx
  unfold Manager.scope at hx
  cases hs : m.session with
  | none => simpa [hs, eq_comm] using hx
  | some session =>
      simp only [hs] at hx
      split_ifs at hx

theorem quiet_ifSame (scope : Client.ScopeRef) (f : Manager → Manager) :
    Quiet (Manager.ifSame scope f) := by
  intro m x hx
  unfold Manager.ifSame Manager.sameScope at hx
  cases hs : m.session with
  | none => simpa [hs, eq_comm] using hx
  | some session =>
      simp only [hs] at hx
      cases hsame : decide (session = scope) <;> simp [hsame] at hx

theorem quiet_startFlush : Quiet startFlush := by
  intro m x hx
  have hscope := quiet_scope m x
  unfold startFlush at hx
  generalize m.scope = r at hx hscope
  obtain ⟨r, m'⟩ := r
  split_ifs at hx with hstop
  cases r with
  | ok scope => cases hx
  | error y =>
      obtain rfl := Except.error.inj hx
      exact hscope rfl

theorem ensures_ifSame {scope : Client.ScopeRef} {f : Manager → Manager} :
    Ensures (StatesAnswers served) (orThrow i (Manager.ifSame scope f)) Advances :=
  ensures_orThrow (quiet_ifSame scope f)

/-- Go on after a call that does not throw one of the errors. -/
theorem ensures_then {α β : Type} {p : Async α} {f : α → Async β}
    (hp : Ensures (StatesAnswers served) p Advances)
    (hf : ∀ a, Ensures (StatesAnswers served) (f a) Advances) :
    Ensures (StatesAnswers served) (p >>= f) Advances :=
  .then (hp.mono fun _ ho => ho.rethrow) hf

theorem ensures_settle {g : Promise} : Ensures (StatesAnswers served) (await g) Advances :=
  ensures_states_await.mono fun _ ho => statesAnswers_advances ho

theorem ensures_restore : Ensures (StatesAnswers served) (restore i) Advances :=
  ensures_then (ensures_orThrow quiet_scope) fun _ => ensures_then ensures_settle fun _ =>
    ensures_then ensures_ifSame fun _ => .ret (advances_ok ())

theorem ensures_merge (cursor : Client.ChatReadCursor) :
    Ensures (StatesAnswers served) (merge i cursor) Advances :=
  ensures_then (ensures_orThrow quiet_scope) fun _ => ensures_then ensures_settle fun _ =>
    ensures_then ensures_ifSame fun _ => .ret (advances_ok ())

theorem ensures_confirmRead (scope : Client.ScopeRef) (state : Client.ChatReadState) :
    Ensures (StatesAnswers served) (confirmRead i scope state) Advances := by
  refine ensures_then ensures_settle fun cursor => ensures_then ensures_ifSame fun same => ?_
  split
  · split
    · exact .throw (advances_error (by decide))
    · exact ensures_then (ensures_merge cursor) fun _ => .ret (advances_ok true)
  · exact .ret (advances_ok false)

theorem ensures_flushRound (scope : Client.ScopeRef) (state : Client.ChatReadState) :
    Ensures (StatesAnswers served) (flushRound i scope state) Advances := by
  have hrelease : ∀ outcome : Except JsError (Option Bool), Advances outcome →
      Ensures (StatesAnswers served) (onTab i (releaseFlush scope state.chatId) >>= fun _ =>
        Prog.ofExcept outcome) Advances := by
    intro outcome houtcome
    refine .bind (ensures_onTab.mono ?_)
    rintro o ⟨m, rfl⟩
    exact .ofExcept houtcome
  refine .bind (.attempt (.bind (.attempt ((ensures_confirmRead scope state).mono fun r _ => ?_))))
  rcases r with x | (_ | _)
  · refine Ensures.mono (Q := Advances) (ensures_then ensures_ifSame fun same => ?_) hrelease
    split <;> exact .ret (advances_ok _)
  · exact .ret (hrelease _ (advances_ok none))
  · exact .ret (hrelease _ (advances_ok (some false)))

theorem ensures_flush : Ensures (StatesAnswers served) (flush i) Advances := by
  refine ensures_then (ensures_orThrow quiet_startFlush) fun started => ?_
  cases started with
  | none => exact .ret (advances_ok ())
  | some scope =>
      refine Ensures.iterate (fun _ => True) (fun ⟨k, retry⟩ _ => ?_) trivial
      refine .bind (ensures_onTab.mono ?_)
      rintro o ⟨m, rfl⟩
      generalize (nextFlush k retry m).1 = step
      cases step with
      | finished => exact .ret (advances_ok ())
      | skip => exact .ret trivial
      | send state =>
          refine .then ((ensures_flushRound scope state).mono fun o ho => ho.rethrow)
            fun again => ?_
          cases again with
          | none => exact .ret (advances_ok ())
          | some again => exact .ret trivial

theorem ensures_mergeCursors (scope : Client.ScopeRef) (chatId : String)
    (cursors : List Client.ChatReadCursor) :
    Ensures (StatesAnswers served) (mergeCursors i scope chatId cursors) Advances := by
  induction cursors with
  | nil => exact .ret (advances_ok true)
  | cons cursor rest ih =>
      unfold mergeCursors
      split
      · exact .throw (advances_error (by decide))
      · refine ensures_then (ensures_merge cursor) fun _ => ensures_then ensures_ifSame
          fun same => ?_
        split
        · exact ih
        · exact .ret (advances_ok false)

theorem ensures_mergeStates (scope : Client.ScopeRef) (states : List Client.ChatStatesEntry) :
    Ensures (StatesAnswers served) (mergeStates i scope states) Advances := by
  induction states with
  | nil => exact .ret (advances_ok true)
  | cons state rest ih =>
      unfold mergeStates
      refine ensures_then (ensures_mergeCursors scope state.chatId state.readStates) fun same => ?_
      split
      · exact ih
      · exact .ret (advances_ok false)

theorem ensures_readPages (scope : Client.ScopeRef)
    (hserved : ∀ after page, served after page → page.hasMore = true →
      LeadsOn after page.nextChatId) :
    Ensures (StatesAnswers served) (readPages i scope) Advances := by
  refine Ensures.iterate (fun _ => True) (fun after _ => ?_) trivial
  refine .bind (ensures_states_await.mono fun o ho => ?_)
  obtain ⟨hadvances, hpage⟩ := ho
  cases o with
  | error x => exact hadvances.rethrow x rfl
  | ok page =>
      refine .then (ensures_ifSame.mono fun o ho => ho.rethrow) fun same => ?_
      cases same with
      | false => exact .ret (advances_ok false)
      | true =>
          refine .then ((ensures_mergeStates scope page.states).mono fun o ho => ho.rethrow)
            fun same => ?_
          cases same with
          | false => exact .ret (advances_ok false)
          | true =>
              cases hmore : page.hasMore with
              | false => exact .ret (advances_ok true)
              | true =>
                  simp only [if_true, Bool.not_true, Bool.false_eq_true, if_false]
                  rw [if_neg (hserved after page (hpage page rfl) hmore)]
                  exact .ret trivial

/-- **`synchronize` finds its way.** -/
theorem ensures_synchronize
    (hserved : ∀ after page, served after page → page.hasMore = true →
      LeadsOn after page.nextChatId) :
    Ensures (StatesAnswers served) (synchronize i) Advances := by
  refine ensures_then (ensures_orThrow quiet_scope) fun scope => ?_
  refine ensures_then ensures_restore fun _ => ensures_then ensures_ifSame fun same => ?_
  split
  · refine ensures_then (ensures_readPages scope hserved) fun same => ?_
    split
    · exact ensures_flush
    · exact .ret (advances_ok ())
  · exact .ret (advances_ok ())

end States

/-! ## Main result -/

/-- **Main result.**  In a database that stays as it is, the pages of a mailbox,
of sent messages and of chat states end, hold each row once in the order of the
keys, and are full but for the last; and the loops of the client do not find
that these pages lead nowhere. -/
theorem keyset_pages_cover_each_row_once (iso : Server.Instant → Client.Timestamp)
    (sec : Server.Security) (t : Tid) {db : Server.Db} (hk : Server.Keyed db)
    (principal : Server.Principal) {limit : Nat} (hlimit : 1 ≤ limit ∧ limit ≤ 100)
    {w : Server.World} (hw : Server.Still t db w) :
    Keyset.Endpoint.CoversOnce (Server.mailboxApi principal limit) (Server.quiet sec) t
        (·.envelope.mailbox_seq) limit (Server.Kept t db)
        (fun w => Server.mailboxEntries principal.device_id w.db) none w ∧
      (∀ unread_only, Keyset.Endpoint.CoversOnce (Server.sentApi principal unread_only limit)
        (Server.quiet sec) t (·.message.id) limit (Server.Still t db)
        (fun w => Server.sentMessages principal.user_id unread_only w.db) none w) ∧
      Keyset.Endpoint.CoversOnce (Server.chatStatesApi principal limit) (Server.quiet sec) t
        (·.chat_id) limit (Server.Still t db)
        (fun w => Server.chatStates principal.user_id w.db) none w ∧
      (∀ scope, Ensures (SentAnswers (SentServed iso sec t db principal))
        (Client.Outgoing.recoverSentMetadata scope) Advances) ∧
      ∀ i, Ensures (StatesAnswers (StatesServed iso sec t db principal))
        (Client.Reads.synchronize i) Advances := by
  have hpos : 0 < limit := hlimit.1
  have hkept : Server.Kept t db w := by
    obtain ⟨past, hcalm⟩ := hw
    exact ⟨db, past, hcalm, Server.PurgedFrom.refl db⟩
  refine ⟨?mailbox, fun unread_only => ?sent, ?states, fun scope => ?recover, fun i => ?sync⟩
  case mailbox => exact (Server.mailbox_serves hk).coversOnce hpos hkept fun _ _ => rfl
  case sent => exact (Server.sent_serves hk unread_only).coversOnce hpos hw fun _ _ => rfl
  case states => exact (Server.chatStates_serves hk).coversOnce hpos hw fun _ _ => rfl
  case recover => exact ensures_recoverSentMetadata scope fun _ _ h hmore => h.leadsOn hk hmore
  case sync => exact ensures_synchronize fun _ _ h hmore => h.leadsOn hk hmore

namespace Example

/-- Alice has sent two messages to Bob. -/
def talkDb : Server.Db :=
  { Server.Example.smallDb with
    mailboxes := [⟨"phone-a", 0⟩, ⟨"phone-b", 2⟩]
    chats := [⟨"chat", 2, "DIRECT"⟩]
    messages := [⟨"m2", "chat", "alice", "phone-a", "c2", 2, 0⟩,
      ⟨"m1", "chat", "alice", "phone-a", "c1", 1, 0⟩]
    envelopes :=
      [⟨"e2", "m2", "phone-b", "bob", 2, 0, "PLAINTEXT", some [⟨72, by decide⟩], 0, 9, none, none⟩,
        ⟨"e1", "m1", "phone-b", "bob", 1, 0, "PLAINTEXT", some [⟨73, by decide⟩], 0, 9, none,
          none⟩] }

theorem talkDb_keyed : Server.Keyed talkDb := by
  constructor <;> decide

def talkWorld : Server.World :=
  { Server.Example.smallWorld with db := talkDb }

theorem talkWorld_still : Server.Still 0 talkDb talkWorld :=
  ⟨[], rfl, rfl, rfl, fun _ _ _ => rfl⟩

end Example

/-- The pages of Bob's mailbox, one envelope each. -/
theorem keyset_pages_cover_each_row_once_talk :
    Keyset.Endpoint.CoversOnce (Server.mailboxApi ⟨"bob", "phone-b", "session-b"⟩ 1)
      (Server.quiet Server.Example.plainSecurity) 0 (·.envelope.mailbox_seq) 1
      (Server.Kept 0 Example.talkDb) (fun w => Server.mailboxEntries "phone-b" w.db) none
      Example.talkWorld :=
  (keyset_pages_cover_each_row_once (fun _ => ⟨"2026-01-01T00:00:00Z", by decide⟩)
    Server.Example.plainSecurity 0
    Example.talkDb_keyed ⟨"bob", "phone-b", "session-b"⟩ (by decide) Example.talkWorld_still).1

end EndToEnd
end SecureMessenger

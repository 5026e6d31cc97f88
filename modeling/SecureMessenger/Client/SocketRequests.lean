import SecureMessenger.Client.WebSocketManager

/-!
# Requests settle once and only by their own reply

`Sound` says of a trace that every entry was allowed to follow the entries
before it; `Inv` ties the pending requests, the timers and the connection to
the trace.  Each function keeps `Inv`, so it holds after any events.
-/

namespace SecureMessenger
namespace Client
namespace Socket

open Lib

/-- The map whose promises resolve to such a reply. -/
def Reply.kind : Reply → Kind
  | .message _ => .send
  | .envelope _ => .ack
  | .cursor _ => .read
  | .page _ => .sync

/-- The frame carries the request identifier and the reply. -/
def ServerEvent.Answers (requestId : String) (reply : Reply) : ServerEvent → Prop
  | .chatReadUpdated id data => id = some requestId ∧ reply = .cursor data
  | .messageDelivered id data => id = some requestId ∧ reply = .envelope data
  | .syncResponse id data => id = requestId ∧ reply = .page data
  | .messageAccepted id data => id = requestId ∧ reply = .message data
  | _ => False

/-- The connection has been confirmed. -/
def Authorized (socket : SocketId) (trace : List Entry) : Prop :=
  .received socket (some .authOk) ∈ trace

/-- What must have happened before an entry. -/
def Justified : Entry → List Entry → Prop
  | .requested id _, past => ∀ command, .requested id command ∉ past
  | .sent id command _, past => .requested id command ∈ past
  | .settled id settlement, past =>
      (∃ command, .requested id command ∈ past) ∧ (∀ other, .settled id other ∉ past) ∧
        ∀ reply, settlement = .resolved reply →
          ∃ socket frame command rest, past = .received socket (some frame) :: rest ∧
            frame.Answers id reply ∧ Authorized socket rest ∧ .sent id command socket ∈ rest ∧
              reply.kind = command.kind
  | .accepted id data, past =>
      (∀ other, .accepted id other ∉ past) ∧ .timedOut id ∈ past ∧
        (∃ error, .settled id (.rejected error) ∈ past) ∧
        (∃ command, .requested id (.sendMessage command) ∈ past ∧
          command.chat_id = data.chatId ∧ command.client_message_id = data.clientMessageId) ∧
        ∃ socket rest, past = .received socket (some (.messageAccepted id data)) :: rest ∧
          Authorized socket rest
  | .called .accepted handler payload, past =>
      ∃ calls id data rest, past = calls ++ .accepted id data :: rest ∧ payload = .accepted data ∧
        ∀ c ∈ calls, ∃ other, other ≠ handler ∧ c = .called .accepted other payload
  | _, _ => True

/-- Every entry was allowed. -/
def Sound : List Entry → Prop
  | [] => True
  | e :: past => Justified e past ∧ Sound past

theorem Sound.justified {trace past later : List Entry} {e : Entry} (h : Sound trace)
    (heq : trace = later ++ e :: past) : Justified e past := by
  subst heq
  induction later with
  | nil =>
      exact h.1
  | cons e' later ih =>
      exact ih h.2

/-- An identifier belongs to one command. -/
theorem Sound.requested_unique {trace : List Entry} (h : Sound trace) {id : String}
    {command command' : Command} (hc : .requested id command ∈ trace)
    (hc' : .requested id command' ∈ trace) : command = command' := by
  induction trace with
  | nil =>
      cases hc
  | cons e past ih =>
      obtain ⟨hj, hpast⟩ := h
      rcases List.mem_cons.mp hc with rfl | hold
      · rcases List.mem_cons.mp hc' with heq | hold'
        · cases heq
          rfl
        · exact absurd hold' (hj command')
      · rcases List.mem_cons.mp hc' with rfl | hold'
        · exact absurd hold (hj command)
        · exact ih hpast hold hold'

theorem Sound.requested_of_sent {trace : List Entry} (h : Sound trace) {id : String}
    {command : Command} {socket : SocketId} (hs : .sent id command socket ∈ trace) :
    .requested id command ∈ trace := by
  obtain ⟨later, past, rfl⟩ := List.append_of_mem hs
  exact List.mem_append_right _ (List.mem_cons_of_mem _ (h.justified rfl))

theorem Sound.requested_of_settled {trace : List Entry} (h : Sound trace) {id : String}
    {settlement : Settlement} (hs : .settled id settlement ∈ trace) :
    ∃ command, .requested id command ∈ trace := by
  obtain ⟨later, past, rfl⟩ := List.append_of_mem hs
  obtain ⟨⟨command, hc⟩, -⟩ := h.justified rfl
  exact ⟨command, List.mem_append_right _ (List.mem_cons_of_mem _ hc)⟩

/-- A promise settles in one way. -/
theorem Sound.settled_unique {trace : List Entry} (h : Sound trace) {id : String}
    {settlement settlement' : Settlement} (hs : .settled id settlement ∈ trace)
    (hs' : .settled id settlement' ∈ trace) : settlement = settlement' := by
  induction trace with
  | nil =>
      cases hs
  | cons e past ih =>
      obtain ⟨hj, hpast⟩ := h
      rcases List.mem_cons.mp hs with rfl | hold
      · rcases List.mem_cons.mp hs' with heq | hold'
        · cases heq
          rfl
        · exact absurd hold' (hj.2.1 settlement')
      · rcases List.mem_cons.mp hs' with rfl | hold'
        · exact absurd hold (hj.2.1 settlement)
        · exact ih hpast hold hold'

/-- What holds of the manager after any events. -/
structure Inv (m : Manager) : Prop where
  sound : Sound m.trace
  handlers : ∀ channel, (m.handlers channel).Nodup
  -- the connection
  fresh_socket : ∀ s, m.nextSocket ≤ s → m.sockets s = none
  active : ∀ s, m.socket = some s → m.active = true
  authorized : m.authenticated = true → ∃ s, m.socket = some s ∧ Authorized s m.trace
  connects_le : ∀ c ∈ m.connects, c.generation ≤ m.generation
  connects_nodup : (m.connects.map (·.generation)).Nodup
  connecting : ∀ c ∈ m.connects, c.generation = m.generation → m.socket = none
  -- the timers
  fresh_timer : ∀ t, m.nextTimer ≤ t → m.timers t = none
  auth_timer : ∀ t, m.authTimer = some t → t < m.nextTimer ∧
    ∀ timer, m.timers t = some timer → ∃ s g, timer = .auth s g
  reconnect_timer : ∀ t, m.reconnectTimer = some t → t < m.nextTimer ∧
    ∀ timer, m.timers t = some timer → ∃ r, timer = .reconnect r
  reconnect : ∀ t r, m.timers t = some (.reconnect r) → m.reconnectTimer = some t ∧
    m.active = true ∧ m.socket = none ∧ ∀ c ∈ m.connects, c.generation < m.generation
  request_timer : ∀ t command id, m.timers t = some (.request command id) →
    (m.pending command.kind).get id = some t
  -- the requests
  pending : ∀ k id t, (m.pending k).get id = some t → m.authenticated = true ∧ id ≠ "" ∧
    (∀ settlement, .settled id settlement ∉ m.trace) ∧
    ∃ command s, command.kind = k ∧ m.timers t = some (.request command id) ∧
      m.socket = some s ∧ .sent id command s ∈ m.trace
  unconfirmed : ∀ id c, m.unconfirmed.get id = some c → m.authenticated = true ∧
    .timedOut id ∈ m.trace ∧ (∃ error, .settled id (.rejected error) ∈ m.trace) ∧
    (∀ data, .accepted id data ∉ m.trace) ∧
    ∃ command : SendMessageRequest, .requested id (.sendMessage command) ∈ m.trace ∧
      c = ⟨command.chat_id, command.client_message_id⟩

/-! ## Entries that settle nothing -/

/-- Neither a settlement nor a late acceptance. -/
def Entry.Silent : Entry → Prop
  | .settled _ _ | .accepted _ _ => False
  | _ => True

section Keeps

variable {m : Manager}

theorem Inv.log (h : Inv m) {e : Entry} (hsilent : e.Silent) (hj : Justified e m.trace) :
    Inv (m.log e) := by
  have hsettled : ∀ {id settlement}, .settled id settlement ∉ m.trace →
      .settled id settlement ∉ e :: m.trace := by
    rintro id settlement hnot hmem
    rcases List.mem_cons.mp hmem with rfl | hmem
    · exact hsilent
    · exact hnot hmem
  have haccepted : ∀ {id data}, .accepted id data ∉ m.trace →
      .accepted id data ∉ e :: m.trace := by
    rintro id data hnot hmem
    rcases List.mem_cons.mp hmem with rfl | hmem
    · exact hsilent
    · exact hnot hmem
  exact { h with
    sound := ⟨hj, h.sound⟩
    authorized := by
      intro ha
      obtain ⟨s, hs, hok⟩ := h.authorized ha
      exact ⟨s, hs, List.mem_cons_of_mem _ hok⟩
    pending := by
      intro k id t hp
      obtain ⟨ha, hne, hnot, command, s, hk, ht, hs, hsent⟩ := h.pending k id t hp
      exact ⟨ha, hne, fun x => hsettled (hnot x), command, s, hk, ht, hs,
        List.mem_cons_of_mem _ hsent⟩
    unconfirmed := by
      intro id c hu
      obtain ⟨ha, ht, ⟨error, hr⟩, hnot, command, hc, hids⟩ := h.unconfirmed id c hu
      exact ⟨ha, List.mem_cons_of_mem _ ht, ⟨error, List.mem_cons_of_mem _ hr⟩,
        fun data => haccepted (hnot data), command, List.mem_cons_of_mem _ hc, hids⟩ }

/-- A request waits in one map. -/
theorem Inv.pending_unique (h : Inv m) {k k' : Kind} {id : String} {t t' : TimerId}
    (hp : (m.pending k).get id = some t) (hp' : (m.pending k').get id = some t') : k = k' := by
  obtain ⟨-, -, -, command, s, rfl, -, -, hsent⟩ := h.pending k id t hp
  obtain ⟨-, -, -, command', s', rfl, -, -, hsent'⟩ := h.pending k' id t' hp'
  rw [h.sound.requested_unique (h.sound.requested_of_sent hsent)
    (h.sound.requested_of_sent hsent')]

/-- **A pending request is settled and removed.** -/
theorem Inv.finish (h : Inv m) {k : Kind} {id : String} {t : TimerId} {settlement : Settlement}
    (hp : (m.pending k).get id = some t)
    (hj : ∀ reply, settlement = .resolved reply →
      ∃ socket frame command rest, m.trace = .received socket (some frame) :: rest ∧
        frame.Answers id reply ∧ Authorized socket rest ∧ .sent id command socket ∈ rest ∧
          reply.kind = command.kind) :
    Inv ((m.remove k id t).settle id settlement) := by
  obtain ⟨-, -, hnot, command, s, hk, ht, -, hsent⟩ := h.pending k id t hp
  have hrequested := h.sound.requested_of_sent hsent
  have htimer : ∀ t' timer, Function.update m.timers t none t' = some timer →
      t' ≠ t ∧ m.timers t' = some timer := by
    intro t' timer hget
    by_cases heq : t' = t
    · subst heq
      simp at hget
    · rw [Function.update_of_ne heq] at hget
      exact ⟨heq, hget⟩
  have hpending : ∀ k' id' t', (Function.update m.pending k ((m.pending k).delete id) k').get id' =
      some t' ↔ (m.pending k').get id' = some t' ∧ id' ≠ id := by
    intro k' id' t'
    by_cases hkk : k' = k
    · subst hkk
      rw [Function.update_self, Dict.get_delete]
      split_ifs with hid
      · simp [hid]
      · simp [Ne.symm hid]
    · rw [Function.update_of_ne hkk]
      refine ⟨fun hp' => ⟨hp', ?_⟩, fun hp' => hp'.1⟩
      rintro rfl
      exact hkk (h.pending_unique hp' hp)
  exact {
    sound := ⟨⟨⟨command, hrequested⟩, hnot, hj⟩, h.sound⟩
    handlers := h.handlers
    fresh_socket := h.fresh_socket
    active := h.active
    authorized := by
      intro ha
      obtain ⟨s, hs, hok⟩ := h.authorized ha
      exact ⟨s, hs, List.mem_cons_of_mem _ hok⟩
    connects_le := h.connects_le
    connects_nodup := h.connects_nodup
    connecting := h.connecting
    fresh_timer := by
      intro t' hle
      by_cases heq : t' = t
      · exact heq ▸ Function.update_self ..
      · exact (Function.update_of_ne heq ..).trans (h.fresh_timer t' hle)
    auth_timer := by
      intro t' hauth
      obtain ⟨hlt, hkind⟩ := h.auth_timer t' hauth
      exact ⟨hlt, fun timer hget => hkind timer (htimer t' timer hget).2⟩
    reconnect_timer := by
      intro t' hrec
      obtain ⟨hlt, hkind⟩ := h.reconnect_timer t' hrec
      exact ⟨hlt, fun timer hget => hkind timer (htimer t' timer hget).2⟩
    reconnect := fun t' r hget => h.reconnect t' r (htimer t' _ hget).2
    request_timer := by
      intro t' command' id' hget
      obtain ⟨hne, hget⟩ := htimer t' _ hget
      have hp' := h.request_timer t' command' id' hget
      refine (hpending _ _ _).mpr ⟨hp', ?_⟩
      rintro rfl
      -- the other timer of this identifier would be the same timer
      have hkk := h.pending_unique hp' hp
      rw [hkk, hp, Option.some.injEq] at hp'
      exact hne hp'.symm
    pending := by
      intro k' id' t' hp'
      obtain ⟨hp', hid⟩ := (hpending k' id' t').mp hp'
      obtain ⟨ha, hne, hnot', command', s', hk', ht', hs', hsent'⟩ := h.pending k' id' t' hp'
      refine ⟨ha, hne, fun x hx => ?_, command', s', hk', ?_, hs', List.mem_cons_of_mem _ hsent'⟩
      · rcases List.mem_cons.mp hx with heq | hx
        · cases heq
          exact hid rfl
        · exact hnot' x hx
      · have hdiff : t' ≠ t := by
          rintro rfl
          rw [ht, Option.some.injEq] at ht'
          cases ht'
          exact hid rfl
        exact (Function.update_of_ne hdiff ..).trans ht'
    unconfirmed := by
      intro id' c hu
      obtain ⟨ha, ht', ⟨error, hr⟩, hnot', command', hc, hids⟩ := h.unconfirmed id' c hu
      refine ⟨ha, List.mem_cons_of_mem _ ht', ⟨error, List.mem_cons_of_mem _ hr⟩,
        fun data hd => ?_, command', List.mem_cons_of_mem _ hc, hids⟩
      rcases List.mem_cons.mp hd with heq | hd
      · cases heq
      · exact hnot' data hd }

/-- **The requests of one map are rejected.** -/
theorem Inv.rejectAll (h : Inv m) (k : Kind) : Inv (m.rejectAll k) := by
  generalize hes : (m.pending k).entries = es
  induction es generalizing m with
  | nil =>
      have hsame : m.rejectAll k = m := by
        unfold Manager.rejectAll
        rw [hes, ← Dict.eq_empty hes, Function.update_eq_self]
        rfl
      rw [hsame]
      exact h
  | cons p rest ih =>
      obtain ⟨id, t⟩ := p
      have hget : (m.pending k).get id = some t := by
        rw [Dict.get_eq_some_iff, hes]
        exact List.mem_cons_self
      have hfinish : Inv ((m.remove k id t).settle id (.rejected (connectionLostError k))) :=
        h.finish hget fun reply heq => nomatch heq
      have hrest : (((m.remove k id t).settle id (.rejected (connectionLostError k))).pending
          k).entries = rest := by
        show (Function.update m.pending k ((m.pending k).delete id) k).entries = rest
        rw [Function.update_self]
        exact Dict.entries_delete_head hes
      have hsame : ((m.remove k id t).settle id (.rejected (connectionLostError k))).rejectAll k =
          m.rejectAll k := by
        unfold Manager.rejectAll
        rw [hrest, hes]
        simp [Manager.settle, Manager.log, Manager.remove, Manager.clearTimeout]
      exact hsame ▸ ih hfinish hrest

/-- No request waits and no send is unconfirmed. -/
structure Empty (m : Manager) : Prop where
  pending : ∀ k, m.pending k = .empty
  unconfirmed : m.unconfirmed = .empty

theorem Inv.rejectPending (h : Inv m) : Inv m.rejectPending := by
  have hforget : Inv { m with unconfirmed := .empty } :=
    { h with unconfirmed := fun id c hu => nomatch hu }
  exact (((hforget.rejectAll .read).rejectAll .ack).rejectAll .sync).rejectAll .send

theorem empty_rejectPending (m : Manager) : Empty m.rejectPending := by
  refine ⟨fun k => ?_, rfl⟩
  unfold Manager.rejectPending Manager.rejectAll
  cases k <;> simp [Function.update]

/-! ## Timers that are no request's -/

/-- Other timers are cleared. -/
theorem Inv.clearOthers (h : Inv m) {timers : TimerId → Option Timer}
    (hfewer : ∀ t timer, timers t = some timer → m.timers t = some timer)
    (hrequests : ∀ t command id, m.timers t = some (.request command id) →
      timers t = some (.request command id)) :
    Inv { m with timers := timers } :=
  { h with
    fresh_timer := by
      intro t hle
      cases hget : timers t with
      | none => exact hget
      | some timer => exact absurd (hfewer t timer hget) (by simp [h.fresh_timer t hle])
    auth_timer := fun t hauth => ⟨(h.auth_timer t hauth).1,
      fun timer hget => (h.auth_timer t hauth).2 timer (hfewer t timer hget)⟩
    reconnect_timer := fun t hrec => ⟨(h.reconnect_timer t hrec).1,
      fun timer hget => (h.reconnect_timer t hrec).2 timer (hfewer t timer hget)⟩
    reconnect := fun t r hget => h.reconnect t r (hfewer t _ hget)
    request_timer := fun t command id hget => h.request_timer t command id (hfewer t _ hget)
    pending := by
      intro k id t hp
      obtain ⟨ha, hne, hnot, command, s, hk, ht, hs, hsent⟩ := h.pending k id t hp
      exact ⟨ha, hne, hnot, command, s, hk, hrequests t command id ht, hs, hsent⟩ }

theorem cleared_some {timer : Option TimerId} {timers : TimerId → Option Timer} {t : TimerId}
    {x : Timer} (h : Manager.cleared timer timers t = some x) :
    timers t = some x ∧ timer ≠ some t := by
  unfold Manager.cleared at h
  split at h
  · rename_i t'
    by_cases heq : t = t'
    · subst heq
      simp at h
    · rw [Function.update_of_ne heq] at h
      exact ⟨h, fun hsame => heq (Option.some.inj hsame).symm⟩
  · exact ⟨h, fun hsame => nomatch hsame⟩

theorem cleared_of_ne {timer : Option TimerId} {timers : TimerId → Option Timer} {t : TimerId}
    (h : timer ≠ some t) : Manager.cleared timer timers t = timers t := by
  unfold Manager.cleared
  split
  · exact Function.update_of_ne (fun heq => h (congrArg some heq.symm)) ..
  · rfl

theorem Inv.clearAuthTimer (h : Inv m) : Inv m.clearAuthTimer := by
  have hcleared : Inv { m with timers := Manager.cleared m.authTimer m.timers } := by
    refine h.clearOthers (fun t timer hget => (cleared_some hget).1) fun t command id hget => ?_
    rw [cleared_of_ne, hget]
    intro hauth
    obtain ⟨s, g, heq⟩ := (h.auth_timer t hauth).2 _ hget
    cases heq
  exact { hcleared with auth_timer := fun t hauth => nomatch hauth }

theorem Inv.clearReconnectTimer (h : Inv m) : Inv m.clearReconnectTimer := by
  have hcleared : Inv { m with timers := Manager.cleared m.reconnectTimer m.timers } := by
    refine h.clearOthers (fun t timer hget => (cleared_some hget).1) fun t command id hget => ?_
    rw [cleared_of_ne, hget]
    intro hrec
    obtain ⟨r, heq⟩ := (h.reconnect_timer t hrec).2 _ hget
    cases heq
  exact { hcleared with
    reconnect_timer := fun t hrec => nomatch hrec
    reconnect := fun t r hget =>
      absurd (h.reconnect t r (cleared_some hget).1).1 (cleared_some hget).2 }

/-- No timer is about to reconnect. -/
def NoReconnect (m : Manager) : Prop :=
  ∀ t r, m.timers t ≠ some (.reconnect r)

theorem noReconnect_clearReconnectTimer (h : Inv m) : NoReconnect m.clearReconnectTimer :=
  fun t r hget => (cleared_some hget).2 (h.reconnect t r (cleared_some hget).1).1

/-! ## The connection -/

/-- The socket is gone. -/
theorem Inv.disconnect (h : Inv m) (he : Empty m) :
    Inv { m with socket := none, authenticated := false } :=
  { h with
    active := fun s hs => nomatch hs
    authorized := fun ha => nomatch ha
    connecting := fun _ _ _ => rfl
    reconnect := fun t r hget => ⟨(h.reconnect t r hget).1, (h.reconnect t r hget).2.1, rfl,
      (h.reconnect t r hget).2.2.2⟩
    pending := fun k id t hp => by
      rw [he.pending k] at hp
      cases hp
    unconfirmed := fun id c hu => by
      rw [he.unconfirmed] at hu
      cases hu }

/-- The manager is at rest, and what it awaited is outdated. -/
theorem Inv.shutdown (h : Inv m) (he : Empty m) (hn : NoReconnect m) :
    Inv { m with
      active := false
      generation := m.generation + 1
      authenticated := false
      retries := 0
      subscribed := false
      socket := none } :=
  { h.disconnect he with
    active := fun _ hs => nomatch hs
    connects_le := fun c hc => Nat.le_succ_of_le (h.connects_le c hc)
    connecting := fun _ _ _ => rfl
    reconnect := fun t r hget => absurd hget (hn t r) }

/-- What `stop` does before the requests are rejected. -/
def closing (m : Manager) : Manager :=
  match m.socket with
  | some socket => m.clearReconnectTimer.clearAuthTimer.log (.closing socket 1000)
  | none => m.clearReconnectTimer.clearAuthTimer

theorem stop_eq (m : Manager) : m.stop =
    { (closing m).rejectPending with
      active := false
      generation := m.generation + 1
      authenticated := false
      retries := 0
      subscribed := false
      socket := none } := by
  unfold Manager.stop closing
  cases m with
  | mk socket => cases socket <;> rfl

theorem Inv.closing (h : Inv m) : Inv (closing m) ∧ NoReconnect (closing m) := by
  have hn : NoReconnect m.clearReconnectTimer.clearAuthTimer :=
    fun t r hget => noReconnect_clearReconnectTimer h t r (cleared_some hget).1
  have hi := h.clearReconnectTimer.clearAuthTimer
  unfold Socket.closing
  cases m.socket with
  | some socket => exact ⟨hi.log trivial trivial, hn⟩
  | none => exact ⟨hi, hn⟩

theorem noReconnect_rejectAll (h : NoReconnect m) (k : Kind) : NoReconnect (m.rejectAll k) := by
  have hfold : ∀ (es : List (String × TimerId)) (timers : TimerId → Option Timer),
      (∀ t r, timers t ≠ some (Timer.reconnect r)) → ∀ t r,
        (es.foldl (fun (timers : TimerId → Option Timer) p =>
          Function.update timers p.2 none) timers) t ≠ some (Timer.reconnect r) := by
    intro es
    induction es with
    | nil =>
        exact fun _ hnone => hnone
    | cons p rest ih =>
        intro timers hnone
        refine ih _ fun t r hget => ?_
        dsimp only at hget
        by_cases heq : t = p.2
        · subst heq
          simp at hget
        · rw [Function.update_of_ne heq] at hget
          exact hnone t r hget
  exact hfold _ _ h

theorem Inv.stop (h : Inv m) : Inv m.stop := by
  obtain ⟨hc, hn⟩ := h.closing
  have hn' : NoReconnect (Socket.closing m).rejectPending :=
    noReconnect_rejectAll (noReconnect_rejectAll (noReconnect_rejectAll
      (noReconnect_rejectAll hn .read) .ack) .sync) .send
  have hgeneration : (Socket.closing m).generation = m.generation := by
    unfold Socket.closing
    cases m.socket <;> rfl
  have hs := hc.rejectPending.shutdown (empty_rejectPending _) hn'
  rw [stop_eq]
  rw [show (Socket.closing m).rejectPending.generation = m.generation from hgeneration] at hs
  exact hs

/-- A timer is the new one or was there before. -/
theorem Inv.timers_setTimeout (h : Inv m) {timer x : Timer} {t : TimerId}
    (hget : (m.setTimeout timer).timers t = some x) :
    (t = m.nextTimer ∧ x = timer) ∨ (t < m.nextTimer ∧ m.timers t = some x) := by
  have hget : Function.update m.timers m.nextTimer (some timer) t = some x := hget
  by_cases heq : t = m.nextTimer
  · rw [heq, Function.update_self, Option.some.injEq] at hget
    exact Or.inl ⟨heq, hget.symm⟩
  · rw [Function.update_of_ne heq] at hget
    have hlt : t < m.nextTimer := by
      by_contra hle
      rw [h.fresh_timer t (not_lt.mp hle)] at hget
      cases hget
    exact Or.inr ⟨hlt, hget⟩

/-- The earlier timers are still there. -/
theorem Inv.timers_setTimeout_of_some (h : Inv m) {timer x : Timer} {t : TimerId}
    (hget : m.timers t = some x) : (m.setTimeout timer).timers t = some x := by
  have hne : t ≠ m.nextTimer := by
    rintro rfl
    rw [h.fresh_timer _ (le_refl _)] at hget
    cases hget
  exact (Function.update_of_ne hne ..).trans hget

theorem Inv.fresh_setTimeout (h : Inv m) {timer : Timer} {t : TimerId}
    (hle : m.nextTimer + 1 ≤ t) : (m.setTimeout timer).timers t = none := by
  have hlt : m.nextTimer < t := Nat.lt_of_succ_le hle
  exact (Function.update_of_ne (ne_of_gt hlt) ..).trans (h.fresh_timer t (le_of_lt hlt))

/-- A timer that a field names keeps its kind. -/
theorem Inv.named_setTimeout (h : Inv m) {timer : Timer} {t : TimerId} {kind : Timer → Prop}
    (hold : t < m.nextTimer ∧ ∀ x, m.timers t = some x → kind x) :
    t < m.nextTimer + 1 ∧ ∀ x, (m.setTimeout timer).timers t = some x → kind x := by
  refine ⟨Nat.lt_succ_of_lt hold.1, fun x hget => ?_⟩
  rcases h.timers_setTimeout hget with ⟨heq, -⟩ | ⟨-, hget⟩
  · exact absurd heq (ne_of_lt hold.1)
  · exact hold.2 x hget

/-- The timer of a waiting request is still there. -/
theorem Inv.pending_setTimeout (h : Inv m) {timer : Timer} {k : Kind} {id : String} {t : TimerId}
    (hp : (m.pending k).get id = some t) : m.authenticated = true ∧ id ≠ "" ∧
      (∀ settlement, .settled id settlement ∉ m.trace) ∧
      ∃ command s, command.kind = k ∧
        (m.setTimeout timer).timers t = some (.request command id) ∧
        m.socket = some s ∧ .sent id command s ∈ m.trace := by
  obtain ⟨ha, hne, hnot, command, s, hk, ht, hs, hsent⟩ := h.pending k id t hp
  exact ⟨ha, hne, hnot, command, s, hk, h.timers_setTimeout_of_some ht, hs, hsent⟩

/-- Nothing is on its way to a socket. -/
structure Idle (m : Manager) : Prop where
  active : m.active = true
  socket : m.socket = none
  connects : ∀ c ∈ m.connects, c.generation < m.generation
  timers : NoReconnect m

theorem Inv.scheduleReconnect (h : Inv m) (hidle : Idle m) (refresh : Bool) :
    Inv (m.scheduleReconnect refresh) :=
  { h with
    fresh_timer := fun t hle => h.fresh_setTimeout hle
    auth_timer := fun t hauth => h.named_setTimeout (h.auth_timer t hauth)
    reconnect_timer := by
      intro t hrec
      obtain rfl : m.nextTimer = t := Option.some.inj hrec
      refine ⟨Nat.lt_succ_self _, fun x hget => ?_⟩
      rcases h.timers_setTimeout hget with ⟨-, rfl⟩ | ⟨hlt, -⟩
      · exact ⟨refresh, rfl⟩
      · exact absurd hlt (lt_irrefl _)
    reconnect := by
      intro t r hget
      rcases h.timers_setTimeout hget with ⟨rfl, -⟩ | ⟨-, hget⟩
      · exact ⟨rfl, hidle.active, hidle.socket, hidle.connects⟩
      · exact absurd hget (hidle.timers t r)
    request_timer := by
      intro t command id hget
      rcases h.timers_setTimeout hget with ⟨-, heq⟩ | ⟨-, hget⟩
      · cases heq
      · exact h.request_timer t command id hget
    pending := fun k id t hp => h.pending_setTimeout hp }

theorem Inv.connect (h : Inv m) (hsocket : m.socket = none) (htimers : NoReconnect m)
    (refresh : Bool) : Inv (m.connect refresh) :=
  { h with
    connects_le := by
      intro c hc
      rcases List.mem_append.mp hc with hc | hc
      · exact Nat.le_succ_of_le (h.connects_le c hc)
      · rw [List.mem_singleton.mp hc]
        exact le_refl _
    connects_nodup := by
      show ((m.connects ++ [_]).map _).Nodup
      rw [List.map_append, List.nodup_append]
      refine ⟨h.connects_nodup, List.nodup_singleton _, fun g hg g' hg' => ?_⟩
      obtain ⟨c, hc, rfl⟩ := List.mem_map.mp hg
      obtain rfl := List.mem_singleton.mp hg'
      have hle := h.connects_le c hc
      dsimp only
      omega
    connecting := fun _ _ _ => hsocket
    reconnect := fun t r hget => absurd hget (htimers t r) }

/-- Without a socket the connection is not confirmed. -/
theorem Inv.not_authenticated (h : Inv m) (hsocket : m.socket = none) :
    m.authenticated = false := by
  cases ha : m.authenticated with
  | false => rfl
  | true =>
      obtain ⟨s, hs, -⟩ := h.authorized ha
      rw [hsocket] at hs
      cases hs

/-- Without a confirmed connection nothing waits. -/
theorem Inv.empty (h : Inv m) (ha : m.authenticated = false) : Empty m := by
  have hget : ∀ {V : Type} (d : Dict String V), (∀ id v, d.get id ≠ some v) → d = .empty := by
    intro V d hnone
    refine Dict.eq_empty (List.eq_nil_iff_forall_not_mem.mpr fun p hp => ?_)
    exact hnone p.1 p.2 (Dict.get_eq_some_iff.mpr hp)
  constructor
  · intro k
    refine hget _ fun id t hp => ?_
    have htrue := (h.pending k id t hp).1
    rw [ha] at htrue
    cases htrue
  · refine hget _ fun id c hu => ?_
    have htrue := (h.unconfirmed id c hu).1
    rw [ha] at htrue
    cases htrue

theorem Inv.erase (h : Inv m) (c : Connect) : Inv { m with connects := m.connects.erase c } :=
  { h with
    connects_le := fun c' hc' => h.connects_le c' (List.mem_of_mem_erase hc')
    connects_nodup := h.connects_nodup.sublist (List.erase_sublist.map _)
    connecting := fun c' hc' => h.connecting c' (List.mem_of_mem_erase hc')
    reconnect := fun t r hget => ⟨(h.reconnect t r hget).1, (h.reconnect t r hget).2.1,
      (h.reconnect t r hget).2.2.1,
      fun c' hc' => (h.reconnect t r hget).2.2.2 c' (List.mem_of_mem_erase hc')⟩ }

/-- The other connects are outdated. -/
theorem Inv.others_outdated (h : Inv m) {c : Connect} (hc : c ∈ m.connects)
    (hcurrent : c.generation = m.generation) :
    ∀ c' ∈ m.connects.erase c, c'.generation < m.generation := by
  intro c' hc'
  refine lt_of_le_of_ne (h.connects_le c' (List.mem_of_mem_erase hc')) fun heq => ?_
  have hperm := (List.perm_cons_erase hc).map (·.generation)
  have hnodup := hperm.nodup_iff.mp h.connects_nodup
  rw [List.map_cons, List.nodup_cons] at hnodup
  exact hnodup.1 (List.mem_map.mpr ⟨c', hc', heq.trans hcurrent.symm⟩)

/-- While a connect is current no timer is about to reconnect. -/
theorem Inv.noReconnect (h : Inv m) {c : Connect} (hc : c ∈ m.connects)
    (hcurrent : c.generation = m.generation) : NoReconnect m := by
  intro t r hget
  have hlt := (h.reconnect t r hget).2.2.2 c hc
  omega

/-- **A connect has its socket.** -/
theorem Inv.connected (h : Inv m) {c : Connect} (hc : c ∈ m.connects) :
    Inv (Manager.connected c { m with connects := m.connects.erase c }) := by
  have he := h.erase c
  unfold Manager.connected
  split_ifs with houtdated
  · exact he
  · push Not at houtdated
    obtain ⟨hactive, hcurrent⟩ := houtdated
    have hsocket := h.connecting c hc hcurrent
    have ha := h.not_authenticated hsocket
    have hempty := h.empty ha
    exact { he with
      fresh_socket := by
        intro s hle
        have hlt : m.nextSocket < s := Nat.lt_of_succ_le hle
        exact (Function.update_of_ne (ne_of_gt hlt) ..).trans (h.fresh_socket s (le_of_lt hlt))
      active := fun _ _ => eq_true_of_ne_false hactive
      authorized := fun htrue => absurd (ha.symm.trans htrue) Bool.false_ne_true
      connecting := fun c' hc' heq =>
        absurd heq (ne_of_lt (h.others_outdated hc hcurrent c' hc'))
      fresh_timer := fun t hle => he.fresh_setTimeout hle
      auth_timer := by
        intro t hauth
        obtain rfl : m.nextTimer = t := Option.some.inj hauth
        refine ⟨Nat.lt_succ_self _, fun x hget => ?_⟩
        rcases he.timers_setTimeout hget with ⟨-, rfl⟩ | ⟨hlt, -⟩
        · exact ⟨_, _, rfl⟩
        · exact absurd hlt (lt_irrefl _)
      reconnect_timer := fun t hrec => he.named_setTimeout (he.reconnect_timer t hrec)
      reconnect := by
        intro t r hget
        rcases he.timers_setTimeout hget with ⟨-, heq⟩ | ⟨-, hget⟩
        · cases heq
        · exact absurd hget (h.noReconnect hc hcurrent t r)
      request_timer := by
        intro t command id hget
        rcases he.timers_setTimeout hget with ⟨-, heq⟩ | ⟨-, hget⟩
        · cases heq
        · exact h.request_timer t command id hget
      pending := by
        intro k id t hp
        have hp : (m.pending k).get id = some t := hp
        rw [hempty.pending k] at hp
        cases hp
      unconfirmed := by
        intro id c hu
        have hu : m.unconfirmed.get id = some c := hu
        rw [hempty.unconfirmed] at hu
        cases hu }

theorem Inv.connectFailed (h : Inv m) {c : Connect} (hc : c ∈ m.connects) (status : Option ℤ) :
    Inv (Manager.connectFailed c status { m with connects := m.connects.erase c }) := by
  have he := h.erase c
  unfold Manager.connectFailed
  by_cases houtdated : m.active = false ∨ c.generation ≠ m.generation
  · rw [if_pos houtdated]
    exact he
  · rw [if_neg houtdated]
    push Not at houtdated
    obtain ⟨hactive, hcurrent⟩ := houtdated
    have hidle : Idle { m with connects := m.connects.erase c } :=
      ⟨eq_true_of_ne_false hactive, h.connecting c hc hcurrent, h.others_outdated hc hcurrent,
        h.noReconnect hc hcurrent⟩
    cases status with
    | none => exact he.scheduleReconnect hidle _
    | some status =>
        dsimp only
        split_ifs
        · exact he.stop
        · exact he.scheduleReconnect hidle _

theorem Manager.current_iff {socket : SocketId} : m.current socket = true ↔
    m.active = true ∧ m.sockets socket = some m.generation ∧ m.socket = some socket := by
  simp [Manager.current, and_assoc]

/-- While there is a socket nothing is on its way to another. -/
theorem Inv.connects_outdated (h : Inv m) {s : SocketId} (hs : m.socket = some s) :
    ∀ c ∈ m.connects, c.generation < m.generation := by
  intro c hc
  refine lt_of_le_of_ne (h.connects_le c hc) fun heq => ?_
  rw [h.connecting c hc heq] at hs
  cases hs

theorem Inv.noReconnect_of_socket (h : Inv m) {s : SocketId} (hs : m.socket = some s) :
    NoReconnect m := by
  intro t r hget
  rw [(h.reconnect t r hget).2.2.1] at hs
  cases hs

theorem Inv.onclose (h : Inv m) (socket : SocketId) (code : Nat) : Inv (m.onclose socket code) := by
  unfold Manager.onclose
  by_cases hcurrent : m.current socket = true
  · rw [hcurrent]
    obtain ⟨hactive, -, hs⟩ := Manager.current_iff.mp hcurrent
    have hn : NoReconnect m.clearAuthTimer.rejectPending :=
      noReconnect_rejectAll (noReconnect_rejectAll (noReconnect_rejectAll
        (noReconnect_rejectAll (fun t r hget =>
          h.noReconnect_of_socket hs t r (cleared_some hget).1) .read) .ack) .sync) .send
    -- the fields that `rejectPending` does not read may as well change after it
    have hclosed : Inv (Manager.rejectPending
        (Manager.clearAuthTimer { m with socket := none, authenticated := false })) :=
      h.clearAuthTimer.rejectPending.disconnect (empty_rejectPending _)
    have hidle : Idle (Manager.rejectPending
        (Manager.clearAuthTimer { m with socket := none, authenticated := false })) :=
      ⟨hactive, rfl, h.connects_outdated hs, hn⟩
    dsimp only
    split_ifs
    · rename_i hfalse
      cases hfalse
    · exact hclosed.stop
    · exact hclosed.scheduleReconnect hidle _
  · rw [Bool.not_eq_true] at hcurrent
    rw [hcurrent]
    exact h

theorem Inv.start (h : Inv m) : Inv m.start := by
  unfold Manager.start
  by_cases hactive : m.active = true
  · rw [if_pos hactive]
    exact h
  · rw [if_neg hactive]
    have hsocket : m.socket = none := by
      cases hs : m.socket with
      | none => rfl
      | some s => exact absurd (h.active s hs) hactive
    have hn : NoReconnect m := fun t r hget => hactive (h.reconnect t r hget).2.1
    have ha : Inv { m with active := true, subscribed := true } :=
      { h with
        active := fun _ _ => rfl
        reconnect := fun t r hget => absurd hget (hn t r) }
    exact ha.connect hsocket hn false

/-! ## Handlers -/

/-- Handlers other than those of late acceptances are run. -/
theorem Inv.call (h : Inv m) {channel : Channel} (hchannel : channel ≠ .accepted)
    (payload : Payload) : Inv (m.call channel payload) := by
  have hcalls : ∀ (handlers : List HandlerId) {m : Manager}, Inv m →
      Inv { m with
        trace := handlers.foldl
          (fun trace handler => .called channel handler payload :: trace) m.trace } := by
    intro handlers
    induction handlers with
    | nil =>
        exact fun h => h
    | cons handler rest ih =>
        intro m h
        refine ih (h.log (e := .called channel handler payload) trivial ?_)
        cases channel with
        | accepted => exact absurd rfl hchannel
        | message => trivial
        | delivered => trivial
        | read => trivial
        | ready => trivial
  exact hcalls (m.handlers channel) h

/-- **The handlers of a late acceptance are run, each once.** -/
theorem Inv.callAccepted (h : Inv m) {id : String} {data : SentMessage} {rest : List Entry}
    (htrace : m.trace = .accepted id data :: rest) :
    Inv (m.call .accepted (.accepted data)) := by
  have hcalls : ∀ (handlers : List HandlerId) (calls : List Entry) {m : Manager}, Inv m →
      handlers.Nodup → m.trace = calls ++ .accepted id data :: rest →
      (∀ c ∈ calls, ∃ other, other ∉ handlers ∧ c = .called .accepted other (.accepted data)) →
      Inv { m with
        trace := handlers.foldl
          (fun trace handler => .called .accepted handler (.accepted data) :: trace) m.trace } := by
    intro handlers
    induction handlers with
    | nil =>
        exact fun _ _ h _ _ _ => h
    | cons handler handlers ih =>
        intro calls m h hnodup htrace hcalls
        rw [List.nodup_cons] at hnodup
        have hlogged : Inv (m.log (.called .accepted handler (.accepted data))) := by
          refine h.log trivial ⟨calls, id, data, rest, htrace, rfl, fun c hc => ?_⟩
          obtain ⟨other, hother, rfl⟩ := hcalls c hc
          refine ⟨other, ?_, rfl⟩
          rintro rfl
          exact hother List.mem_cons_self
        refine ih (.called .accepted handler (.accepted data) :: calls) hlogged hnodup.2 ?_ ?_
        · exact congrArg _ htrace
        · intro c hc
          rcases List.mem_cons.mp hc with rfl | hc
          · exact ⟨handler, hnodup.1, rfl⟩
          · obtain ⟨other, hother, rfl⟩ := hcalls c hc
            exact ⟨other, fun hmem => hother (List.mem_cons_of_mem _ hmem), rfl⟩
  exact hcalls _ [] h (h.handlers .accepted) htrace fun c hc => nomatch hc

theorem Inv.subscribe (h : Inv m) (channel : Channel) (handler : HandlerId) :
    Inv (m.subscribe channel handler) :=
  { h with
    handlers := by
      intro channel'
      by_cases heq : channel' = channel
      · subst heq
        show (Function.update m.handlers channel' _ channel').Nodup
        rw [Function.update_self]
        split_ifs with hmem
        · exact h.handlers channel'
        · rw [← List.concat_eq_append]
          exact (h.handlers channel').concat hmem
      · show (Function.update m.handlers channel _ channel').Nodup
        rw [Function.update_of_ne heq]
        exact h.handlers channel' }

theorem Inv.unsubscribe (h : Inv m) (channel : Channel) (handler : HandlerId) :
    Inv (m.unsubscribe channel handler) :=
  { h with
    handlers := by
      intro channel'
      by_cases heq : channel' = channel
      · subst heq
        show (Function.update m.handlers channel' _ channel').Nodup
        rw [Function.update_self]
        exact (h.handlers channel').filter _
      · show (Function.update m.handlers channel _ channel').Nodup
        rw [Function.update_of_ne heq]
        exact h.handlers channel' }

/-! ## Requests -/

/-- A request that does not wait is rejected. -/
theorem Inv.refuse (h : Inv m) {id : String} {command : Command} (error : SocketError)
    (hrequested : .requested id command ∈ m.trace)
    (hsettled : ∀ settlement, .settled id settlement ∉ m.trace)
    (hpending : ∀ k, (m.pending k).get id = none) : Inv (m.settle id (.rejected error)) :=
  { h with
    sound := ⟨⟨⟨command, hrequested⟩, hsettled, fun _ heq => nomatch heq⟩, h.sound⟩
    authorized := by
      intro ha
      obtain ⟨s, hs, hok⟩ := h.authorized ha
      exact ⟨s, hs, List.mem_cons_of_mem _ hok⟩
    pending := by
      intro k id' t hp
      obtain ⟨ha, hne, hnot, command, s, hk, ht, hs, hsent⟩ := h.pending k id' t hp
      refine ⟨ha, hne, fun x hx => ?_, command, s, hk, ht, hs, List.mem_cons_of_mem _ hsent⟩
      rcases List.mem_cons.mp hx with heq | hx
      · cases heq
        have hp : (m.pending k).get id = some t := hp
        rw [hpending k] at hp
        cases hp
      · exact hnot x hx
    unconfirmed := by
      intro id' c hu
      obtain ⟨ha, ht, ⟨error, hr⟩, hnot, command, hc, hids⟩ := h.unconfirmed id' c hu
      refine ⟨ha, List.mem_cons_of_mem _ ht, ⟨error, List.mem_cons_of_mem _ hr⟩,
        fun data hd => ?_, command, List.mem_cons_of_mem _ hc, hids⟩
      rcases List.mem_cons.mp hd with heq | hd
      · cases heq
      · exact hnot data hd }

/-- A new identifier waits nowhere. -/
theorem Inv.get_of_fresh (h : Inv m) {id : String}
    (hfresh : ∀ command, .requested id command ∉ m.trace) (k : Kind) :
    (m.pending k).get id = none := by
  cases hp : (m.pending k).get id with
  | none => rfl
  | some t =>
      obtain ⟨-, -, -, command, s, -, -, -, hsent⟩ := h.pending k id t hp
      exact absurd (h.sound.requested_of_sent hsent) (hfresh command)

theorem Inv.not_settled_of_fresh (h : Inv m) {id : String}
    (hfresh : ∀ command, .requested id command ∉ m.trace) (settlement : Settlement) :
    .settled id settlement ∉ m.trace := by
  intro hs
  obtain ⟨command, hc⟩ := h.sound.requested_of_settled hs
  exact hfresh command hc

/-- The number of a timer is not used. -/
theorem Inv.skipTimer (h : Inv m) : Inv { m with nextTimer := m.nextTimer + 1 } :=
  { h with
    fresh_timer := fun t hle => h.fresh_timer t (Nat.le_of_succ_le hle)
    auth_timer := fun t hauth => ⟨Nat.lt_succ_of_lt (h.auth_timer t hauth).1,
      (h.auth_timer t hauth).2⟩
    reconnect_timer := fun t hrec => ⟨Nat.lt_succ_of_lt (h.reconnect_timer t hrec).1,
      (h.reconnect_timer t hrec).2⟩ }

/-- **A request waits on the current socket.** -/
theorem Inv.wait (h : Inv m) {id : String} {command : Command} {s : SocketId} (hid : id ≠ "")
    (ha : m.authenticated = true) (hs : m.socket = some s)
    (hrequested : .requested id command ∈ m.trace)
    (hsettled : ∀ settlement, .settled id settlement ∉ m.trace)
    (hpending : ∀ k, (m.pending k).get id = none) :
    Inv ({ m.setTimeout (.request command id) with
      pending := Function.update m.pending command.kind
        ((m.pending command.kind).set id m.nextTimer) }.log (.sent id command s)) := by
  have hget : ∀ k id' t, (Function.update m.pending command.kind
      ((m.pending command.kind).set id m.nextTimer) k).get id' = some t →
      (k = command.kind ∧ id' = id ∧ t = m.nextTimer) ∨
        (id' ≠ id ∧ (m.pending k).get id' = some t) := by
    intro k id' t hp
    have hold : (m.pending k).get id' = some t → id' ≠ id := by
      intro hp' heq
      rw [heq, hpending k] at hp'
      cases hp'
    by_cases hk : k = command.kind
    · subst hk
      rw [Function.update_self, Dict.get_set] at hp
      split_ifs at hp with heq
      · exact Or.inl ⟨rfl, heq.symm, (Option.some.inj hp).symm⟩
      · exact Or.inr ⟨hold hp, hp⟩
    · rw [Function.update_of_ne hk] at hp
      exact Or.inr ⟨hold hp, hp⟩
  have hlogged := h.log (e := .sent id command s) trivial hrequested
  exact { hlogged with
    fresh_timer := fun t hle => h.fresh_setTimeout hle
    auth_timer := fun t hauth => h.named_setTimeout (h.auth_timer t hauth)
    reconnect_timer := fun t hrec => h.named_setTimeout (h.reconnect_timer t hrec)
    reconnect := by
      intro t r hrec
      rcases h.timers_setTimeout hrec with ⟨-, heq⟩ | ⟨-, hrec⟩
      · cases heq
      · exact h.reconnect t r hrec
    request_timer := by
      intro t command' id' ht
      show (Function.update m.pending _ _ command'.kind).get id' = some t
      rcases h.timers_setTimeout ht with ⟨rfl, heq⟩ | ⟨-, ht⟩
      · cases heq
        rw [Function.update_self, Dict.get_set_self]
      · have hp := h.request_timer t command' id' ht
        by_cases hk : command'.kind = command.kind
        · have hne : id ≠ id' := by
            rintro rfl
            rw [hpending] at hp
            cases hp
          rw [hk, Function.update_self, Dict.get_set, if_neg hne, ← hk]
          exact hp
        · rw [Function.update_of_ne hk]
          exact hp
    pending := by
      intro k id' t hp
      rcases hget k id' t hp with ⟨rfl, rfl, rfl⟩ | ⟨hne, hp⟩
      · refine ⟨ha, hid, fun x hx => ?_, command, s, rfl, Function.update_self .., hs,
          List.mem_cons_self⟩
        rcases List.mem_cons.mp hx with heq | hx
        · cases heq
        · exact hsettled x hx
      · obtain ⟨ha', hne', hnot, command', s', hk, ht, hs', hsent⟩ := hlogged.pending k id' t hp
        exact ⟨ha', hne', hnot, command', s', hk, h.timers_setTimeout_of_some ht, hs', hsent⟩ }

theorem Manager.ready_iff : m.ready = true ↔
    m.authenticated = true ∧ ∃ s, m.socket = some s ∧ m.readyState s = 1 := by
  unfold Manager.ready
  cases m.socket with
  | none => simp
  | some s => simp

/-- What `take` has found. -/
theorem take_eq_some {k : Kind} {requestId : Option String} {settlement : Settlement}
    {m' : Manager} (h : m.take k requestId settlement = some m') :
    ∃ id t, requestId = some id ∧ (m.pending k).get id = some t ∧
      m' = (m.remove k id t).settle id settlement := by
  unfold Manager.take at h
  cases requestId with
  | none => cases h
  | some id =>
      dsimp only at h
      split_ifs at h
      rw [Option.map_eq_some_iff] at h
      obtain ⟨t, hp, rfl⟩ := h
      exact ⟨id, t, rfl, hp, rfl⟩

theorem take_of_get {k : Kind} {id : String} {t : TimerId} (hid : id ≠ "")
    (hp : (m.pending k).get id = some t) (settlement : Settlement) :
    m.take k (some id) settlement = some ((m.remove k id t).settle id settlement) := by
  unfold Manager.take
  dsimp only
  rw [if_neg hid, hp]
  rfl

/-- The entry of a request and its timer are gone again. -/
theorem remove_set {k : Kind} {id : String} (timer : Timer)
    (hp : (m.pending k).get id = none) (ht : m.timers m.nextTimer = none) :
    Manager.remove k id m.nextTimer { m.setTimeout timer with
      pending := Function.update m.pending k ((m.pending k).set id m.nextTimer) } =
        { m with nextTimer := m.nextTimer + 1 } := by
  have htimers : Function.update (Function.update m.timers m.nextTimer (some timer))
      m.nextTimer none = m.timers := by
    rw [Function.update_idem, ← ht, Function.update_eq_self]
  have hpending : Function.update (Function.update m.pending k ((m.pending k).set id m.nextTimer))
      k (((m.pending k).set id m.nextTimer).delete id) = m.pending := by
    rw [Function.update_idem, Dict.delete_set hp, Function.update_eq_self]
  simp only [Manager.remove, Manager.clearTimeout, Manager.setTimeout, Function.update_self,
    htimers, hpending]

theorem Inv.request (h : Inv m) {id : String} {command : Command} (throws : Bool) (hid : id ≠ "")
    (hfresh : ∀ command, .requested id command ∉ m.trace) :
    Inv (m.request command id throws) := by
  have hlogged := h.log (e := .requested id command) trivial hfresh
  have hmem : .requested id command ∈ (m.log (.requested id command)).trace := List.mem_cons_self
  have hsettled : ∀ settlement, .settled id settlement ∉ (m.log (.requested id command)).trace := by
    intro settlement hs
    rcases List.mem_cons.mp hs with heq | hs
    · cases heq
    · exact h.not_settled_of_fresh hfresh settlement hs
  have hpending := h.get_of_fresh hfresh
  unfold Manager.request
  by_cases hready : (m.log (.requested id command)).ready = true
  · obtain ⟨ha, s, hs, -⟩ := Manager.ready_iff.mp hready
    simp only [hready, Bool.not_true, Bool.false_eq_true, if_false]
    cases throws with
    | true =>
        have hget : (Function.update m.pending command.kind
            ((m.pending command.kind).set id m.nextTimer) command.kind).get id =
              some m.nextTimer := by
          rw [Function.update_self, Dict.get_set_self]
        have hrefused := (hlogged.refuse (connectionLostError command.kind) hmem hsettled
          hpending).skipTimer
        have hsame := remove_set (m := m.log (.requested id command))
          (.request command id) (hpending command.kind)
          (h.fresh_timer m.nextTimer (le_refl _))
        rw [if_pos rfl, take_of_get hid hget, Option.getD_some]
        exact (congrArg (fun m' : Manager =>
          Inv (m'.settle id (.rejected (connectionLostError command.kind)))) hsame).mpr hrefused
    | false =>
        rw [if_neg Bool.false_ne_true]
        have hs' : m.socket = some s := hs
        have hwait := hlogged.wait hid ha hs hmem hsettled hpending
        simp only [Manager.setTimeout, Manager.log, hs'] at hwait ⊢
        exact hwait
  · rw [Bool.not_eq_true] at hready
    simp only [hready, Bool.not_false, if_true]
    exact hlogged.refuse _ hmem hsettled hpending

/-! ## Frames -/

/-- **The reply of a waiting request has arrived on its socket.** -/
theorem Inv.answered (h : Inv m) {k : Kind} {id : String} {t : TimerId} {s : SocketId}
    {frame : ServerEvent} {reply : Reply} {rest : List Entry}
    (htrace : m.trace = .received s (some frame) :: rest) (hs : m.socket = some s)
    (hanswers : frame.Answers id reply) (hkind : reply.kind = k)
    (hp : (m.pending k).get id = some t) :
    ∃ socket frame command rest, m.trace = .received socket (some frame) :: rest ∧
      frame.Answers id reply ∧ Authorized socket rest ∧ .sent id command socket ∈ rest ∧
        reply.kind = command.kind := by
  obtain ⟨ha, -, -, command, s', hk, -, hs', hsent⟩ := h.pending k id t hp
  obtain rfl : s = s' := Option.some.inj (hs.symm.trans hs')
  obtain ⟨s', hs', hok⟩ := h.authorized ha
  obtain rfl : s = s' := Option.some.inj (hs.symm.trans hs')
  refine ⟨s, frame, command, rest, htrace, hanswers, ?_, ?_, hkind.trans hk.symm⟩
  · have hok : .received s (some .authOk) ∈ m.trace := hok
    rw [htrace] at hok
    rcases List.mem_cons.mp hok with heq | hok
    · cases heq
      exact hanswers.elim
    · exact hok
  · rw [htrace] at hsent
    rcases List.mem_cons.mp hsent with heq | hsent
    · cases heq
    · exact hsent

theorem Inv.take (h : Inv m) {k : Kind} {requestId : Option String} {settlement : Settlement}
    {m' : Manager} (htake : m.take k requestId settlement = some m')
    (hj : ∀ id t reply, requestId = some id → (m.pending k).get id = some t →
      settlement = .resolved reply →
      ∃ socket frame command rest, m.trace = .received socket (some frame) :: rest ∧
        frame.Answers id reply ∧ Authorized socket rest ∧ .sent id command socket ∈ rest ∧
          reply.kind = command.kind) : Inv m' := by
  obtain ⟨id, t, hid, hp, rfl⟩ := take_eq_some htake
  exact h.finish hp fun reply heq => hj id t reply hid hp heq

/-- **A frame resolves the request it names.** -/
theorem Inv.resolve (h : Inv m) {k : Kind} {requestId : Option String} {s : SocketId}
    {frame : ServerEvent} {reply : Reply} {rest : List Entry} {m' : Manager}
    (htrace : m.trace = .received s (some frame) :: rest) (hs : m.socket = some s)
    (hanswers : ∀ id, requestId = some id → frame.Answers id reply) (hkind : reply.kind = k)
    (htake : m.take k requestId (.resolved reply) = some m') : Inv m' := by
  refine h.take htake fun id t reply' hid hp heq => ?_
  obtain rfl : reply = reply' := Settlement.resolved.inj heq
  exact h.answered htrace hs (hanswers id hid) hkind hp

theorem Inv.reject (h : Inv m) {k : Kind} {requestId : Option String} {error : SocketError}
    {m' : Manager} (htake : m.take k requestId (.rejected error) = some m') : Inv m' :=
  h.take htake fun _ _ _ _ _ heq => nomatch heq

/-- What may be absent. -/
theorem Inv.getD (h : Inv m) {x : Option Manager} (hx : ∀ m', x = some m' → Inv m') :
    Inv (x.getD m) := by
  cases x with
  | none => exact h
  | some m' => exact hx m' rfl

theorem Inv.takeFirst (h : Inv m) {requestId : Option String} {error : SocketError}
    {kinds : List Kind} {m' : Manager}
    (htake : m.takeFirst requestId (.rejected error) kinds = some m') : Inv m' := by
  induction kinds with
  | nil =>
      cases htake
  | cons k kinds ih =>
      unfold Manager.takeFirst at htake
      cases hfirst : m.take k requestId (.rejected error) with
      | none =>
          rw [hfirst, Option.none_or] at htake
          exact ih htake
      | some m'' =>
          rw [hfirst, Option.some_or, Option.some.injEq] at htake
          exact htake ▸ h.reject hfirst

/-- **A send that has timed out is accepted after all.** -/
theorem Inv.lateAcceptance (h : Inv m) {id : String} {data : SentMessage} {s : SocketId}
    {rest : List Entry} (hs : m.socket = some s)
    (htrace : m.trace = .received s (some (.messageAccepted id data)) :: rest) :
    Inv (m.lateAcceptance id data) := by
  unfold Manager.lateAcceptance
  split
  · exact h
  · rename_i c hu
    split_ifs with hother
    · exact h
    · push Not at hother
      obtain ⟨ha, hout, ⟨error, hr⟩, hnot, command, hc, rfl⟩ := h.unconfirmed id c hu
      have hok : Authorized s rest := by
        obtain ⟨s', hs', hok⟩ := h.authorized ha
        obtain rfl : s = s' := Option.some.inj (hs.symm.trans hs')
        have hok : .received s (some .authOk) ∈ m.trace := hok
        rw [htrace] at hok
        exact (List.mem_cons.mp hok).resolve_left fun heq => nomatch heq
      have haccepted : Inv ({ m with unconfirmed := m.unconfirmed.delete id }.log
          (.accepted id data)) :=
        { h with
          sound := ⟨⟨hnot, hout, ⟨error, hr⟩, ⟨command, hc, hother.2, hother.1⟩,
            s, rest, htrace, hok⟩, h.sound⟩
          authorized := by
            intro ha
            obtain ⟨s, hs, hok⟩ := h.authorized ha
            exact ⟨s, hs, List.mem_cons_of_mem _ hok⟩
          pending := by
            intro k id' t hp
            obtain ⟨ha, hne, hnot, command, s, hk, ht, hs, hsent⟩ := h.pending k id' t hp
            refine ⟨ha, hne, fun x hx => ?_, command, s, hk, ht, hs,
              List.mem_cons_of_mem _ hsent⟩
            exact hnot x ((List.mem_cons.mp hx).resolve_left fun heq => nomatch heq)
          unconfirmed := by
            intro id' c hu'
            have hu' : (m.unconfirmed.delete id).get id' = some c := hu'
            rw [Dict.get_delete] at hu'
            split_ifs at hu' with hid
            obtain ⟨ha, ht, ⟨error, hr⟩, hnot, command, hc, hids⟩ := h.unconfirmed id' c hu'
            refine ⟨ha, List.mem_cons_of_mem _ ht, ⟨error, List.mem_cons_of_mem _ hr⟩,
              fun data hd => ?_, command, List.mem_cons_of_mem _ hc, hids⟩
            rcases List.mem_cons.mp hd with heq | hd
            · cases heq
              exact hid rfl
            · exact hnot data hd }
      exact haccepted.callAccepted rfl

/-- **The connection is confirmed.** -/
theorem Inv.authenticate (h : Inv m) {s : SocketId} (hs : m.socket = some s)
    (hok : Authorized s m.trace) (ha : m.authenticated = false) :
    Inv (Manager.call .ready .ready
      { m.clearAuthTimer with authenticated := true, retries := 0 }) := by
  have hempty := h.empty ha
  have hc := h.clearAuthTimer
  have hopen : Inv { m.clearAuthTimer with authenticated := true, retries := 0 } :=
    { hc with
      authorized := fun _ => ⟨s, hs, hok⟩
      pending := by
        intro k id t hp
        have hp : (m.pending k).get id = some t := hp
        rw [hempty.pending k] at hp
        cases hp
      unconfirmed := by
        intro id c hu
        have hu : m.unconfirmed.get id = some c := hu
        rw [hempty.unconfirmed] at hu
        cases hu }
  exact hopen.call (by decide) .ready

theorem Inv.handleFrame (h : Inv m) {s : SocketId} {frame : ServerEvent} {rest : List Entry}
    (hs : m.socket = some s) (htrace : m.trace = .received s (some frame) :: rest) :
    Inv (m.handleFrame frame) := by
  cases frame with
  | authOk =>
      unfold Manager.handleFrame
      dsimp only
      split_ifs with ha
      · exact h
      · have hok : Authorized s m.trace := by
          unfold Authorized
          rw [htrace]
          exact List.mem_cons_self
        exact h.authenticate hs hok (eq_false_of_ne_true ha)
  | chatReadUpdated requestId data =>
      unfold Manager.handleFrame
      dsimp only
      split_ifs
      · exact h
      · refine h.getD fun m' htake => h.resolve htrace hs ?_ rfl htake
        rintro id rfl
        exact ⟨rfl, rfl⟩
      · exact h.call (by decide) _
  | messageNew data =>
      unfold Manager.handleFrame
      dsimp only
      split_ifs
      · exact h
      · exact h.call (by decide) _
  | messageDelivered requestId data =>
      unfold Manager.handleFrame
      dsimp only
      split_ifs
      · exact h
      · refine h.getD fun m' htake => h.resolve htrace hs ?_ rfl htake
        rintro id rfl
        exact ⟨rfl, rfl⟩
      · exact h.call (by decide) _
  | syncResponse requestId data =>
      unfold Manager.handleFrame
      dsimp only
      split_ifs
      · exact h
      · refine h.getD fun m' htake => h.resolve (k := .sync) htrace hs ?_ rfl htake
        intro id heq
        exact ⟨Option.some.inj heq, rfl⟩
  | messageAccepted requestId data =>
      unfold Manager.handleFrame
      dsimp only
      split_ifs
      · exact h
      · split
        · rename_i m' htake
          refine h.resolve (k := .send) htrace hs ?_ rfl htake
          intro id heq
          exact ⟨Option.some.inj heq, rfl⟩
        · exact h.lateAcceptance hs htrace
  | error requestId message status code =>
      unfold Manager.handleFrame
      dsimp only
      split_ifs
      · exact h
      · exact h.getD fun m' htake => h.takeFirst htake

theorem Inv.onmessage (h : Inv m) (socket : SocketId) (frame : Option ServerEvent) :
    Inv (m.onmessage socket frame) := by
  have hlogged := h.log (e := .received socket frame) trivial trivial
  unfold Manager.onmessage
  dsimp only
  by_cases hcurrent : (m.log (.received socket frame)).current socket = true
  · obtain ⟨-, -, hs⟩ := Manager.current_iff.mp hcurrent
    rw [hcurrent, Bool.not_true, if_neg Bool.false_ne_true]
    cases frame with
    | none => exact hlogged
    | some frame => exact hlogged.handleFrame hs rfl
  · rw [Bool.not_eq_true] at hcurrent
    rw [hcurrent, Bool.not_false, if_pos rfl]
    exact hlogged

/-! ## Timers -/

/-- **A send whose promise has been rejected becomes unconfirmed.** -/
theorem Inv.onTimeout (h : Inv m) {id : String} {command : Command} {error : SocketError}
    (ha : m.authenticated = true) (hout : .timedOut id ∈ m.trace)
    (hr : .settled id (.rejected error) ∈ m.trace) (hnot : ∀ data, .accepted id data ∉ m.trace)
    (hc : .requested id command ∈ m.trace) : Inv (m.onTimeout command id) := by
  cases command with
  | acknowledgeEnvelope _ => exact h
  | advanceReadCursor _ _ => exact h
  | getMailbox _ _ => exact h
  | sendMessage command =>
      refine { h with unconfirmed := fun id' c hu => ?_ }
      -- the oldest may be gone
      have hset : (m.unconfirmed.set id ⟨command.chat_id, command.client_message_id⟩).get id' =
          some c := by
        unfold Manager.onTimeout at hu
        dsimp only at hu
        split_ifs at hu
        · split at hu
          · exact hu
          · rw [Dict.get_delete] at hu
            split_ifs at hu
            exact hu
        · exact hu
      rw [Dict.get_set] at hset
      split_ifs at hset with hid
      · subst hid
        exact ⟨ha, hout, ⟨error, hr⟩, hnot, command, hc, (Option.some.inj hset).symm⟩
      · exact h.unconfirmed id' c hset

/-- The timer of a request is cleared once more with its entry. -/
theorem expire_request {t : TimerId} {command : Command} {id : String} (hid : id ≠ "")
    (ht : m.timers t = some (.request command id))
    (hp : (m.pending command.kind).get id = some t) :
    m.expire t = (((m.log (.timedOut id)).remove command.kind id t).settle id
      (.rejected (timeoutError command.kind))).onTimeout command id := by
  have htake : ∀ m' : Manager, m'.pending = m.pending →
      m'.take command.kind (some id) (.rejected (timeoutError command.kind)) =
        some ((m'.remove command.kind id t).settle id (.rejected (timeoutError command.kind))) :=
    fun m' hsame => take_of_get hid (hsame ▸ hp) _
  have hpending : (Manager.onTimeout command id ((m.clearTimeout t).log (.timedOut id))).pending =
      m.pending := by
    cases command <;> rfl
  unfold Manager.expire
  rw [ht]
  dsimp only
  rw [htake _ hpending, Option.getD_some]
  cases command <;> simp [Manager.onTimeout, Manager.remove, Manager.clearTimeout, Manager.log,
    Manager.settle]

theorem Inv.expireRequest (h : Inv m) {t : TimerId} {command : Command} {id : String}
    (ht : m.timers t = some (.request command id)) : Inv (m.expire t) := by
  have hp := h.request_timer t command id ht
  obtain ⟨ha, hid, hnot, command', s, -, ht', hs, hsent⟩ := h.pending _ id t hp
  obtain ⟨rfl, -⟩ : command = command' ∧ id = id := by
    rw [ht, Option.some.injEq] at ht'
    cases ht'
    exact ⟨rfl, rfl⟩
  have hlogged := h.log (e := .timedOut id) trivial trivial
  have hfinish : Inv (((m.log (.timedOut id)).remove command.kind id t).settle id
      (.rejected (timeoutError command.kind))) :=
    hlogged.finish hp fun _ heq => nomatch heq
  have haccepted : ∀ data, .accepted id data ∉ m.trace := by
    intro data hd
    obtain ⟨later, past, heq⟩ := List.append_of_mem hd
    obtain ⟨-, -, ⟨error, hr⟩, -⟩ := h.sound.justified heq
    refine hnot (.rejected error) ?_
    rw [heq]
    exact List.mem_append_right _ (List.mem_cons_of_mem _ hr)
  rw [expire_request hid ht hp]
  refine hfinish.onTimeout ha (List.mem_cons_of_mem _ List.mem_cons_self) List.mem_cons_self ?_
    (List.mem_cons_of_mem _ (List.mem_cons_of_mem _ (h.sound.requested_of_sent hsent)))
  intro data hd
  rcases List.mem_cons.mp hd with heq | hd
  · cases heq
  · rcases List.mem_cons.mp hd with heq | hd
    · cases heq
    · exact haccepted data hd

/-- Clear one timer that is no request's. -/
theorem Inv.clearTimeout (h : Inv m) {t : TimerId}
    (hother : ∀ command id, m.timers t ≠ some (.request command id)) : Inv (m.clearTimeout t) := by
  have hsame : m.clearTimeout t = { m with timers := Manager.cleared (some t) m.timers } := rfl
  rw [hsame]
  refine h.clearOthers (fun t' timer hget => (cleared_some hget).1) fun t' command id hget => ?_
  rw [cleared_of_ne, hget]
  intro heq
  obtain rfl : t = t' := Option.some.inj heq
  exact hother command id hget

theorem Inv.expire (h : Inv m) (t : TimerId) : Inv (m.expire t) := by
  cases ht : m.timers t with
  | none =>
      unfold Manager.expire
      rw [ht]
      exact h
  | some timer =>
      cases timer with
      | request command id => exact h.expireRequest ht
      | auth socket generation =>
          have hc := h.clearTimeout (t := t) fun command id heq => by
            rw [ht] at heq
            cases heq
          unfold Manager.expire
          rw [ht]
          dsimp only
          split_ifs
          · exact hc.log trivial trivial
          · exact hc
      | reconnect refresh =>
          obtain ⟨hrec, hactive, hsocket, hconnects⟩ := h.reconnect t refresh ht
          have hsame : { m.clearTimeout t with reconnectTimer := none } =
              m.clearReconnectTimer := by
            unfold Manager.clearReconnectTimer
            rw [hrec]
            rfl
          unfold Manager.expire
          rw [ht]
          dsimp only
          split_ifs
          · rw [hsame]
            exact h.clearReconnectTimer.connect hsocket (noReconnect_clearReconnectTimer h) refresh
          · rw [hsame]
            exact h.clearReconnectTimer

theorem Inv.onopen (h : Inv m) (socket : SocketId) : Inv (m.onopen socket) := by
  unfold Manager.onopen
  split_ifs
  · exact h.log trivial trivial
  · exact h

end Keeps

/-! ## Any events -/

/-- **Every event keeps `Inv`.** -/
theorem Inv.event {m : Manager} (h : Inv m) (e : Event) (henabled : e.Enabled m) :
    Inv (e.run m) := by
  cases e with
  | start => exact h.start
  | stop => exact h.stop
  | sessionCleared =>
      show Inv (if m.subscribed then m.stop else m)
      split_ifs
      · exact h.stop
      · exact h
  | subscribe channel handler => exact h.subscribe channel handler
  | unsubscribe channel handler => exact h.unsubscribe channel handler
  | request command id throws => exact h.request throws henabled.1 henabled.2
  | connected c => exact h.connected henabled
  | connectFailed c status => exact h.connectFailed henabled status
  | readyState socket state => exact { h with }
  | onopen socket => exact h.onopen socket
  | onmessage socket frame => exact h.onmessage socket frame
  | onclose socket code => exact h.onclose socket code
  | expire t => exact h.expire t

theorem Inv.initial : Inv {} where
  sound := trivial
  handlers _ := List.nodup_nil
  fresh_socket _ _ := rfl
  active _ hs := nomatch hs
  authorized ha := nomatch ha
  connects_le _ hc := nomatch hc
  connects_nodup := List.nodup_nil
  connecting _ hc := nomatch hc
  fresh_timer _ _ := rfl
  auth_timer _ ht := nomatch ht
  reconnect_timer _ ht := nomatch ht
  reconnect _ _ ht := nomatch ht
  request_timer _ _ _ ht := nomatch ht
  pending _ _ _ hp := nomatch hp
  unconfirmed _ _ hu := nomatch hu

/-- **`Inv` holds after any events.** -/
theorem Reachable.inv {m : Manager} (h : Reachable m) : Inv m := by
  induction h with
  | refl => exact Inv.initial
  | tail _ hstep ih =>
      obtain ⟨e, henabled⟩ := hstep
      exact ih.event e henabled

/-! ## What the requests are promised -/

/-- The settlements of a request. -/
def settlements (id : String) (trace : List Entry) : List Settlement :=
  trace.filterMap fun
    | .settled id' settlement => if id' = id then some settlement else none
    | _ => none

/-- The late acceptances of a request. -/
def acceptances (id : String) (trace : List Entry) : List SentMessage :=
  trace.filterMap fun
    | .accepted id' data => if id' = id then some data else none
    | _ => none

theorem mem_settlements {id : String} {trace : List Entry} {settlement : Settlement} :
    settlement ∈ settlements id trace ↔ .settled id settlement ∈ trace := by
  unfold settlements
  rw [List.mem_filterMap]
  constructor
  · rintro ⟨e, he, heq⟩
    cases e <;> simp at heq
    obtain ⟨rfl, rfl⟩ := heq
    exact he
  · intro he
    exact ⟨_, he, by simp⟩

theorem mem_acceptances {id : String} {trace : List Entry} {data : SentMessage} :
    data ∈ acceptances id trace ↔ .accepted id data ∈ trace := by
  unfold acceptances
  rw [List.mem_filterMap]
  constructor
  · rintro ⟨e, he, heq⟩
    cases e <;> simp at heq
    obtain ⟨rfl, rfl⟩ := heq
    exact he
  · intro he
    exact ⟨_, he, by simp⟩

/-- A request settles at most once. -/
theorem Sound.settlements_le_one {trace : List Entry} (h : Sound trace) (id : String) :
    (settlements id trace).length ≤ 1 := by
  induction trace with
  | nil =>
      exact Nat.zero_le 1
  | cons e past ih =>
      obtain ⟨hj, hpast⟩ := h
      cases e with
      | settled id' settlement =>
          by_cases hid : id' = id
          · subst hid
            have hnone : settlements id' past = [] :=
              List.eq_nil_iff_forall_not_mem.mpr fun x hx => hj.2.1 x (mem_settlements.mp hx)
            rw [show settlements id' (.settled id' settlement :: past) =
              settlement :: settlements id' past by simp [settlements], hnone]
            exact le_refl _
          · rw [show settlements id (.settled id' settlement :: past) = settlements id past by
              simp [settlements, hid]]
            exact ih hpast
      | requested | sent | authenticate | closing | received | timedOut | accepted | called =>
          exact ih hpast

/-- The handlers of late acceptances run at most once for a request. -/
theorem Sound.acceptances_le_one {trace : List Entry} (h : Sound trace) (id : String) :
    (acceptances id trace).length ≤ 1 := by
  induction trace with
  | nil =>
      exact Nat.zero_le 1
  | cons e past ih =>
      obtain ⟨hj, hpast⟩ := h
      cases e with
      | accepted id' data =>
          by_cases hid : id' = id
          · subst hid
            have hnone : acceptances id' past = [] :=
              List.eq_nil_iff_forall_not_mem.mpr fun x hx => hj.1 x (mem_acceptances.mp hx)
            rw [show acceptances id' (.accepted id' data :: past) =
              data :: acceptances id' past by simp [acceptances], hnone]
            exact le_refl _
          · rw [show acceptances id (.accepted id' data :: past) = acceptances id past by
              simp [acceptances, hid]]
            exact ih hpast
      | requested | sent | authenticate | closing | received | timedOut | settled | called =>
          exact ih hpast

/-- What the requests of a manager are promised. -/
structure Promised (m : Manager) : Prop where
  settles_once : ∀ id, (settlements id m.trace).length ≤ 1
  /-- A promise resolves right when the reply arrives that carries its identifier, on the
  socket that the request was sent on and that was confirmed before. -/
  own_reply : ∀ later id reply past, m.trace = later ++ .settled id (.resolved reply) :: past →
    ∃ socket frame command earlier, past = .received socket (some frame) :: earlier ∧
      frame.Answers id reply ∧ Authorized socket earlier ∧ .sent id command socket ∈ earlier ∧
        reply.kind = command.kind
  nothing_waits : m.socket = none ∨ m.authenticated = false →
    (∀ k, m.pending k = .empty) ∧ m.unconfirmed = .empty
  accepts_once : ∀ id, (acceptances id m.trace).length ≤ 1
  /-- A late acceptance is that of a send that has timed out, with its identifiers. -/
  accepts_own : ∀ later id data past, m.trace = later ++ .accepted id data :: past →
    .timedOut id ∈ past ∧
      (∃ command, .requested id (.sendMessage command) ∈ past ∧
        command.chat_id = data.chatId ∧ command.client_message_id = data.clientMessageId) ∧
      ∃ socket earlier, past = .received socket (some (.messageAccepted id data)) :: earlier ∧
        Authorized socket earlier
  accepts_unresolved : ∀ id data reply, .accepted id data ∈ m.trace →
    .settled id (.resolved reply) ∉ m.trace
  /-- A handler of late acceptances is called with the latest one, once. -/
  handlers : ∀ later handler payload past,
    m.trace = later ++ .called .accepted handler payload :: past →
    ∃ calls id data earlier, past = calls ++ .accepted id data :: earlier ∧
      payload = .accepted data ∧
        ∀ c ∈ calls, ∃ other, other ≠ handler ∧ c = .called .accepted other payload
  confirmed : m.authenticated = true → ∃ s, m.socket = some s ∧ Authorized s m.trace

/-- **Requests settle once and only by their own reply**, after any events. -/
theorem requests_settle_once {m : Manager} (h : Reachable m) : Promised m := by
  have hi := h.inv
  exact {
    settles_once := hi.sound.settlements_le_one
    own_reply := fun _ _ reply _ htrace => (hi.sound.justified htrace).2.2 reply rfl
    nothing_waits := by
      intro hnone
      have ha : m.authenticated = false := hnone.elim hi.not_authenticated id
      exact ⟨(hi.empty ha).pending, (hi.empty ha).unconfirmed⟩
    accepts_once := hi.sound.acceptances_le_one
    accepts_own := by
      intro later id data past htrace
      obtain ⟨-, hout, -, hcommand, hframe⟩ := hi.sound.justified htrace
      exact ⟨hout, hcommand, hframe⟩
    accepts_unresolved := by
      intro id data reply haccepted hresolved
      obtain ⟨later, past, htrace⟩ := List.append_of_mem haccepted
      obtain ⟨-, -, ⟨error, hr⟩, -⟩ := hi.sound.justified htrace
      have hrejected : .settled id (.rejected error) ∈ m.trace := by
        rw [htrace]
        exact List.mem_append_right _ (List.mem_cons_of_mem _ hr)
      cases hi.sound.settled_unique hresolved hrejected
    handlers := fun _ _ _ _ htrace => hi.sound.justified htrace
    confirmed := hi.authorized }

/-- Events that can happen one after another. -/
def Enabled (m : Manager) : List Event → Prop
  | [] => True
  | e :: es => e.Enabled m ∧ Enabled (e.run m) es

/-- The state after them. -/
def run (m : Manager) (es : List Event) : Manager :=
  es.foldl (fun m e => e.run m) m

theorem Reachable.run {m : Manager} (h : Reachable m) {es : List Event} (henabled : Enabled m es) :
    Reachable (run m es) := by
  induction es generalizing m with
  | nil =>
      exact h
  | cons e es ih =>
      exact ih (h.tail (.event e henabled.1)) henabled.2

/-- A send times out and is accepted after all. -/
theorem requests_settle_once_late :
    let data : SentMessage := ⟨"m", "c", some 1, "u", "d", "x", "t", []⟩
    let m := run {} [.start, .subscribe .accepted 7, .connected ⟨1, false⟩, .readyState 0 1,
      .onmessage 0 (some .authOk), .request (.sendMessage ⟨"c", "x", []⟩) "r" false, .expire 1,
      .onmessage 0 (some (.messageAccepted "r" data)),
      .onmessage 0 (some (.messageAccepted "r" data))]
    Promised m ∧ acceptances "r" m.trace = [data] := by
  intro data m
  have henabled : Enabled {} [.start, .subscribe .accepted 7, .connected ⟨1, false⟩,
      .readyState 0 1, .onmessage 0 (some .authOk),
      .request (.sendMessage ⟨"c", "x", []⟩) "r" false, .expire 1,
      .onmessage 0 (some (.messageAccepted "r" data)),
      .onmessage 0 (some (.messageAccepted "r" data))] := by
    have hfresh : ∀ command, .requested "r" command ∉ [Entry.received 0 (some .authOk)] :=
      fun command hmem => nomatch List.mem_singleton.mp hmem
    exact ⟨trivial, trivial, List.mem_singleton.mpr rfl, trivial, Option.some_ne_none 1,
      ⟨by decide, hfresh⟩,
      Option.some_ne_none (Timer.request (.sendMessage ⟨"c", "x", []⟩) "r"),
      Option.some_ne_none 1, Option.some_ne_none 1, trivial⟩
  exact ⟨requests_settle_once (Reachable.run .refl henabled), by decide⟩

end Socket
end Client
end SecureMessenger

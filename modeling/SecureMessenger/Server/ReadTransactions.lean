import SecureMessenger.Server.MessageTransactions

/-!
# The transactions of ChatReadService

An advance holds the lock of its chat from the moment it reads the stored
position until it commits, so the position is still the stored one then; it
publishes after the commit, and only if that raised the position.
-/

namespace SecureMessenger
namespace Server

open Lib
open Lib.Discipline

section Tables

variable {db db' : Db}

theorem Untouched.activeDevices (h : Untouched db db') (user_id : UUID) :
    db'.activeDevices user_id = db.activeDevices user_id := by
  unfold Db.activeDevices Db.activeUser
  rw [h.devices, h.users]

theorem Untouched.hashKnown (h : Untouched db db') {hash : String} (hk : HashKnown db' hash) :
    HashKnown db hash := by
  unfold HashKnown at hk ⊢
  rw [h.sessions, h.tokenHistory] at hk
  exact hk

variable {principal : Principal} {chat_id : UUID} {last_read_seq : Int}

/-- An advance changes only the chat it has locked. -/
theorem same_advance (a : Advanced principal chat_id last_read_seq db) {r : Resource}
    (hchat : r ≠ .chat chat_id) : Same r db a.store := by
  have ht := a.tables
  cases r with
  | chat id =>
      constructor
      · intro c hc
        rw [ht.chats]
        exact hc
      · intro user_id
        unfold Advanced.store
        rw [readState_storeReadState, if_neg]
        rintro ⟨rfl, -⟩
        exact hchat rfl
  | user id =>
      simp [Same, Active, SessionOf, Db.activeUser, ht.users, ht.devices, ht.sessions]
  | mailbox id =>
      intro b hb
      rw [ht.mailboxes]
      exact hb
  | session id =>
      intro s hs
      rw [ht.sessions]
      refine ⟨hs, fun _ hd => ?_⟩
      unfold DeviceRevoked at hd ⊢
      rw [ht.devices]
      exact hd
  | envelope id =>
      trivial
  | device id =>
      trivial

end Tables

section Transactions

variable {sec : Security} {t : Tid} {w : World}
variable {principal : Principal} {chat_id : UUID} {last_read_seq : Int}

theorem committable_advance
    (hop : w.op t = some (.advance principal chat_id last_read_seq)) (hout : w.outcome t = none)
    (a : Advanced principal chat_id last_read_seq w.db) (hp : w.pending t w.db = a.store)
    (hchat : Holding w t (.chat chat_id) .update) : Committable sec t w := by
  refine ⟨⟨_, hop, ?_⟩, fun r hr => ?_, fun h hk => ?_, hout⟩
  · rw [hp]
    exact Effect.advance a
  · rw [hp]
    refine same_advance a ?_
    rintro rfl
    exact hr hchat
  · rw [hp] at hk
    exact Or.inl (a.tables.hashKnown hk)

/-- A chat that is locked keeps its read positions. -/
theorem Holding.readState {w w' : World} (hh : Holding w t (.chat chat_id) .update)
    (hs : Since sec t w w') (user_id : UUID) :
    w'.db.readState chat_id user_id = w.db.readState chat_id user_id :=
  (hs.same _ hh.ne_none).2 user_id

theorem safe_position_known {Q : Bool → World → Prop} {Z : PyError → World → Prop}
    (hi : Inv sec w) (hpend : w.pending t = id)
    (h : ∀ known w', Since sec t w w' → w'.pending t = w.pending t →
      (known = true → last_read_seq ≠ 0 →
        w'.db.chatPositionExists chat_id last_read_seq = true) → Q known w') :
    Tx sec t (position_known chat_id last_read_seq) Q Z w := by
  unfold position_known
  split
  · rename_i hzero
    exact h true w (Since.refl hi) rfl fun _ hne => absurd hzero hne
  · refine safe_query fun w₁ hs₁ hp₁ => h _ w₁ hs₁ hp₁ fun hk _ => ?_
    rw [hp₁, hpend] at hk
    exact hk

/-- A message is not removed, so its position stays known. -/
theorem Grows.chatPositionExists {db db' : Db} (h : Grows db db')
    (hk : db.chatPositionExists chat_id last_read_seq = true) :
    db'.chatPositionExists chat_id last_read_seq = true := by
  unfold Db.chatPositionExists at hk ⊢
  rw [List.any_eq_true] at hk ⊢
  obtain ⟨m, hm, hkey⟩ := hk
  exact ⟨m, h.messages m hm, hkey⟩

/-- What an advance has read under the lock of its chat. -/
structure Positioned (t : Tid) (principal : Principal) (chat_id : UUID) (last_read_seq : Int)
    (other_user_id : UUID) (chat : Chat) (state : Option ChatReadState) (w : World) :
    Prop where
  other : w.db.otherUserId principal.user_id chat_id = some other_user_id
  chat_row : row (·.id) chat_id w.db.chats = some chat
  locked : Holding w t (.chat chat_id) .update
  low : 0 ≤ last_read_seq
  high : last_read_seq ≤ chat.last_message_seq
  position : last_read_seq ≠ 0 → w.db.chatPositionExists chat_id last_read_seq = true
  state : w.db.readState chat_id principal.user_id = state

/-- All of it stays true while the transaction is open. -/
theorem Positioned.since {other_user_id : UUID} {chat : Chat} {state : Option ChatReadState}
    {w' : World} (h : Positioned t principal chat_id last_read_seq other_user_id chat state w)
    (hs : Since sec t w w') :
    Positioned t principal chat_id last_read_seq other_user_id chat state w' where
  other := hs.grow.db.others _ _ _ h.other
  chat_row := (hs.same _ h.locked.ne_none).1 chat h.chat_row
  locked := hs.holding h.locked
  low := h.low
  high := h.high
  position := fun hne => hs.grow.db.chatPositionExists (h.position hne)
  state := (h.locked.readState hs _).trans h.state

/-- A position above the stored one is an advance. -/
def Positioned.advanced {other_user_id : UUID} {chat : Chat} {state : Option ChatReadState}
    (h : Positioned t principal chat_id last_read_seq other_user_id chat state w)
    (now : Instant) (hlt : (state.map (·.last_read_seq)).getD 0 < last_read_seq) :
    Advanced principal chat_id last_read_seq w.db where
  other_user_id := other_user_id
  chat := chat
  now := now
  other := h.other
  chat_row := h.chat_row
  low := h.low
  high := h.high
  position := h.position
  raises := by
    unfold Db.lastReadSeq
    rw [h.state]
    exact hlt

/-- The devices are the active ones, each user's at its moment. -/
theorem safe_notified_devices {user_id other_user_id : UUID} {Q : List UUID → World → Prop}
    {Z : PyError → World → Prop} (htables : ∀ db, Untouched db (w.pending t db))
    (h : ∀ ids w', Since sec t w w' → w'.pending t = w.pending t →
      (∃ db₁ db₂, Grows w.db db₁ ∧ Grows db₁ db₂ ∧ Grows db₂ w'.db ∧
        ids = (db₁.activeDevices user_id).map (·.id) ++
          (db₂.activeDevices other_user_id).map (·.id)) → Q ids w') :
    Tx sec t (notified_devices [user_id, other_user_id]) Q Z w := by
  unfold notified_devices notified_devices notified_devices
  refine Safe.bind (safe_query fun w₁ hs₁ hp₁ => ?_)
  refine Safe.bind (Safe.bind (safe_query fun w₂ hs₂ hp₂ => ?_))
  rw [hp₂, hp₁, (htables _).activeDevices, (htables _).activeDevices]
  refine h _ w₂ (hs₁.trans hs₂) (hp₂.trans hp₁) ⟨w₁.db, w₂.db, hs₁.grow.db, hs₂.grow.db,
    Grows.refl _, ?_⟩
  rw [List.append_nil]

/-- An advance that fails has committed nothing. -/
theorem Begun.advance_failed (hb : Begun sec t (.advance principal chat_id last_read_seq) w)
    (hnew : commitsOf t w = []) {x : PyError} {w' : World} (hs : Since sec t w w') :
    Ended sec t (.advance principal chat_id last_read_seq) (.error x) w' :=
  ⟨hs.inv, hs.commits.trans hnew, hs.op.trans hb.op, hs.outcome.trans hb.outcome⟩

/-- The position stands where it was found: nothing is written or told. -/
theorem safe_confirm (hb : Begun sec t (.advance principal chat_id last_read_seq) w)
    (hnew : commitsOf t w = []) {state : Option ChatReadState}
    (hstate : w.db.readState chat_id principal.user_id = state)
    (hle : last_read_seq ≤ (state.map (·.last_read_seq)).getD 0) :
    Tx sec t (do
        Server.commit
        return (⟨chat_id, principal.user_id, (state.map (·.last_read_seq)).getD 0,
          state.map (·.updated_at)⟩ : ReadState))
      (fun r w' => Ended sec t (.advance principal chat_id last_read_seq) (.ok (.readState r)) w')
      (fun x w' => Ended sec t (.advance principal chat_id last_read_seq) (.error x) w') w := by
  have hz : ∀ x w', Since sec t w w' →
      Ended sec t (.advance principal chat_id last_read_seq) (.error x) w' :=
    fun _ _ hs => hb.advance_failed hnew hs
  refine Safe.bind (safe_commit (fun w₁ hs₁ hp₁ _ => ?_) (fun w₁ hs₁ hp₁ _ hi => ?_)
    (fun w₁ hs₁ _ _ => hz _ w₁ hs₁) fun w₁ hs₁ => hz _ w₁ hs₁)
  · exact committable_nothing (hs₁.op.trans hb.op) (hs₁.outcome.trans hb.outcome)
      (hp₁.trans hb.pending)
  · have hid : w₁.pending t = id := hp₁.trans hb.pending
    have hstored : w.db.lastReadSeq chat_id principal.user_id =
        (state.map (·.last_read_seq)).getD 0 := by
      unfold Db.lastReadSeq
      rw [hstate]
    refine ⟨hi, ⟨_, rfl, rfl, rfl, hle, ?_, ?_⟩, hs₁.op.trans hb.op, hs₁.outcome.trans hb.outcome⟩
    · show _ ≤ Db.lastReadSeq _ _ (w₁.pending t w₁.db)
      rw [hid, ← hstored]
      exact hs₁.grow.db.reads _ _
    · intro c hmem hraised
      rw [commitsOf_commit_self, hs₁.commits, hnew, List.mem_singleton] at hmem
      subst hmem
      unfold Raised at hraised
      rw [hid] at hraised
      exact absurd hraised (lt_irrefl _)

theorem Positioned.store {other_user_id : UUID} {chat : Chat} {state : Option ChatReadState}
    (h : Positioned t principal chat_id last_read_seq other_user_id chat state w)
    (now : Instant) (hlt : (state.map (·.last_read_seq)).getD 0 < last_read_seq) :
    (h.advanced now hlt).store =
      storeReadState state chat_id principal.user_id last_read_seq now w.db := by
  unfold Advanced.store
  rw [h.state]
  rfl

/-- What follows the commit of an advance: the devices of both users are
told. -/
theorem safe_tell (hi : Inv sec (w.commit t))
    (hop : w.op t = some (.advance principal chat_id last_read_seq)) (hout : w.outcome t = none)
    (hnew : commitsOf t w = []) (a : Advanced principal chat_id last_read_seq w.db)
    (hp : w.pending t w.db = a.store) {db₁ db₂ : Db} (hbegan : Grows (w.began t) db₁)
    (hg : Grows db₁ db₂) (hbefore : Grows db₂ w.db) (updated_at : Option Instant) :
    Tx sec t (do
        publishAll ((db₁.activeDevices principal.user_id).map (·.id) ++
          (db₂.activeDevices a.other_user_id).map (·.id))
        return (⟨chat_id, principal.user_id, last_read_seq, updated_at⟩ : ReadState))
      (fun r w' => Ended sec t (.advance principal chat_id last_read_seq) (.ok (.readState r)) w')
      (fun x w' => Ended sec t (.advance principal chat_id last_read_seq) (.error x) w')
      (w.commit t) := by
  have hstored : (w.pending t w.db).lastReadSeq chat_id principal.user_id = last_read_seq := by
    rw [hp, lastReadSeq_advanced, if_pos ⟨rfl, rfl⟩]
  have hown : commitsOf t (w.commit t) = [⟨t, w.db, w.pending t w.db⟩] := by
    rw [commitsOf_commit_self, hnew]
  have hraised : Raised principal.user_id chat_id ⟨t, w.db, w.pending t w.db⟩ := by
    show Db.lastReadSeq _ _ w.db < Db.lastReadSeq _ _ (w.pending t w.db)
    rw [hstored]
    exact a.raises
  have hmay : ∀ d ∈ (db₁.activeDevices principal.user_id).map (·.id) ++
      (db₂.activeDevices a.other_user_id).map (·.id), MayPublish t (w.commit t) d := by
    intro d hd principal' chat_id' last_read_seq' hop'
    have hop' : w.op t = some (.advance principal' chat_id' last_read_seq') := hop'
    rw [hop, Option.some.injEq, Op.advance.injEq] at hop'
    obtain ⟨rfl, rfl, rfl⟩ := hop'
    refine ⟨_, by rw [hown]; exact List.mem_singleton_self _, hraised, ?_⟩
    rcases List.mem_append.mp hd with hd | hd
    · obtain ⟨device, hdevice, hid⟩ := List.mem_map.mp hd
      exact ⟨db₁, hbegan, hg.trans hbefore, device, _, hdevice, hid, Or.inl rfl⟩
    · obtain ⟨device, hdevice, hid⟩ := List.mem_map.mp hd
      exact ⟨db₂, hbegan.trans hg, hbefore, device, _, hdevice, hid, Or.inr a.other⟩
  refine Safe.bind (safe_publishAll _ hi hout hmay fun w₁ hs₁ _ htold => ?_)
  refine ⟨hs₁.inv, ⟨_, rfl, rfl, rfl, le_refl _, ?_, ?_⟩, hs₁.op.trans hop,
    hs₁.outcome.trans hout⟩
  · have hreads := hs₁.grow.db.reads chat_id principal.user_id
    have hstored' : (w.commit t).db.lastReadSeq chat_id principal.user_id = last_read_seq :=
      hstored
    rw [hstored'] at hreads
    exact hreads
  · intro c hmem _ other hother
    rw [hs₁.commits, hown, List.mem_singleton] at hmem
    subst hmem
    have heq : a.other_user_id = other := Option.some.inj (a.other.symm.trans hother)
    subst heq
    refine ⟨db₁, db₂, ?_, hg, hbefore, fun d hd => ?_, fun d hd => ?_⟩
    · rw [hs₁.began]
      exact hbegan
    · exact htold _ (List.mem_append_left _ (List.mem_map_of_mem hd))
    · exact htold _ (List.mem_append_right _ (List.mem_map_of_mem hd))

/-- The position is raised. -/
theorem safe_raise (hb : Begun sec t (.advance principal chat_id last_read_seq) w)
    (hnew : commitsOf t w = []) {other_user_id : UUID} {chat : Chat}
    {state : Option ChatReadState}
    (hpos : Positioned t principal chat_id last_read_seq other_user_id chat state w)
    (hlt : (state.map (·.last_read_seq)).getD 0 < last_read_seq) :
    Tx sec t (do
        let now ← utcNow
        write (storeReadState state chat_id principal.user_id last_read_seq now)
        flush
        let devices ← notified_devices [principal.user_id, other_user_id]
        Server.commit
        publishAll devices
        return (⟨chat_id, principal.user_id, last_read_seq, some now⟩ : ReadState))
      (fun r w' => Ended sec t (.advance principal chat_id last_read_seq) (.ok (.readState r)) w')
      (fun x w' => Ended sec t (.advance principal chat_id last_read_seq) (.error x) w') w := by
  have hz : ∀ x w', Since sec t w w' →
      Ended sec t (.advance principal chat_id last_read_seq) (.error x) w' :=
    fun _ _ hs => hb.advance_failed hnew hs
  refine Safe.bind (safe_now fun now w₁ hs₁ hp₁ => ?_)
  refine Safe.bind (safe_write fun w₂ hs₂ hp₂ => ?_)
  have hs₁₂ := hs₁.trans hs₂
  have hpend : w₂.pending t =
      storeReadState state chat_id principal.user_id last_read_seq now := by
    rw [hp₂, hp₁, hb.pending]
    rfl
  refine Safe.bind (safe_flush (fun w₃ hs₃ hp₃ _ => ?_) (fun w₃ hs₃ => hz _ w₃ (hs₁₂.trans hs₃))
    fun w₃ hs₃ => hz _ w₃ (hs₁₂.trans hs₃))
  have hs₁₃ := hs₁₂.trans hs₃
  refine Safe.bind (safe_notified_devices (fun db => ?_) fun ids w₄ hs₄ hp₄ hids => ?_)
  · rw [hp₃, hpend]
    exact untouched_storeReadState _ _ _ _ _ _
  have hs₁₄ := hs₁₃.trans hs₄
  obtain ⟨db₁, db₂, hg₁, hg₂, hg₃, rfl⟩ := hids
  refine Safe.bind (safe_commit (fun w₅ hs₅ hp₅ hu => ?_) (fun w₅ hs₅ hp₅ hu hi => ?_)
    (fun w₅ hs₅ _ _ => hz _ w₅ (hs₁₄.trans hs₅)) fun w₅ hs₅ => hz _ w₅ (hs₁₄.trans hs₅))
  all_goals
    have hs := hs₁₄.trans hs₅
    have hpos₅ := hpos.since hs
    have hafter : w₅.pending t w₅.db = (hpos₅.advanced now hlt).store := by
      rw [hp₅, hp₄, hp₃, hpend, hpos₅.store]
  · exact committable_advance (hs.op.trans hb.op) (hs.outcome.trans hb.outcome) _ hafter
      hpos₅.locked
  · refine safe_tell hi (hs.op.trans hb.op) (hs.outcome.trans hb.outcome)
      (hs.commits.trans hnew) (hpos₅.advanced now hlt) hafter ?_ hg₂
      (hg₃.trans hs₅.grow.db) (some now)
    rw [hs.began]
    exact (hb.began.trans hs₁₃.grow.db).trans hg₁

theorem safe_saveReadState (hb : Begun sec t (.advance principal chat_id last_read_seq) w)
    (hnew : commitsOf t w = []) {other_user_id : UUID} {chat : Chat}
    {state : Option ChatReadState}
    (hpos : Positioned t principal chat_id last_read_seq other_user_id chat state w) :
    Tx sec t (saveReadState principal chat_id last_read_seq other_user_id state)
      (fun r w' => Ended sec t (.advance principal chat_id last_read_seq) (.ok (.readState r)) w')
      (fun x w' => Ended sec t (.advance principal chat_id last_read_seq) (.error x) w') w := by
  unfold saveReadState
  split
  · rename_i hlt
    exact safe_raise hb hnew hpos hlt
  · rename_i hle
    exact safe_confirm hb hnew hpos.state (not_lt.mp hle)

theorem safe_advanceLocked (hb : Begun sec t (.advance principal chat_id last_read_seq) w)
    (hnew : commitsOf t w = []) {other_user_id : UUID} {chat : Chat}
    (hother : w.db.otherUserId principal.user_id chat_id = some other_user_id)
    (hrow : row (·.id) chat_id w.db.chats = some chat)
    (hlocked : Holding w t (.chat chat_id) .update) :
    Tx sec t (advanceLocked principal chat_id last_read_seq other_user_id chat)
      (fun r w' => Ended sec t (.advance principal chat_id last_read_seq) (.ok (.readState r)) w')
      (fun x w' => Ended sec t (.advance principal chat_id last_read_seq) (.error x) w') w := by
  have hz : ∀ x w', Since sec t w w' →
      Ended sec t (.advance principal chat_id last_read_seq) (.error x) w' :=
    fun _ _ hs => hb.advance_failed hnew hs
  unfold advanceLocked
  split
  · exact hz _ w (Since.refl hb.inv)
  rename_i hrange
  obtain ⟨hlow, hhigh⟩ := not_or.mp hrange
  refine Safe.bind (safe_position_known hb.inv hb.pending fun known w₁ hs₁ hp₁ hknown => ?_)
  split
  · exact hz _ w₁ hs₁
  rename_i hk
  refine Safe.bind (safe_query fun w₂ hs₂ hp₂ => ?_)
  have hs := hs₁.trans hs₂
  have hid : w₂.pending t = id := (hp₂.trans hp₁).trans hb.pending
  rw [hid]
  have hpos : Positioned t principal chat_id last_read_seq other_user_id chat
      (w₂.db.readState chat_id principal.user_id) w₂ :=
    { other := hs.grow.db.others _ _ _ hother
      chat_row := (hs.same _ hlocked.ne_none).1 chat hrow
      locked := hs.holding hlocked
      low := not_lt.mp hlow
      high := not_lt.mp hhigh
      position := fun hne => hs₂.grow.db.chatPositionExists (hknown (by simpa using hk) hne)
      state := rfl }
  exact safe_saveReadState (hb.since hs (hp₂.trans hp₁)) (hs.commits.trans hnew) hpos

/-- **An advance keeps the locking discipline.** -/
theorem safe_advance (hb : Begun sec t (.advance principal chat_id last_read_seq) w)
    (hnew : commitsOf t w = []) :
    Tx sec t (advance principal chat_id last_read_seq)
      (fun r w' => Ended sec t (.advance principal chat_id last_read_seq) (.ok (.readState r)) w')
      (fun x w' => Ended sec t (.advance principal chat_id last_read_seq) (.error x) w') w := by
  have hz : ∀ x w', Since sec t w w' →
      Ended sec t (.advance principal chat_id last_read_seq) (.error x) w' :=
    fun _ _ hs => hb.advance_failed hnew hs
  unfold advance
  refine Safe.bind (safe_query fun w₁ hs₁ hp₁ => ?_)
  rw [hp₁, hb.pending]
  split
  · exact hz _ w₁ hs₁
  rename_i other_user_id hother
  refine Safe.bind (safe_selectLocked (fun w₂ hs₂ _ _ => ?_) (fun chat w₂ hs₂ hp₂ hh hc => ?_)
    fun w₂ hs₂ => hz _ w₂ (hs₁.trans hs₂))
  · exact hz _ w₂ (hs₁.trans hs₂)
  · have hs := hs₁.trans hs₂
    have hid : w₂.pending t = id := (hp₂.trans hp₁).trans hb.pending
    rw [hid] at hc
    have hrow := chatFor_row hs₂.inv.wf.unique hc
    rw [row_key hrow] at hh
    exact safe_advanceLocked (hb.since hs (hp₂.trans hp₁)) (hs.commits.trans hnew)
      (hs₂.grow.db.others _ _ _ hother) hrow hh

theorem safe_states_page {after_chat_id : Option UUID} {limit : Nat}
    (hb : Begun sec t (.chatStates principal after_chat_id limit) w) :
    Tx sec t (states_page principal after_chat_id limit)
      (fun r w' => Ended sec t (.chatStates principal after_chat_id limit)
        (.ok (.chatStates r)) w')
      (fun x w' => Ended sec t (.chatStates principal after_chat_id limit) (.error x) w') w := by
  unfold states_page
  refine Safe.bind (safe_query fun w₁ hs₁ hp₁ => ?_)
  refine Safe.bind (safe_query fun w₂ hs₂ hp₂ => ?_)
  refine Safe.bind (safe_query fun w₃ hs₃ hp₃ => ?_)
  have hs := (hs₁.trans hs₂).trans hs₃
  have hid₁ : w₁.pending t = id := hp₁.trans hb.pending
  have hid₂ : w₂.pending t = id := hp₂.trans hid₁
  rw [hid₁, hid₂, hp₃.trans hid₂]
  refine ⟨hs.inv, ⟨_, w₁.db, w₂.db, w₃.db, rfl, ?_, hs₂.grow.db, hs₃.grow.db, Grows.refl _,
    hs₁.inv.wf, hs₃.inv.wf, rfl, rfl, rfl⟩, hs.op.trans hb.op, hs.outcome.trans hb.outcome⟩
  rw [hs.began]
  exact hb.began.trans hs₁.grow.db

end Transactions

end Server
end SecureMessenger

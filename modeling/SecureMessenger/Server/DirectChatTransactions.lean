import SecureMessenger.Server.MessageTransactions

/-!
# The transactions of DirectChatService

Opening a direct chat takes no lock.  It commits three rows of tables at once,
or nothing when the unique key of the pair is violated; either way it returns
the chat of the pair.
-/

namespace SecureMessenger
namespace Server

open Lib
open Lib.Discipline

section Pairs

variable {requester_id target_user_id : Uuid} {db : Db}

theorem canonical_user_pair_self (user_id : Uuid) :
    canonical_user_pair user_id user_id = .error .selfChat :=
  if_pos rfl

theorem directChat_id {requester_id chat_id : UUID} {view : DirectChatView}
    (h : db.directChat requester_id chat_id = some view) : view.chat.id = chat_id := by
  unfold Db.directChat at h
  split at h
  · rename_i chat other hchat _
    cases h
    have hkey := List.find?_some hchat
    simp only [decide_eq_true_eq] at hkey
    exact hkey.1
  · cases h

theorem pairChatId_mem {user_low_id user_high_id chat_id : UUID}
    (h : db.pairChatId user_low_id user_high_id = some chat_id) :
    ∃ p ∈ db.pairs, p.chat_id = chat_id ∧ p.user_low_id = user_low_id ∧
      p.user_high_id = user_high_id := by
  unfold Db.pairChatId at h
  obtain ⟨p, hp, rfl⟩ := Option.map_eq_some_iff.mp h
  have hkey := List.find?_some hp
  simp only [decide_eq_true_eq] at hkey
  exact ⟨p, List.mem_of_find?_eq_some hp, rfl, hkey.1, hkey.2⟩

end Pairs

section Transactions

variable {sec : Security} {t : Tid} {w : World}
variable {requester_id target_user_id : Uuid} {chat_id user_low_id user_high_id : UUID}

/-- The rows of a new chat change nothing that a lock protects. -/
theorem same_insertDirectChat (db : Db) (r : Resource) :
    Same r db (insertDirectChat chat_id user_low_id user_high_id db) := by
  cases r with
  | chat id =>
      refine ⟨fun c hc => ?_, fun _ => rfl⟩
      unfold row at hc ⊢
      unfold insertDirectChat insertPair insertMembers insertChat
      rw [List.find?_append, hc]
      rfl
  | user id =>
      exact ⟨fun _ => Iff.rfl, fun _ => Iff.rfl⟩
  | mailbox id =>
      exact fun _ h => h
  | session id =>
      exact fun _ h => ⟨h, fun _ h' => h'⟩
  | envelope id =>
      trivial
  | device id =>
      trivial

theorem committable_openDirectChat
    (hop : w.op t = some (.openDirectChat requester_id target_user_id))
    (hout : w.outcome t = none)
    (hpair : canonical_user_pair requester_id target_user_id = .ok (user_low_id, user_high_id))
    (hp : w.pending t = insertDirectChat chat_id user_low_id user_high_id) :
    Committable sec t w := by
  refine ⟨⟨_, hop, ?_⟩, fun r _ => ?_, fun h hk => ?_, hout⟩
  · rw [hp]
    exact Effect.openDirectChat w.db chat_id user_low_id user_high_id hpair
  · rw [hp]
    exact same_insertDirectChat w.db r
  · rw [hp] at hk
    exact Or.inl hk

/-- The pair has the chat. -/
def HasChat (requester_id target_user_id : Uuid) (chat_id : UUID) (db : Db) : Prop :=
  ∃ p ∈ db.pairs, p.chat_id = chat_id ∧
    canonical_user_pair requester_id target_user_id = .ok (p.user_low_id, p.user_high_id)

theorem hasChat_of_pairChatId {db : Db}
    (hpair : canonical_user_pair requester_id target_user_id = .ok (user_low_id, user_high_id))
    (h : db.pairChatId user_low_id user_high_id = some chat_id) :
    HasChat requester_id target_user_id chat_id db := by
  obtain ⟨p, hp, hid, rfl, rfl⟩ := pairChatId_mem h
  exact ⟨p, hp, hid, hpair⟩

/-- A request for two different users has failed. -/
theorem Begun.openFailed (hb : Begun sec t (.openDirectChat requester_id target_user_id) w)
    (hpair : canonical_user_pair requester_id target_user_id = .ok (user_low_id, user_high_id))
    {w' : World} (hs : Since sec t w w') (x : PyError) :
    Ended sec t (.openDirectChat requester_id target_user_id) (.error x) w' := by
  refine ⟨hs.inv, ⟨?_, fun r hr => ?_⟩, hs.op.trans hb.op, hs.outcome.trans hb.outcome⟩
  · rintro rfl
    rw [canonical_user_pair_self] at hpair
    cases hpair
  · cases hr

theorem safe_get_direct_chat (hb : Begun sec t (.openDirectChat requester_id target_user_id) w)
    (hpair : canonical_user_pair requester_id target_user_id = .ok (user_low_id, user_high_id))
    (hchat : HasChat requester_id target_user_id chat_id w.db) :
    Tx sec t (get_direct_chat requester_id chat_id)
      (fun r w' => Ended sec t (.openDirectChat requester_id target_user_id) (.ok (.chat r)) w')
      (fun x w' => Ended sec t (.openDirectChat requester_id target_user_id) (.error x) w') w := by
  unfold get_direct_chat
  refine Safe.bind (safe_query fun w₁ hs₁ hp₁ => ?_)
  rw [hp₁, hb.pending]
  split
  · exact hb.openFailed hpair hs₁ _
  · rename_i view hview
    obtain ⟨p, hp, hid, hcanonical⟩ := hchat
    refine ⟨hs₁.inv, ⟨?_, fun r hr => ?_⟩, hs₁.op.trans hb.op, hs₁.outcome.trans hb.outcome⟩
    · rintro rfl
      rw [canonical_user_pair_self] at hpair
      cases hpair
    · cases hr
      exact ⟨view, rfl, p, hs₁.grow.db.pairs p hp, hid.trans (directChat_id hview).symm,
        hcanonical⟩

/-- The three inserts commit together or not at all. -/
theorem safe_create_direct_chat
    (hb : Begun sec t (.openDirectChat requester_id target_user_id) w)
    (hpair : canonical_user_pair requester_id target_user_id = .ok (user_low_id, user_high_id))
    {Q : Unit → World → Prop} {Z : PyError → World → Prop}
    (h : ∀ w', Begun sec t (.openDirectChat requester_id target_user_id) w' →
      HasChat requester_id target_user_id chat_id w'.db → Q () w')
    (hz : ∀ x w', Since sec t w w' → Z x w') :
    Tx sec t (create_direct_chat chat_id user_low_id user_high_id) Q Z w := by
  unfold create_direct_chat
  refine Safe.bind (safe_write fun w₁ hs₁ hp₁ => ?_)
  refine Safe.bind (safe_flush (fun w₂ hs₂ hp₂ _ => ?_) (fun w₂ hs₂ => hz _ w₂ (hs₁.trans hs₂))
    fun w₂ hs₂ => hz _ w₂ (hs₁.trans hs₂))
  have hs₁₂ := hs₁.trans hs₂
  refine Safe.bind (safe_write fun w₃ hs₃ hp₃ => ?_)
  have hs₁₃ := hs₁₂.trans hs₃
  refine Safe.bind (safe_flush (fun w₄ hs₄ hp₄ _ => ?_) (fun w₄ hs₄ => hz _ w₄ (hs₁₃.trans hs₄))
    fun w₄ hs₄ => hz _ w₄ (hs₁₃.trans hs₄))
  have hs₁₄ := hs₁₃.trans hs₄
  refine Safe.bind (safe_write fun w₅ hs₅ hp₅ => ?_)
  have hs₁₅ := hs₁₄.trans hs₅
  have hpend : w₅.pending t = insertDirectChat chat_id user_low_id user_high_id := by
    rw [hp₅, hp₄, hp₃, hp₂, hp₁, hb.pending]
    rfl
  refine safe_commit (fun w₆ hs₆ hp₆ _ => ?_) (fun w₆ hs₆ hp₆ _ hi => ?_)
    (fun w₆ hs₆ _ _ => hz _ w₆ (hs₁₅.trans hs₆)) fun w₆ hs₆ => hz _ w₆ (hs₁₅.trans hs₆)
  · exact committable_openDirectChat ((hs₁₅.trans hs₆).op.trans hb.op)
      ((hs₁₅.trans hs₆).outcome.trans hb.outcome) hpair (hp₆.trans hpend)
  · have hafter : w₆.pending t w₆.db =
        insertDirectChat chat_id user_low_id user_high_id w₆.db := by
      rw [hp₆, hpend]
    refine h _ (hb.commit (hs₁₅.trans hs₆) hi ?_) ?_
    · rw [hafter]
      exact grows_insertDirectChat _ _ _ _
    · show HasChat requester_id target_user_id chat_id (w₆.pending t w₆.db)
      rw [hafter]
      exact ⟨⟨chat_id, user_low_id, user_high_id⟩, List.mem_append_right _ (by simp), rfl, hpair⟩

/-- The chat is created, or the chat of the winner is returned. -/
theorem safe_openNewChat (hb : Begun sec t (.openDirectChat requester_id target_user_id) w)
    (hpair : canonical_user_pair requester_id target_user_id = .ok (user_low_id, user_high_id)) :
    Tx sec t (openNewChat requester_id user_low_id user_high_id)
      (fun r w' => Ended sec t (.openDirectChat requester_id target_user_id) (.ok (.chat r)) w')
      (fun x w' => Ended sec t (.openDirectChat requester_id target_user_id) (.error x) w') w := by
  unfold openNewChat
  refine Safe.bind (safe_uuid4 fun chat_id w₁ hs₁ hp₁ => ?_)
  have hb₁ := hb.since hs₁ hp₁
  refine Safe.bind (Safe.attempt (safe_create_direct_chat hb₁ hpair (fun w₂ hb₂ hchat => ?_)
    fun x w₂ hs₂ => ?_))
  · exact safe_get_direct_chat hb₂ hpair hchat
  · cases x with
    | integrity =>
        refine Safe.bind (safe_rollback fun w₃ hs₃ => ?_)
        have hb₃ := hb₁.close (hs₂.trans hs₃)
        refine Safe.bind (safe_query fun w₄ hs₄ hp₄ => ?_)
        rw [hp₄, hb₃.pending]
        split
        · exact hb₃.openFailed hpair hs₄ _
        · rename_i winning_chat_id hwinning
          exact safe_get_direct_chat (hb₃.since hs₄ hp₄) hpair
            (hasChat_of_pairChatId hpair hwinning)
    | _ => exact hb₁.openFailed hpair hs₂ _

/-- **Opening a direct chat keeps the locking discipline.** -/
theorem safe_open_direct_chat
    (hb : Begun sec t (.openDirectChat requester_id target_user_id) w)
    (hnew : commitsOf t w = []) :
    Tx sec t (open_direct_chat requester_id target_user_id)
      (fun r w' => Ended sec t (.openDirectChat requester_id target_user_id) (.ok (.chat r)) w')
      (fun x w' => Ended sec t (.openDirectChat requester_id target_user_id) (.error x) w') w := by
  unfold open_direct_chat
  cases hpair : canonical_user_pair requester_id target_user_id with
  | error x =>
      -- only a request for oneself has no pair
      have hx : x = .selfChat := by
        unfold canonical_user_pair at hpair
        split at hpair
        · cases hpair
          rfl
        · split at hpair
          · cases hpair
          · cases hpair
      subst hx
      refine ⟨hb.inv, ⟨fun _ => ⟨hnew, rfl⟩, fun r hr => ?_⟩, hb.op, hb.outcome⟩
      cases hr
  | ok users =>
      obtain ⟨user_low_id, user_high_id⟩ := users
      refine Safe.bind (α := UUID × UUID) ?_
      refine Safe.bind (safe_query fun w₁ hs₁ hp₁ => ?_)
      split
      · exact hb.openFailed hpair hs₁ _
      · refine Safe.bind (safe_query fun w₂ hs₂ hp₂ => ?_)
        have hb₂ := hb.since (hs₁.trans hs₂) (hp₂.trans hp₁)
        rw [hb₂.pending]
        split
        · rename_i existing_chat_id hexisting
          exact safe_get_direct_chat hb₂ hpair (hasChat_of_pairChatId hpair hexisting)
        · exact safe_openNewChat hb₂ hpair

end Transactions

end Server
end SecureMessenger

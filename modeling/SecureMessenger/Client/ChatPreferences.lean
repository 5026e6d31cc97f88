import SecureMessenger.Client.Contracts
import SecureMessenger.Lib.Fifo

/-!
# The chat that was selected last

`chats/chatPreferences.ts` over a store that answers some time later and may
fail: the selections and the clean-ups of one tab take effect in the order of
the calls.  A call that fails leaves the store as it is.
-/

namespace SecureMessenger
namespace Client
namespace Preferences

open Lib

/-- The values of a `ChatPreferencesStore`. -/
abbrev Values := String → Option String

/-- Calls of a `ChatPreferencesStore`. -/
inductive StoreCall
  | getLastChatId (userId : String)
  | setLastChatId (userId : String) (chatId : Option String)

/-- What a call answers. -/
abbrev StoreCall.Answer : StoreCall → Type
  | .getLastChatId _ => Except JsError (Option String)
  | .setLastChatId _ _ => Except JsError Unit

/-- What the calls do. -/
def StoreCall.exec : (c : StoreCall) → Values → c.Answer → Values → Prop
  | .getLastChatId userId, s, r, s' => s' = s ∧ (r = .ok (s userId) ∨ ∃ x, r = .error x)
  | .setLastChatId userId chatId, s, r, s' =>
      (r = .ok () ∧ s' = Function.update s userId chatId) ∨ ((∃ x, r = .error x) ∧ s' = s)

/-- Functions of the service; a selection returns nothing. -/
abbrev Async := Chaining StoreCall.Answer JsError (Option DirectChat)

/-- `this.store.getLastChatId`. -/
def getLastChatId (userId : String) : Async (Option String) :=
  chainedCall (.getLastChatId userId) >>= fun (r : Except JsError (Option String)) =>
    Prog.ofExcept r

/-- `this.store.setLastChatId`. -/
def setLastChatId (userId : String) (chatId : Option String) : Async Unit :=
  chainedCall (.setLastChatId userId chatId) >>= fun (r : Except JsError Unit) =>
    Prog.ofExcept r

/-- `chats.find((candidate) => candidate.id === chatId)`. -/
def find (chats : List DirectChat) (chatId : Option String) : Option DirectChat :=
  chats.find? fun candidate => decide (some candidate.id = chatId)

/-- The operation of `restore`. -/
def restore (userId : String) (chats : List DirectChat) : Async (Option DirectChat) := do
  let chatId ← getLastChatId userId
  let chat := find chats chatId
  if chat.isNone && isTruthy chatId then
    setLastChatId userId none
  return chat

/-- The operation of `select`. -/
def select (userId : String) (chatId : Option String) : Async (Option DirectChat) := do
  setLastChatId userId chatId
  return none

/-- The methods. -/
inductive Op
  | restore (userId : String) (chats : List DirectChat)
  | select (userId : String) (chatId : Option String)
deriving DecidableEq

/-- The operation that a method queues. -/
def Op.operation : Op → Async (Option DirectChat)
  | .restore userId chats => Preferences.restore userId chats
  | .select userId chatId => Preferences.select userId chatId

/-- `ChatPreferencesService`, whose `enqueue` makes it a chain. -/
abbrev service :=
  chain StoreCall.exec Op.operation

theorem own_ofExcept {α : Type} (r : Except JsError α) :
    Prog.Calls Chained.Own (Prog.ofExcept r : Async α) := by
  cases r with
  | ok a => trivial
  | error x => trivial

theorem own_setLastChatId (userId : String) (chatId : Option String) :
    Prog.Calls Chained.Own (setLastChatId userId chatId) :=
  ⟨trivial, fun r => own_ofExcept r⟩

/-- The operations call the store only. -/
theorem own_operation (op : Op) : Prog.Calls Chained.Own op.operation := by
  cases op with
  | restore userId chats =>
      have hget : Prog.Calls Chained.Own (getLastChatId userId) :=
        ⟨trivial, fun r => own_ofExcept r⟩
      refine Prog.Calls.bind hget fun chatId => ?_
      simp only
      split
      · exact (own_setLastChatId userId none).bind fun _ => trivial
      · trivial
  | select userId chatId => exact (own_setLastChatId userId chatId).bind fun _ => trivial

/-! ## What the methods do -/

/-- What a method does to the values if nobody else is at work. -/
def Does : Op → Values → Except JsError (Option DirectChat) → Values → Prop
  | .select userId chatId, s, o, s' =>
      (o = .ok none ∧ s' = Function.update s userId chatId) ∨ ((∃ x, o = .error x) ∧ s' = s)
  | .restore userId chats, s, o, s' =>
      (o = .ok (find chats (s userId)) ∧
        s' = if (find chats (s userId)).isNone && isTruthy (s userId) then
          Function.update s userId none else s) ∨ ((∃ x, o = .error x) ∧ s' = s)

section Methods

variable {userId : String} {s s' : Values} {o : Except JsError (Option DirectChat)}

theorem does_select {chatId : Option String}
    (h : Alone StoreCall.exec (select userId chatId) s o s') :
    Does (.select userId chatId) s o s' := by
  obtain ⟨r, s₁, hx, hrest⟩ := alone_call h
  rcases hx with ⟨rfl, rfl⟩ | ⟨⟨x, rfl⟩, rfl⟩
  · exact .inl (alone_ret hrest)
  · obtain ⟨rfl, rfl⟩ := alone_throw hrest
    exact .inr ⟨⟨x, rfl⟩, rfl⟩

theorem does_restore {chats : List DirectChat}
    (h : Alone StoreCall.exec (restore userId chats) s o s') :
    Does (.restore userId chats) s o s' := by
  obtain ⟨r, s₁, ⟨rfl, hr⟩, hrest⟩ := alone_call h
  rcases hr with rfl | ⟨x, rfl⟩
  · have hclean : Alone StoreCall.exec (if (find chats (s₁ userId)).isNone && isTruthy (s₁ userId)
        then setLastChatId userId none >>= fun _ => .ret (find chats (s₁ userId))
        else .ret (find chats (s₁ userId))) s₁ o s' := hrest
    by_cases hclear : (find chats (s₁ userId)).isNone && isTruthy (s₁ userId)
    · rw [if_pos hclear] at hclean
      obtain ⟨r, s₂, hx, hend⟩ := alone_call hclean
      rcases hx with ⟨rfl, rfl⟩ | ⟨⟨x, rfl⟩, rfl⟩
      · obtain ⟨rfl, rfl⟩ := alone_ret hend
        exact .inl ⟨rfl, (if_pos hclear).symm⟩
      · obtain ⟨rfl, rfl⟩ := alone_throw hend
        exact .inr ⟨⟨x, rfl⟩, rfl⟩
    · rw [if_neg hclear] at hclean
      obtain ⟨rfl, rfl⟩ := alone_ret hclean
      exact .inl ⟨rfl, (if_neg hclear).symm⟩
  · obtain ⟨rfl, rfl⟩ := alone_throw hrest
    exact .inr ⟨⟨x, rfl⟩, rfl⟩

theorem does_operation {op : Op} (h : Alone StoreCall.exec op.operation s o s') :
    Does op s o s' := by
  cases op with
  | restore userId chats => exact does_restore h
  | select userId chatId => exact does_select h

end Methods

/-! ## Runs -/

/-- The call leaves a selection of this chat by this user as it is: it is about
another user, or restores from chats that have the chat. -/
def Spares (userId chatId : String) : Op → Prop
  | .select other _ => other ≠ userId
  | .restore other chats => other = userId → ∃ chat ∈ chats, chat.id = chatId

section Runs

variable {userId chatId : String} {s s' : Values} {s₀ : Values}
  {p : Pool (Chained StoreCall JsError (Option DirectChat)) (Chained.Answer StoreCall.Answer)
    JsError (Chain Values Op JsError (Option DirectChat))}

theorem find_isSome {chats : List DirectChat} (h : ∃ chat ∈ chats, chat.id = chatId) :
    (find chats (some chatId)).isSome := by
  obtain ⟨chat, hmem, hid⟩ := h
  unfold find
  rw [List.find?_isSome]
  exact ⟨chat, hmem, by simp [hid]⟩

/-- What spares a selection keeps it. -/
theorem Does.keeps {op : Op} {o : Except JsError (Option DirectChat)} (h : Does op s o s')
    (hspares : Spares userId chatId op) (hs : s userId = some chatId) :
    s' userId = some chatId := by
  cases op with
  | select other id =>
      rcases h with ⟨-, rfl⟩ | ⟨-, rfl⟩
      · rw [Function.update_of_ne (Ne.symm hspares)]
        exact hs
      · exact hs
  | restore other chats =>
      rcases h with ⟨-, rfl⟩ | ⟨-, rfl⟩
      · by_cases hother : other = userId
        · subst hother
          have hfound := find_isSome (hspares rfl)
          rw [hs, Option.isNone_eq_false_iff.mpr hfound]
          exact hs
        · split
          · rw [Function.update_of_ne (Ne.symm hother)]
            exact hs
          · exact hs
      · exact hs

/-- **Calls take effect in the order in which they are made**, however long the
store takes and whatever fails: the outcomes and the values are those of making
each call after the one before has settled.  So a selection stands unless a
later call is for it to change: no clean-up of a missing chat overwrites a
selection that is newer. -/
theorem preferences_take_effect_in_call_order
    (hp : System.Reachable service (· = Chain.fresh s₀) p) :
    p.shared.called = p.shared.finished.map Prod.fst ++ p.shared.pending ∧
    Sequence (fun entry s s' => ∃ op, p.shared.op entry.1 = some op ∧ Does op s entry.2 s')
      p.shared.finished s₀ p.shared.committed ∧
    (p.shared.pending = [] → p.shared.store = p.shared.committed) ∧
    ∀ before t after userId chatId, p.shared.finished = before ++ (t, .ok none) :: after →
      p.shared.op t = some (.select userId (some chatId)) →
      (∀ entry ∈ after, ∀ op, p.shared.op entry.1 = some op → Spares userId chatId op) →
        p.shared.committed userId = some chatId := by
  have h := reachable_orderly own_operation hp
  have hsequence : Sequence
      (fun entry s s' => ∃ op, p.shared.op entry.1 = some op ∧ Does op s entry.2 s')
      p.shared.finished s₀ p.shared.committed := by
    refine h.sequence.mono fun entry _ s s' hstep => ?_
    obtain ⟨op, hop, halone⟩ := hstep
    exact ⟨op, hop, does_operation halone⟩
  refine ⟨h.called, hsequence, fun hnil => ?_, ?_⟩
  · refine h.rest ?_
    cases hrun : p.shared.running with
    | none => rfl
    | some t =>
        have hfirst := h.first t hrun
        rw [hnil] at hfirst
        cases hfirst
  · intro before t after userId chatId hfinished hop hspares
    rw [hfinished, sequence_append] at hsequence
    obtain ⟨s₁, -, s₂, ⟨op, hop', hdoes⟩, hafter⟩ := hsequence
    rw [hop, Option.some.injEq] at hop'
    subst hop'
    have hselected : s₂ userId = some chatId := by
      rcases hdoes with ⟨-, rfl⟩ | ⟨⟨x, hx⟩, -⟩
      · exact Function.update_self userId _ _
      · cases hx
    refine hafter.keeps (P := fun s => s userId = some chatId) hselected
      fun entry hentry s s' hstep hs => ?_
    obtain ⟨op, hop, hdoes⟩ := hstep
    exact hdoes.keeps (hspares entry hentry op hop) hs

/-- The last chat has been deleted. -/
def staleValues : Values :=
  Function.update (fun _ => none) "alice" (some "deleted")

/-- The clean-up of the deleted chat is delayed, and a chat is selected in the
meantime. -/
theorem reachable_selected :
    ∃ p : Pool (Chained StoreCall JsError (Option DirectChat))
        (Chained.Answer StoreCall.Answer) JsError (Chain Values Op JsError (Option DirectChat)),
      System.Reachable service (· = Chain.fresh staleValues) p ∧
        p.shared.finished = [(0, .ok none)] ++ (1, .ok none) :: [] ∧ p.shared.pending = [] ∧
          p.shared.op 1 = some (.select "alice" (some "carol")) := by
  have h : System.Reachable service (· = Chain.fresh staleValues)
      (System.idle (Chain.fresh staleValues)) := .idle rfl
  have h := h.starts 0 (.restore "alice" []) rfl rfl
  have h := h.acts 0 rfl () ⟨rfl, rfl⟩
  have h := h.acts 0 rfl (.ok (some "deleted")) ⟨_, ⟨rfl, .inl rfl⟩, rfl⟩
  have h := h.starts 1 (.select "alice" (some "carol")) rfl rfl
  have h := h.acts 0 rfl (.ok ()) ⟨_, .inl ⟨rfl, rfl⟩, rfl⟩
  have h := h.acts 0 rfl () rfl
  have h := h.acts 1 rfl () ⟨rfl, rfl⟩
  have h := h.acts 1 rfl (.ok ()) ⟨_, .inl ⟨rfl, rfl⟩, rfl⟩
  have h := h.acts 1 rfl () rfl
  exact ⟨_, h, rfl, rfl, rfl⟩

/-- The selection stands. -/
theorem preferences_take_effect_in_call_order_selected :
    ∃ p : Pool (Chained StoreCall JsError (Option DirectChat))
        (Chained.Answer StoreCall.Answer) JsError (Chain Values Op JsError (Option DirectChat)),
      p.shared.called = [0, 1] ∧ p.shared.store "alice" = some "carol" := by
  obtain ⟨p, hp, hfinished, hpending, hop⟩ := reachable_selected
  obtain ⟨hcalled, -, hrest, hselection⟩ := preferences_take_effect_in_call_order hp
  refine ⟨p, ?_, ?_⟩
  · rw [hcalled, hfinished, hpending]
    rfl
  · rw [hrest hpending]
    exact hselection [(0, .ok none)] 1 [] "alice" "carol" hfinished hop
      fun _ hentry => by cases hentry

end Runs

end Preferences
end Client
end SecureMessenger

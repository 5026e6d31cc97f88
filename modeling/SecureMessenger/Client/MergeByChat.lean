import SecureMessenger.Client.Convergence

/-!
# Merging by chat

`mergeMessagesByChat` on the objects of the store: the arrays and the map have
identities, and a chat whose messages do not change keeps its array.  What it
does is, chat by chat, `mergeMessages`.
-/

namespace SecureMessenger
namespace Client

open Lib

/-- An array of messages; `ref` is its identity under `===`. -/
structure MessageArray where
  ref : Nat
  messages : List DisplayMessage

/-- `MessagesByChat`, an object of its own. -/
structure MessagesByChat where
  ref : Nat
  arrays : Dict String MessageArray

/-- `mergeMessages` on arrays, `fresh` being the identity of the next object.
The identity of the object after it comes back with the result. -/
def mergeMessageArrays (current : MessageArray) (incoming : List DisplayMessage) (fresh : Nat) :
    MessageArray × Nat :=
  if incoming = [] then (current, fresh)
  else
    let s := incoming.foldl mergeStep (mergeStart current.messages)
    if s.changed then
      (⟨fresh, (s.messages.values.map MessageObject.message).insertionSort
        (fun a b => messageLe a b)⟩, fresh + 1)
    else (current, fresh)

/-- `current.get(chatId) ?? []`. -/
def previousArray (current : MessagesByChat) (chatId : String) (fresh : Nat) : MessageArray :=
  (current.arrays.get chatId).getD ⟨fresh, []⟩

/-- The loop of `mergeMessagesByChat`; `next` is undefined until a chat has
changed. -/
structure ByChatLoop where
  next : Option MessagesByChat
  fresh : Nat

/-- One round of the loop. -/
def mergeGroup (current : MessagesByChat) (s : ByChatLoop)
    (group : String × List DisplayMessage) : ByChatLoop :=
  let previous := previousArray current group.1 s.fresh
  let merged := mergeMessageArrays previous group.2 (s.fresh + 1)
  if merged.1.ref = previous.ref then { s with fresh := merged.2 }
  else
    match s.next with
    | some next =>
        { next := some { next with arrays := next.arrays.set group.1 merged.1 }
          fresh := merged.2 }
    | none =>
        -- `next ??= new Map(current)`
        { next := some ⟨merged.2, current.arrays.set group.1 merged.1⟩
          fresh := merged.2 + 1 }

/-- `mergeMessagesByChat` on objects. -/
def mergeMessageArraysByChat (current : MessagesByChat) (incoming : List DisplayMessage)
    (fresh : Nat) : MessagesByChat :=
  ((groupByChat incoming).entries.foldl (mergeGroup current) ⟨none, fresh⟩).next.getD current

/-- The updates of one chat, in their order. -/
def messagesOf (chat : String) (incoming : List DisplayMessage) : List DisplayMessage :=
  incoming.filter fun message => decide (message.chatId = chat)

section Groups

variable {incoming : List DisplayMessage} {chat : String}

theorem groupByChat_foldl (incoming : List DisplayMessage)
    (grouped : Dict String (List DisplayMessage)) :
    (incoming.foldl (fun grouped message => grouped.set message.chatId
        ((grouped.get message.chatId).getD [] ++ [message])) grouped).get chat =
      if messagesOf chat incoming = [] then grouped.get chat
      else some ((grouped.get chat).getD [] ++ messagesOf chat incoming) := by
  induction incoming generalizing grouped with
  | nil => rfl
  | cons message rest ih =>
      rw [List.foldl_cons, ih, Dict.get_set]
      unfold messagesOf
      by_cases hchat : message.chatId = chat
      · subst hchat
        rw [List.filter_cons_of_pos (by simp), if_pos rfl, if_neg (List.cons_ne_nil _ _),
          Option.getD_some, List.append_assoc, List.singleton_append]
        split_ifs with hrest
        · rw [show rest.filter _ = [] from hrest]
        · rfl
      · rw [List.filter_cons_of_neg (by simpa using hchat), if_neg hchat]

/-- The group of a chat is its updates. -/
theorem get_groupByChat : (groupByChat incoming).get chat =
    if messagesOf chat incoming = [] then none else some (messagesOf chat incoming) :=
  groupByChat_foldl incoming Dict.empty

theorem messagesOf_eq_nil : messagesOf chat incoming = [] ↔
    chat ∉ incoming.map DisplayMessage.chatId := by
  unfold messagesOf
  rw [List.filter_eq_nil_iff, List.mem_map]
  constructor
  · rintro h ⟨m, hm, rfl⟩
    simpa using h m hm
  · intro h m hm hchat
    exact h ⟨m, hm, of_decide_eq_true hchat⟩

theorem mem_groupByChat {group : String × List DisplayMessage} :
    group ∈ (groupByChat incoming).entries ↔
      group.2 = messagesOf group.1 incoming ∧ group.2 ≠ [] := by
  rw [← Prod.mk.eta (p := group), ← Dict.get_eq_some_iff, get_groupByChat]
  split_ifs with h
  · simp_all
  · constructor
    · intro hgroup
      have heq := Option.some.inj hgroup
      exact ⟨heq.symm, heq ▸ h⟩
    · rintro ⟨hgroup, -⟩
      rw [hgroup]

end Groups

section OneChat

variable {current : MessageArray} {incoming : List DisplayMessage} {fresh : Nat}

/-- The array holds what `mergeMessages` gives. -/
theorem mergeMessageArrays_messages :
    (mergeMessageArrays current incoming fresh).1.messages =
      mergeMessages current.messages incoming := by
  unfold mergeMessageArrays mergeMessages
  simp only
  split_ifs
  · rfl
  · rfl
  · rfl

/-- Some update changed a row. -/
def changes (current incoming : List DisplayMessage) : Bool :=
  (incoming.foldl mergeStep (mergeStart current)).changed

/-- The array stays, or it is a new one. -/
theorem mergeMessageArrays_eq :
    mergeMessageArrays current incoming fresh =
      if changes current.messages incoming then
        (⟨fresh, mergeMessages current.messages incoming⟩, fresh + 1)
      else (current, fresh) := by
  unfold mergeMessageArrays changes mergeMessages
  by_cases h : incoming = []
  · subst h
    simp [mergeStart]
  · simp only [h, if_false]
    split_ifs
    · rfl
    · rfl

theorem mergeMessages_of_unchanged {current incoming : List DisplayMessage}
    (h : changes current incoming = false) : mergeMessages current incoming = current := by
  unfold changes at h
  unfold mergeMessages
  simp [h]

/-- A change leaves a row. -/
theorem mergeMessages_ne_nil {current incoming : List DisplayMessage}
    (h : changes current incoming = true) : mergeMessages current incoming ≠ [] := by
  have hstep : ∀ (s : MergeState) (u : DisplayMessage),
      (s.changed = true → s.messages.entries ≠ []) →
        (mergeStep s u).changed = true → (mergeStep s u).messages.entries ≠ [] := by
    intro s u hs
    unfold mergeStep
    simp only
    split_ifs
    · exact hs
    · exact hs
    · exact fun _ => Dict.entries_set_ne_nil
  have hloop : ∀ (us : List DisplayMessage) (s : MergeState),
      (s.changed = true → s.messages.entries ≠ []) →
        (us.foldl mergeStep s).changed = true → (us.foldl mergeStep s).messages.entries ≠ [] := by
    intro us
    induction us with
    | nil => exact fun _ hs => hs
    | cons u rest ih => exact fun s hs => ih _ (hstep s u hs)
  have hne := hloop incoming (mergeStart current) (by simp [mergeStart]) h
  unfold changes at h
  unfold mergeMessages
  split_ifs with hempty
  · subst hempty
    cases h
  · simp only [h, if_true]
    intro hnil
    have hlength := congrArg List.length hnil
    simp [Dict.values] at hlength
    exact hne hlength

end OneChat

section Loop

variable {current : MessagesByChat} {incoming : List DisplayMessage} {fresh : Nat}
  {s : ByChatLoop} {group : String × List DisplayMessage}
  {groups : List (String × List DisplayMessage)}

/-- The messages of a chat, none if the map does not have it. -/
def messagesIn (current : MessagesByChat) (chat : String) : List DisplayMessage :=
  ((current.arrays.get chat).map MessageArray.messages).getD []

/-- The objects of the map were made before `fresh`. -/
structure MessagesByChat.Below (current : MessagesByChat) (fresh : Nat) : Prop where
  map : current.ref < fresh
  arrays : ∀ chat array, current.arrays.get chat = some array → array.ref < fresh

theorem previousArray_messages (chat : String) :
    (previousArray current chat fresh).messages = messagesIn current chat := by
  unfold previousArray messagesIn
  cases current.arrays.get chat with
  | none => rfl
  | some array => rfl

theorem previousArray_ref (h : current.Below fresh) (chat : String) {n : Nat} (hn : fresh ≤ n) :
    (previousArray current chat n).ref < n + 1 := by
  unfold previousArray
  cases hget : current.arrays.get chat with
  | none => exact Nat.lt_succ_self n
  | some array =>
      have := h.arrays chat array hget
      simp only [Option.getD_some]
      omega

/-- The merge of the group changes its chat. -/
def ChangesChat (current : MessagesByChat) (group : String × List DisplayMessage) : Prop :=
  changes (messagesIn current group.1) group.2 = true

/-- One round of the loop: nothing changes, or the array of the chat is new. -/
theorem mergeGroup_eq (h : current.Below fresh) (hs : fresh ≤ s.fresh) :
    (¬ChangesChat current group ∧ mergeGroup current s group = { s with fresh := s.fresh + 1 }) ∨
      (ChangesChat current group ∧ ∃ ref array n,
        mergeGroup current s group =
          ⟨some ⟨ref, (s.next.getD current).arrays.set group.1 array⟩, n⟩ ∧
        array.messages = mergeMessages (messagesIn current group.1) group.2 ∧
        fresh ≤ array.ref ∧ s.fresh ≤ n ∧
        ref = (s.next.map MessagesByChat.ref).getD (array.ref + 1)) := by
  have hprevious : (previousArray current group.1 s.fresh).messages = messagesIn current group.1 :=
    previousArray_messages group.1
  have hold := previousArray_ref h group.1 hs
  unfold ChangesChat mergeGroup
  simp only [mergeMessageArrays_eq, hprevious]
  cases hchanges : changes (messagesIn current group.1) group.2 with
  | false => simp
  | true =>
      right
      refine ⟨rfl, ?_⟩
      have hne : s.fresh + 1 ≠ (previousArray current group.1 s.fresh).ref := by omega
      simp only [if_true, hne, if_false]
      cases s.next with
      | some next => exact ⟨next.ref, _, _, rfl, rfl, by simp only; omega, by omega, rfl⟩
      | none => exact ⟨_, _, _, rfl, rfl, by simp only; omega, by omega, rfl⟩

/-- Where the loop stands after some groups: `next` is undefined if none of them
changed its chat, else it is a new map in which these chats, and no others,
have new arrays. -/
structure LoopAt (current : MessagesByChat) (fresh : Nat) (s : ByChatLoop)
    (groups : List (String × List DisplayMessage)) : Prop where
  later : fresh ≤ s.fresh
  undefined : s.next = none ↔ ∀ group ∈ groups, ¬ChangesChat current group
  map : ∀ next, s.next = some next → fresh ≤ next.ref
  kept : ∀ chat, (∀ group ∈ groups, group.1 = chat → ¬ChangesChat current group) →
    (s.next.getD current).arrays.get chat = current.arrays.get chat
  changed : ∀ group ∈ groups, ChangesChat current group →
    ∃ array, (s.next.getD current).arrays.get group.1 = some array ∧ fresh ≤ array.ref ∧
      array.messages = mergeMessages (messagesIn current group.1) group.2

theorem loopAt_start : LoopAt current fresh ⟨none, fresh⟩ [] := by
  constructor <;> simp

theorem LoopAt.step (h : LoopAt current fresh s groups) (hbelow : current.Below fresh)
    (hnew : group.1 ∉ groups.map Prod.fst) :
    LoopAt current fresh (mergeGroup current s group) (groups ++ [group]) := by
  rcases mergeGroup_eq hbelow h.later with ⟨hsame, hstep⟩ | ⟨hchanges, ref, array, n, hstep,
    hmessages, harray, hn, href⟩
  · rw [hstep]
    constructor
    · have := h.later
      simp only
      omega
    · simp only [h.undefined, List.mem_append, List.mem_singleton]
      constructor
      · rintro hall g (hg | rfl)
        · exact hall g hg
        · exact hsame
      · exact fun hall g hg => hall g (Or.inl hg)
    · exact h.map
    · exact fun chat hall => h.kept chat fun g hg => hall g (List.mem_append_left _ hg)
    · intro g hg hchanges
      rcases List.mem_append.mp hg with hg | hg
      · exact h.changed g hg hchanges
      · obtain rfl := List.mem_singleton.mp hg
        exact absurd hchanges hsame
  · rw [hstep]
    constructor
    · have := h.later
      simp only
      omega
    · simp only [reduceCtorEq, false_iff, not_forall]
      exact ⟨group, List.mem_append_right _ (List.mem_singleton_self _), fun hno => hno hchanges⟩
    · intro next hnext
      obtain rfl := Option.some.inj hnext
      simp only
      rw [href]
      cases hs : s.next with
      | none =>
          simp only [Option.map_none, Option.getD_none]
          omega
      | some next => exact h.map next hs
    · intro chat hall
      have hne : group.1 ≠ chat := fun heq =>
        hall group (List.mem_append_right _ (List.mem_singleton_self _)) heq hchanges
      simp only [Option.getD_some]
      rw [Dict.get_set, if_neg hne]
      exact h.kept chat fun g hg => hall g (List.mem_append_left _ hg)
    · intro g hg hgchanges
      simp only [Option.getD_some, Dict.get_set]
      rcases List.mem_append.mp hg with hg | hg
      · have hne : group.1 ≠ g.1 := fun heq => hnew (heq ▸ List.mem_map_of_mem hg)
        rw [if_neg hne]
        exact h.changed g hg hgchanges
      · obtain rfl := List.mem_singleton.mp hg
        exact ⟨array, if_pos rfl, harray, hmessages⟩

theorem LoopAt.foldl (h : LoopAt current fresh s groups) (hbelow : current.Below fresh)
    (rest : List (String × List DisplayMessage))
    (hnodup : ((groups ++ rest).map Prod.fst).Nodup) :
    LoopAt current fresh (rest.foldl (mergeGroup current) s) (groups ++ rest) := by
  induction rest generalizing s groups with
  | nil =>
      rw [List.append_nil]
      exact h
  | cons group rest ih =>
      have hnew : group.1 ∉ groups.map Prod.fst := by
        rw [List.map_append, List.nodup_append] at hnodup
        intro hmem
        exact hnodup.2.2 _ hmem group.1 (by simp) rfl
      have happend : groups ++ group :: rest = (groups ++ [group]) ++ rest := by simp
      rw [happend] at hnodup ⊢
      exact ih (h.step hbelow hnew) hnodup

/-- The loop over all groups. -/
theorem loopAt_end (hbelow : current.Below fresh) (incoming : List DisplayMessage) :
    LoopAt current fresh ((groupByChat incoming).entries.foldl (mergeGroup current) ⟨none, fresh⟩)
      (groupByChat incoming).entries :=
  loopAt_start.foldl hbelow _ (groupByChat incoming).nodup

end Loop

section Pointwise

variable {current : MessagesByChat} {incoming : List DisplayMessage} {fresh : Nat}

/-- On the lists the arrays hold, this is `mergeMessagesByChat`. -/
theorem mergeMessageArraysByChat_messages (hbelow : current.Below fresh) :
    (mergeMessageArraysByChat current incoming fresh).arrays.mapValues MessageArray.messages =
      mergeMessagesByChat (current.arrays.mapValues MessageArray.messages) incoming := by
  have hloop : ∀ (rest done : List (String × List DisplayMessage)) (s : ByChatLoop),
      LoopAt current fresh s done → ((done ++ rest).map Prod.fst).Nodup →
      (((rest.foldl (mergeGroup current) s).next.getD current).arrays.mapValues
          MessageArray.messages) =
        rest.foldl (fun next group =>
          let previous :=
            ((current.arrays.mapValues MessageArray.messages).get group.1).getD []
          let merged := mergeMessages previous group.2
          if merged = previous then next else next.set group.1 merged)
          ((s.next.getD current).arrays.mapValues MessageArray.messages) := by
    intro rest
    induction rest with
    | nil => exact fun _ _ _ _ => rfl
    | cons group rest ih =>
        intro done s hat hnodup
        have hnew : group.1 ∉ done.map Prod.fst := by
          rw [List.map_append, List.nodup_append] at hnodup
          intro hmem
          exact hnodup.2.2 _ hmem group.1 (by simp) rfl
        have happend : done ++ group :: rest = (done ++ [group]) ++ rest := by simp
        rw [List.foldl_cons, List.foldl_cons, ih _ _ (hat.step hbelow hnew) (happend ▸ hnodup)]
        congr 1
        have hprevious : ((current.arrays.mapValues MessageArray.messages).get group.1).getD [] =
            messagesIn current group.1 := by
          rw [Dict.get_mapValues]
          rfl
        simp only [hprevious]
        rcases mergeGroup_eq hbelow hat.later with ⟨hsame, hstep⟩ |
          ⟨hchanges, ref, array, n, hstep, hmessages, -, -, -⟩
        · have hunchanged : changes (messagesIn current group.1) group.2 = false := by
            rw [← Bool.not_eq_true]
            exact hsame
          rw [hstep, if_pos (mergeMessages_of_unchanged hunchanged)]
        · rw [hstep, Option.getD_some, Dict.mapValues_set, hmessages]
          split_ifs with hequal
          · -- a new array with the same messages takes the place of the old one
            refine Dict.set_of_get ?_
            have hkept := hat.kept group.1 fun g hg heq =>
              absurd (List.mem_map_of_mem hg) (heq ▸ hnew)
            have hne := mergeMessages_ne_nil hchanges
            rw [hequal] at hne
            rw [Dict.get_mapValues, hkept, hequal]
            unfold messagesIn at hne ⊢
            cases hget : current.arrays.get group.1 with
            | some array => rfl
            | none =>
                rw [hget] at hne
                exact absurd rfl hne
          · rfl
  exact hloop _ [] _ loopAt_start (groupByChat incoming).nodup

/-- The merge returns the array itself if no row changes. -/
theorem mergeMessageArrays_same {array : MessageArray} {n : Nat} (h : array.ref < n) :
    (mergeMessageArrays array incoming n).1 = array ↔
      changes array.messages incoming = false := by
  rw [mergeMessageArrays_eq]
  cases changes array.messages incoming with
  | false => simp
  | true =>
      simp only [if_true, Bool.true_eq_false, iff_false]
      intro heq
      have href := congrArg MessageArray.ref heq
      simp only at href
      omega

theorem changes_nil (current : List DisplayMessage) : changes current [] = false :=
  rfl

/-- A chat without messages is changed by every batch for it. -/
theorem changes_of_nil (hne : incoming ≠ []) : changes [] incoming = true := by
  have hkept : ∀ (us : List DisplayMessage) (s : MergeState), s.changed = true →
      (us.foldl mergeStep s).changed = true := by
    intro us
    induction us with
    | nil => exact fun _ h => h
    | cons u rest ih =>
        intro s hs
        refine ih _ ?_
        unfold mergeStep
        simp only
        split_ifs
        · exact hs
        · exact hs
        · rfl
  cases incoming with
  | nil => exact absurd rfl hne
  | cons u rest =>
      refine hkept rest _ ?_
      have hprior : priorOf (mergeStart []) u = none := by
        unfold priorOf
        cases commandKey u with
        | none => simp [mergeStart, objectsOf, Dict.ofList]
        | some key => simp [mergeStart, objectsOf, Dict.ofList]
      unfold mergeStep
      simp [hprior]

/-- The chats that a batch changes. -/
theorem changesChat_iff {chat : String} :
    (∃ group ∈ (groupByChat incoming).entries, group.1 = chat ∧ ChangesChat current group) ↔
      changes (messagesIn current chat) (messagesOf chat incoming) = true := by
  constructor
  · rintro ⟨group, hgroup, rfl, hchanges⟩
    rw [← (mem_groupByChat.mp hgroup).1]
    exact hchanges
  · intro hchanges
    have hne : messagesOf chat incoming ≠ [] := by
      intro hnil
      rw [hnil, changes_nil] at hchanges
      cases hchanges
    exact ⟨(chat, messagesOf chat incoming), mem_groupByChat.mpr ⟨rfl, hne⟩, rfl, hchanges⟩

/-- What becomes of one chat. -/
theorem array_after (hbelow : current.Below fresh) (incoming : List DisplayMessage)
    (chat : String) :
    if changes (messagesIn current chat) (messagesOf chat incoming) then
      ∃ array, (mergeMessageArraysByChat current incoming fresh).arrays.get chat = some array ∧
        fresh ≤ array.ref ∧
        array.messages = mergeMessages (messagesIn current chat) (messagesOf chat incoming)
    else (mergeMessageArraysByChat current incoming fresh).arrays.get chat =
      current.arrays.get chat := by
  have hend := loopAt_end hbelow incoming
  split_ifs with hchanges
  · obtain ⟨group, hgroup, rfl, hgroupChanges⟩ := changesChat_iff.mpr hchanges
    rw [← (mem_groupByChat.mp hgroup).1]
    exact hend.changed group hgroup hgroupChanges
  · exact hend.kept chat fun group hgroup heq hgroupChanges =>
      hchanges (changesChat_iff.mp ⟨group, hgroup, heq, hgroupChanges⟩)

/-- The map is the same object if no chat changed, and a new one otherwise. -/
theorem map_after (hbelow : current.Below fresh) :
    ((mergeMessageArraysByChat current incoming fresh).ref = current.ref ↔
      mergeMessageArraysByChat current incoming fresh = current) ∧
    (mergeMessageArraysByChat current incoming fresh = current ↔
      ∀ chat, changes (messagesIn current chat) (messagesOf chat incoming) = false) := by
  have hend := loopAt_end hbelow incoming
  have hnone : (∀ group ∈ (groupByChat incoming).entries, ¬ChangesChat current group) ↔
      ∀ chat, changes (messagesIn current chat) (messagesOf chat incoming) = false := by
    constructor
    · intro hall chat
      rw [← Bool.not_eq_true]
      intro hchanges
      obtain ⟨group, hgroup, -, hgroupChanges⟩ := changesChat_iff.mpr hchanges
      exact hall group hgroup hgroupChanges
    · intro hall group hgroup hgroupChanges
      have hchanges := changesChat_iff.mp ⟨group, hgroup, rfl, hgroupChanges⟩
      rw [hall] at hchanges
      cases hchanges
  rw [← hnone, ← hend.undefined]
  unfold mergeMessageArraysByChat
  cases hnext : ((groupByChat incoming).entries.foldl (mergeGroup current) ⟨none, fresh⟩).next with
  | none => simp
  | some next =>
      have hnew := hend.map next hnext
      have hold := hbelow.map
      simp only [Option.getD_some, reduceCtorEq, iff_false]
      refine ⟨⟨fun href => by omega, congrArg _⟩, ?_⟩
      rintro rfl
      omega

/-- **Main result.**  Merging by chat is merging each chat: its messages are those
`mergeMessages` makes of its previous ones and its updates; its array stays the
same object if the merge returns it, and if no update is of the chat; the map
stays the same object exactly if every merge returns its array; and two batches
with the same updates of each chat, in the same order, do the same. -/
theorem merging_by_chat_is_pointwise (hbelow : current.Below fresh)
    (incoming : List DisplayMessage) :
    (∀ chat, messagesIn (mergeMessageArraysByChat current incoming fresh) chat =
        mergeMessages (messagesIn current chat) (messagesOf chat incoming)) ∧
      (∀ chat, (mergeMessageArraysByChat current incoming fresh).arrays.get chat = none ↔
        current.arrays.get chat = none ∧ chat ∉ incoming.map DisplayMessage.chatId) ∧
      (∀ chat, chat ∉ incoming.map DisplayMessage.chatId →
        (mergeMessageArraysByChat current incoming fresh).arrays.get chat =
          current.arrays.get chat) ∧
      (∀ chat array, current.arrays.get chat = some array →
        ((mergeMessageArraysByChat current incoming fresh).arrays.get chat = some array ↔
          (mergeMessageArrays array (messagesOf chat incoming) fresh).1 = array)) ∧
      (mergeMessageArraysByChat current incoming fresh = current ↔
        ∀ chat, (mergeMessageArrays (previousArray current chat fresh)
          (messagesOf chat incoming) (fresh + 1)).1 = previousArray current chat fresh) ∧
      ((mergeMessageArraysByChat current incoming fresh).ref = current.ref ↔
        mergeMessageArraysByChat current incoming fresh = current) ∧
      ∀ incoming', (∀ chat, messagesOf chat incoming' = messagesOf chat incoming) →
        (∀ chat,
          ((mergeMessageArraysByChat current incoming' fresh).arrays.get chat).map
              MessageArray.messages =
            ((mergeMessageArraysByChat current incoming fresh).arrays.get chat).map
              MessageArray.messages) ∧
        (∀ chat array, current.arrays.get chat = some array →
          ((mergeMessageArraysByChat current incoming' fresh).arrays.get chat = some array ↔
            (mergeMessageArraysByChat current incoming fresh).arrays.get chat = some array)) ∧
        (mergeMessageArraysByChat current incoming' fresh = current ↔
          mergeMessageArraysByChat current incoming fresh = current) := by
  have hsame : ∀ (us : List DisplayMessage) (chat : String) (array : MessageArray),
      current.arrays.get chat = some array →
      ((mergeMessageArraysByChat current us fresh).arrays.get chat = some array ↔
        (mergeMessageArrays array (messagesOf chat us) fresh).1 = array) := by
    intro us chat array harray
    have hold := hbelow.arrays chat array harray
    have hmessages : messagesIn current chat = array.messages := by
      unfold messagesIn
      rw [harray]
      rfl
    have hafter := array_after hbelow us chat
    rw [mergeMessageArrays_same hold, ← hmessages]
    split_ifs at hafter with hchanges
    · obtain ⟨new, hget, hnew, -⟩ := hafter
      rw [hget, hchanges]
      simp only [Option.some.injEq, Bool.true_eq_false, iff_false]
      rintro rfl
      omega
    · rw [hafter, harray]
      simpa using hchanges
  have hmap : ∀ us : List DisplayMessage,
      (mergeMessageArraysByChat current us fresh = current ↔
        ∀ chat, (mergeMessageArrays (previousArray current chat fresh)
          (messagesOf chat us) (fresh + 1)).1 = previousArray current chat fresh) := by
    intro us
    rw [(map_after hbelow).2]
    refine forall_congr' fun chat => ?_
    rw [mergeMessageArrays_same (previousArray_ref hbelow chat (Nat.le_refl fresh)),
      previousArray_messages]
  have hlists : ∀ (us : List DisplayMessage) (chat : String),
      ((mergeMessageArraysByChat current us fresh).arrays.get chat).map MessageArray.messages =
        if changes (messagesIn current chat) (messagesOf chat us) then
          some (mergeMessages (messagesIn current chat) (messagesOf chat us))
        else (current.arrays.get chat).map MessageArray.messages := by
    intro us chat
    have hafter := array_after hbelow us chat
    split_ifs at hafter ⊢ with hchanges
    · obtain ⟨new, hget, -, hmessages⟩ := hafter
      rw [hget, ← hmessages]
      rfl
    · rw [hafter]
  refine ⟨?_, ?_, ?_, hsame incoming, hmap incoming, (map_after hbelow).1, ?_⟩
  · intro chat
    rw [messagesIn, hlists]
    split_ifs with hchanges
    · rfl
    · rw [Bool.not_eq_true] at hchanges
      rw [mergeMessages_of_unchanged hchanges]
      rfl
  · intro chat
    rw [← messagesOf_eq_nil, ← Option.map_eq_none_iff (f := MessageArray.messages), hlists]
    split_ifs with hchanges
    · simp only [false_iff, not_and]
      intro _ hnil
      rw [hnil, changes_nil] at hchanges
      cases hchanges
    · rw [Option.map_eq_none_iff]
      constructor
      · intro hnone
        refine ⟨hnone, ?_⟩
        by_contra hne
        have hempty : messagesIn current chat = [] := by
          unfold messagesIn
          rw [hnone]
          rfl
        rw [hempty, changes_of_nil hne] at hchanges
        exact hchanges rfl
      · exact And.left
  · intro chat hchat
    have hafter := array_after hbelow incoming chat
    rw [messagesOf_eq_nil.mpr hchat, changes_nil] at hafter
    exact hafter
  · intro incoming' hagree
    refine ⟨?_, ?_, ?_⟩
    · intro chat
      rw [hlists, hlists, hagree]
    · intro chat array harray
      rw [hsame incoming' chat array harray, hsame incoming chat array harray, hagree]
    · rw [hmap, hmap]
      simp only [hagree]

/-- A batch for one chat leaves the array of another. -/
theorem merging_by_chat_is_pointwise_other :
    (mergeMessageArraysByChat ⟨0, Dict.ofList [("other", ⟨1, []⟩)]⟩ [acceptedUpdate]
        2).arrays.get "other" = some ⟨1, []⟩ ∧
      messagesIn (mergeMessageArraysByChat ⟨0, Dict.ofList [("other", ⟨1, []⟩)]⟩
        [acceptedUpdate] 2) "chat" = [acceptedUpdate] := by
  have hbelow : MessagesByChat.Below ⟨0, Dict.ofList [("other", ⟨1, []⟩)]⟩ 2 := by
    refine ⟨by decide, fun chat array hget => ?_⟩
    obtain ⟨-, rfl⟩ := Prod.ext_iff.mp (List.mem_singleton.mp (Dict.mem_of_get_ofList hget))
    decide
  obtain ⟨hmessages, -, huntouched, -⟩ := merging_by_chat_is_pointwise hbelow [acceptedUpdate]
  refine ⟨?_, ?_⟩
  · rw [huntouched "other" (by decide)]
    rfl
  · rw [hmessages]
    decide

end Pointwise

end Client
end SecureMessenger

import SecureMessenger.Client.Convergence
import SecureMessenger.Client.HistoryCache
import SecureMessenger.Client.MergeByChat
import SecureMessenger.Client.MessageOrder

/-!
# Ranks of displayed messages

What a merge, a page of the history and a delivery update do to the status of
one displayed message.  A message keeps its rank, whatever is merged into its
list; only a message that is not in the list takes the rank of the update.
-/

namespace SecureMessenger
namespace Client

open Lib

section Ranks

/-! ## What a merge does to the status of one message -/

variable {id : String} {n : Nat} {s : MergeState} {u : DisplayMessage}
  {current incoming : List DisplayMessage}

/-- If this is the message, its status has at least the rank. -/
def RankFrom (id : String) (n : Nat) (message : DisplayMessage) : Prop :=
  message.messageId = id → n ≤ statusRank message.status.get

/-- The message is in the list. -/
def IsListed (id : String) (list : List DisplayMessage) : Prop :=
  ∃ m ∈ list, m.messageId = id

theorem nextMessage_rank (prior : Option DisplayMessage) (u : DisplayMessage) :
    statusRank (nextMessage prior u).status.get =
      max (statusRank (prior.bind (·.status.get))) (statusRank u.status.get) := by
  cases prior with
  | none =>
      rw [(nextMessage_none u).1]
      exact (Nat.zero_max _).symm
  | some m =>
      rw [nextMessage_status, statusRank_selectStatus]
      rfl

/-- A settled row is not made pending again. -/
def Skipped (s : MergeState) (u : DisplayMessage) : Prop :=
  u.status.get = some .pending ∧
    ∃ o, priorOf s u = some o ∧ ∃ status, o.message.status.get = some status ∧ status ≠ .pending

/-- A round skips the update, finds nothing new in it or writes a row. -/
theorem mergeStep_cases (s : MergeState) (u : DisplayMessage) :
    (mergeStep s u = s ∧ (Skipped s u ∨ ∃ o, priorOf s u = some o ∧
      equalMessages o.message (nextMessage (some o.message) u) = true)) ∨
    (mergeStep s u = writeRow s (priorOf s u) u ∧ ¬Skipped s u) := by
  unfold mergeStep
  simp only
  split_ifs with hskip hequal
  · rw [Bool.and_eq_true, decide_eq_true_eq, Option.any_eq_true] at hskip
    obtain ⟨⟨o, ho, hany⟩, hpending⟩ := hskip
    obtain ⟨status, hstatus, hne⟩ := (Option.any_eq_true _ _).mp hany
    exact .inl ⟨rfl, .inl ⟨hpending, o, ho, status, hstatus, of_decide_eq_true hne⟩⟩
  · obtain ⟨o, ho, heq⟩ := (Option.any_eq_true _ _).mp hequal
    rw [ho] at heq
    exact .inl ⟨rfl, .inr ⟨o, ho, heq⟩⟩
  · refine .inr ⟨rfl, fun ⟨hpending, o, ho, status, hstatus, hne⟩ => hskip ?_⟩
    rw [Bool.and_eq_true, decide_eq_true_eq, Option.any_eq_true]
    exact ⟨⟨o, ho, (Option.any_eq_true _ _).mpr ⟨status, hstatus, decide_eq_true hne⟩⟩, hpending⟩

theorem get_writeRow (prior : Option MessageObject) {key : String} {o : MessageObject}
    (h : (writeRow s prior u).messages.get key = some o) :
    (key = u.messageId ∧ o = writtenRow s prior u) ∨
      (key ≠ u.messageId ∧ s.messages.get key = some o) := by
  unfold writeRow at h
  rw [Dict.get_set] at h
  split_ifs at h with hkey
  · exact .inl ⟨hkey.symm, (Option.some.inj h).symm⟩
  · refine .inr ⟨fun heq => hkey heq.symm, ?_⟩
    cases prior with
    | none => exact h
    | some prior =>
        rw [Dict.get_delete] at h
        split_ifs at h
        exact h

theorem get_commands_writeRow (prior : Option MessageObject) {key : String} {o : MessageObject}
    (h : (writeRow s prior u).commands.get key = some o) :
    o = writtenRow s prior u ∨ s.commands.get key = some o := by
  unfold writeRow at h
  cases hk : commandKey u with
  | none =>
      simp only [hk] at h
      cases prior with
      | none => exact .inr h
      | some prior => exact .inr (get_dropCommand h)
  | some k =>
      simp only [hk] at h
      rw [Dict.get_set] at h
      split_ifs at h
      · exact .inl (Option.some.inj h).symm
      · cases prior with
        | none => exact .inr h
        | some prior => exact .inr (get_dropCommand h)

/-- The objects stand under their ids. -/
def KeyedById (s : MergeState) : Prop :=
  ∀ key o, s.messages.get key = some o → o.message.messageId = key

theorem KeyedById.step (h : KeyedById s) (u : DisplayMessage) : KeyedById (mergeStep s u) := by
  rcases mergeStep_cases s u with ⟨heq, -⟩ | ⟨heq, -⟩
  · rw [heq]
    exact h
  · rw [heq]
    intro key o ho
    rcases get_writeRow _ ho with ⟨rfl, rfl⟩ | ⟨-, ho⟩
    · exact nextMessage_messageId _
    · exact h key o ho

theorem KeyedById.foldl (h : KeyedById s) (incoming : List DisplayMessage) :
    KeyedById (incoming.foldl mergeStep s) := by
  induction incoming generalizing s with
  | nil => exact h
  | cons u rest ih => exact ih (h.step u)

theorem mergeMessages_nil (current : List DisplayMessage) : mergeMessages current [] = current :=
  if_pos rfl

/-- Where a row of a merged list comes from. -/
theorem mem_mergeMessages {m : DisplayMessage} (hm : m ∈ mergeMessages current incoming) :
    (m ∈ current ∧ ((incoming.foldl mergeStep (mergeStart current)).changed = true →
      incoming = [])) ∨
      ∃ key o, (incoming.foldl mergeStep (mergeStart current)).messages.get key = some o ∧
        o.message = m := by
  unfold mergeMessages at hm
  simp only at hm
  split_ifs at hm with hnone hchanged
  · exact .inl ⟨hm, fun _ => hnone⟩
  · obtain ⟨o, ho, rfl⟩ := List.mem_map.mp ((List.mem_insertionSort _).mp hm)
    obtain ⟨key, hget⟩ := Dict.mem_values.mp ho
    exact .inr ⟨key, o, hget, rfl⟩
  · exact .inl ⟨hm, fun h => absurd h hchanged⟩

/-- The ids of a list stay distinct. -/
theorem nodup_mergeMessages (h : (current.map DisplayMessage.messageId).Nodup) :
    ((mergeMessages current incoming).map DisplayMessage.messageId).Nodup := by
  unfold mergeMessages
  simp only
  split_ifs
  · exact h
  · have hkeyed : KeyedById (mergeStart current) := fun _ _ ho => ((mergeStart_messages h).mp ho).2
    exact (sortedValues (hkeyed.foldl incoming)).1
  · exact h

/-- The objects of the loop that are the message have at least the rank. -/
structure RanksFrom (id : String) (n : Nat) (s : MergeState) : Prop where
  keyed : KeyedById s
  messages : ∀ key o, s.messages.get key = some o → RankFrom id n o.message
  commands : ∀ key o, s.commands.get key = some o → RankFrom id n o.message

/-- What is written for an update that has the rank, or over the message. -/
theorem RanksFrom.written (h : RanksFrom id n s)
    (hu : RankFrom id n u ∨ (s.messages.get id).isSome) :
    RankFrom id n (writtenRow s (priorOf s u) u).message := by
  intro hid
  have hid : u.messageId = id := (nextMessage_messageId _).symm.trans hid
  refine le_of_le_of_eq ?_ (nextMessage_rank _ u).symm
  rcases hu with hu | hsome
  · exact le_max_of_le_right (hu hid)
  · obtain ⟨o, ho⟩ := Option.isSome_iff_exists.mp hsome
    have hprior : priorOf s u = some o := by
      rw [priorOf, hid, ho]
      rfl
    rw [hprior]
    exact le_max_of_le_left (h.messages _ _ ho (h.keyed _ _ ho))

/-- A message that is not pending is replaced by an update with its id only. -/
theorem RanksFrom.prior_id (h : RanksFrom id n s) (hn : 2 ≤ n) {o : MessageObject}
    (ho : priorOf s u = some o) (hid : o.message.messageId = id) (hskip : ¬Skipped s u) :
    u.messageId = id := by
  have hprior := ho
  unfold priorOf at ho
  rcases Option.or_eq_some_iff.mp ho with hget | ⟨-, hcommand⟩
  · exact (h.keyed _ _ hget).symm.trans hid
  · split_ifs at hcommand with hpending
    obtain ⟨key, -, hget⟩ := Option.bind_eq_some_iff.mp hcommand
    have hrank := hn.trans (h.commands _ _ hget hid)
    rw [hcommand, Option.bind_some] at hpending
    cases hstatus : o.message.status.get with
    | none =>
        rw [hstatus] at hrank
        exact absurd hrank (by decide)
    | some status =>
        rw [hstatus] at hrank hpending
        have hne : status ≠ .pending := by
          rintro rfl
          exact absurd hrank (by decide)
        have hu := hpending.resolve_left fun heq => hne (Option.some.inj heq)
        exact absurd ⟨hu, o, hprior, status, hstatus, hne⟩ hskip

/-- One round keeps the ranks. -/
theorem RanksFrom.step (h : RanksFrom id n s)
    (hu : RankFrom id n u ∨ (s.messages.get id).isSome) : RanksFrom id n (mergeStep s u) := by
  refine ⟨h.keyed.step u, ?_, ?_⟩
  · intro key o ho
    rcases mergeStep_cases s u with ⟨heq, -⟩ | ⟨heq, -⟩
    · exact h.messages key o (heq ▸ ho)
    · rw [heq] at ho
      rcases get_writeRow _ ho with ⟨-, rfl⟩ | ⟨-, ho⟩
      · exact h.written hu
      · exact h.messages key o ho
  · intro key o ho
    rcases mergeStep_cases s u with ⟨heq, -⟩ | ⟨heq, -⟩
    · exact h.commands key o (heq ▸ ho)
    · rw [heq] at ho
      rcases get_commands_writeRow _ ho with rfl | ho
      · exact h.written hu
      · exact h.commands key o ho

/-- One round does not lose the message. -/
theorem RanksFrom.isSome_step (h : RanksFrom id n s) (hn : 2 ≤ n)
    (hsome : (s.messages.get id).isSome) : ((mergeStep s u).messages.get id).isSome := by
  rcases mergeStep_cases s u with ⟨heq, -⟩ | ⟨heq, hskip⟩
  · rw [heq]
    exact hsome
  · rw [heq]
    unfold writeRow
    rw [Dict.get_set]
    split_ifs with hid
    · rfl
    · cases hp : priorOf s u with
      | none => exact hsome
      | some prior =>
          rw [Dict.get_delete]
          split_ifs with hprior
          · exact absurd (h.prior_id hn hp hprior hskip) hid
          · exact hsome

theorem RanksFrom.foldl (h : RanksFrom id n s) (hn : 2 ≤ n)
    (hin : ∀ u ∈ incoming, RankFrom id n u ∨ (s.messages.get id).isSome) :
    RanksFrom id n (incoming.foldl mergeStep s) ∧
      ((s.messages.get id).isSome → ((incoming.foldl mergeStep s).messages.get id).isSome) := by
  induction incoming generalizing s with
  | nil => exact ⟨h, fun hsome => hsome⟩
  | cons u rest ih =>
      obtain ⟨hranks, hkept⟩ := ih (h.step (hin u List.mem_cons_self)) fun u' hu' =>
        (hin u' (List.mem_cons_of_mem _ hu')).imp_right (h.isSome_step hn)
      exact ⟨hranks, fun hsome => hkept (h.isSome_step hn hsome)⟩

theorem ranksFrom_mergeStart (hnodup : (current.map DisplayMessage.messageId).Nodup)
    (h : ∀ m ∈ current, RankFrom id n m) : RanksFrom id n (mergeStart current) := by
  refine ⟨fun _ _ ho => ((mergeStart_messages hnodup).mp ho).2, fun key o ho => ?_,
    fun key o ho => ?_⟩
  · exact h _ (mem_objectsOf.mpr ⟨o, ((mergeStart_messages hnodup).mp ho).1, rfl⟩)
  · obtain ⟨o', ho', heq⟩ := List.mem_filterMap.mp (Dict.mem_of_get_ofList ho)
    obtain ⟨k, -, hk⟩ := Option.map_eq_some_iff.mp heq
    obtain ⟨rfl, rfl⟩ := Prod.mk.inj hk
    exact h _ (mem_objectsOf.mpr ⟨o', ho', rfl⟩)

theorem isSome_mergeStart (hnodup : (current.map DisplayMessage.messageId).Nodup)
    (h : IsListed id current) : ((mergeStart current).messages.get id).isSome := by
  obtain ⟨m, hm, rfl⟩ := h
  obtain ⟨o, ho, rfl⟩ := mem_objectsOf.mp hm
  rw [(mergeStart_messages hnodup).mpr ⟨ho, rfl⟩]
  rfl

/-- **A merge keeps the ranks.**  An update may have a lower one if the message
is in the list already. -/
theorem rankFrom_mergeMessages (hnodup : (current.map DisplayMessage.messageId).Nodup)
    (hn : 2 ≤ n) (hcurrent : ∀ m ∈ current, RankFrom id n m)
    (hin : (∀ u ∈ incoming, RankFrom id n u) ∨ IsListed id current) :
    ∀ m ∈ mergeMessages current incoming, RankFrom id n m := by
  obtain ⟨hranks, -⟩ := (ranksFrom_mergeStart hnodup hcurrent).foldl hn fun u hu =>
    hin.imp (fun h => h u hu) (isSome_mergeStart hnodup)
  intro m hm
  rcases mem_mergeMessages hm with ⟨hm, -⟩ | ⟨key, o, ho, rfl⟩
  · exact hcurrent m hm
  · exact hranks.messages key o ho

/-- A merge does not lose a message that is not pending. -/
theorem isListed_mergeMessages (hnodup : (current.map DisplayMessage.messageId).Nodup)
    (hn : 2 ≤ n) (hcurrent : ∀ m ∈ current, RankFrom id n m) (h : IsListed id current) :
    IsListed id (mergeMessages current incoming) := by
  obtain ⟨hranks, hkept⟩ := RanksFrom.foldl (ranksFrom_mergeStart hnodup hcurrent) hn
    fun (u : DisplayMessage) (_ : u ∈ incoming) => .inr (isSome_mergeStart hnodup h)
  unfold mergeMessages
  simp only
  split_ifs
  · exact h
  · obtain ⟨o, ho⟩ := Option.isSome_iff_exists.mp (hkept (isSome_mergeStart hnodup h))
    exact ⟨o.message, (List.mem_insertionSort _).mpr (List.mem_map.mpr
      ⟨o, Dict.mem_values.mpr ⟨id, ho⟩, rfl⟩), hranks.keyed _ _ ho⟩
  · exact h

/-- One update raises the message to its rank. -/
theorem rankFrom_mergeMessages_one (hnodup : (current.map DisplayMessage.messageId).Nodup)
    (hn : 2 ≤ n) (hu : n ≤ statusRank u.status.get) :
    ∀ m ∈ mergeMessages current [u], RankFrom u.messageId n m := by
  intro m hm hid
  have hold {m : DisplayMessage} (hm : m ∈ current) (hid : m.messageId = u.messageId) :
      ∃ o, priorOf (mergeStart current) u = some o ∧ o.message = m := by
    obtain ⟨o, ho, rfl⟩ := mem_objectsOf.mp hm
    refine ⟨o, ?_, rfl⟩
    rw [priorOf, (mergeStart_messages hnodup).mpr ⟨ho, hid⟩]
    rfl
  rcases mergeStep_cases (mergeStart current) u with ⟨heq, hwhy⟩ | ⟨heq, -⟩
  · have hm : m ∈ current := by
      rcases mem_mergeMessages hm with ⟨hm, -⟩ | ⟨key, o, ho, rfl⟩
      · exact hm
      · rw [List.foldl_cons, List.foldl_nil, heq, mergeStart_messages hnodup] at ho
        exact mem_objectsOf.mpr ⟨o, ho.1, rfl⟩
    obtain ⟨o, ho, rfl⟩ := hold hm hid
    rcases hwhy with ⟨hpending, -⟩ | ⟨o', ho', hequal⟩
    · rw [hpending] at hu
      exact absurd (hn.trans hu) (by decide)
    · obtain rfl := Option.some.inj (ho.symm.trans ho')
      rw [(equalMessages_next hequal).2, statusRank_selectStatus]
      exact le_max_of_le_right hu
  · rcases mem_mergeMessages hm with ⟨-, hchanged⟩ | ⟨key, o, hget, rfl⟩
    · rw [List.foldl_cons, List.foldl_nil, heq] at hchanged
      exact absurd (hchanged rfl) (List.cons_ne_nil _ _)
    · rw [List.foldl_cons, List.foldl_nil, heq] at hget
      rcases get_writeRow _ hget with ⟨-, rfl⟩ | ⟨hne, hget⟩
      · exact le_of_le_of_eq (le_max_of_le_right hu) (nextMessage_rank _ u).symm
      · exact absurd (((mergeStart_messages hnodup).mp hget).2.symm.trans hid) hne

/-- A merge brings in no other messages. -/
theorem id_mergeMessages (hnodup : (current.map DisplayMessage.messageId).Nodup)
    {m : DisplayMessage} (hm : m ∈ mergeMessages current incoming) :
    IsListed m.messageId current ∨ IsListed m.messageId incoming := by
  have hfrom (us : List DisplayMessage) (s : MergeState) {key : String} {o : MessageObject}
      (ho : (us.foldl mergeStep s).messages.get key = some o) :
      (∃ key', s.messages.get key' = some o) ∨ IsListed o.message.messageId us := by
    induction us generalizing s with
    | nil => exact .inl ⟨key, ho⟩
    | cons u rest ih =>
        rcases ih (mergeStep s u) ho with ⟨key', ho'⟩ | ⟨u', hu', hid⟩
        · rcases mergeStep_cases s u with ⟨heq, -⟩ | ⟨heq, -⟩
          · exact .inl ⟨key', heq ▸ ho'⟩
          · rw [heq] at ho'
            rcases get_writeRow _ ho' with ⟨-, rfl⟩ | ⟨-, ho'⟩
            · exact .inr ⟨u, List.mem_cons_self, (nextMessage_messageId _).symm⟩
            · exact .inl ⟨key', ho'⟩
        · exact .inr ⟨u', List.mem_cons_of_mem _ hu', hid⟩
  rcases mem_mergeMessages hm with ⟨hm, -⟩ | ⟨key, o, ho, rfl⟩
  · exact .inl ⟨m, hm, rfl⟩
  · rcases hfrom incoming _ ho with ⟨key', ho⟩ | hin
    · exact .inl ⟨o.message, mem_objectsOf.mpr ⟨o, ((mergeStart_messages hnodup).mp ho).1, rfl⟩,
        rfl⟩
    · exact .inr hin

end Ranks

section ByChat

variable {held : Dict String (List DisplayMessage)} {chat : String}

/-- One round of `mergeMessagesByChat`. -/
def mergeInto (held next : Dict String (List DisplayMessage))
    (group : String × List DisplayMessage) : Dict String (List DisplayMessage) :=
  let previous := (held.get group.1).getD []
  let merged := mergeMessages previous group.2
  if merged = previous then next else next.set group.1 merged

theorem getD_mergeInto {next : Dict String (List DisplayMessage)}
    (h : next.get chat = held.get chat) (group : String × List DisplayMessage) :
    ((mergeInto held next group).get chat).getD [] =
      if group.1 = chat then mergeMessages ((held.get chat).getD []) group.2
      else (held.get chat).getD [] := by
  unfold mergeInto
  simp only
  split_ifs with hsame hchat hchat
  · rw [h, ← hchat, hsame]
  · rw [h]
  · rw [Dict.get_set, if_pos hchat, hchat, Option.getD_some]
  · rw [Dict.get_set, if_neg hchat, h]

theorem get_mergeInto_of_ne {next : Dict String (List DisplayMessage)}
    {group : String × List DisplayMessage} (h : group.1 ≠ chat) :
    (mergeInto held next group).get chat = next.get chat := by
  unfold mergeInto
  simp only
  split_ifs
  · rfl
  · rw [Dict.get_set, if_neg h]

theorem get_foldl_mergeInto_of_ne {groups : List (String × List DisplayMessage)}
    {next : Dict String (List DisplayMessage)} (h : ∀ g ∈ groups, g.1 ≠ chat) :
    (groups.foldl (mergeInto held) next).get chat = next.get chat := by
  induction groups generalizing next with
  | nil => rfl
  | cons g rest ih =>
      rw [List.foldl_cons, ih fun g' hg' => h g' (List.mem_cons_of_mem _ hg'),
        get_mergeInto_of_ne (h g List.mem_cons_self)]

theorem getD_foldl_mergeInto {groups : List (String × List DisplayMessage)}
    {next : Dict String (List DisplayMessage)} (hnodup : (groups.map Prod.fst).Nodup)
    (hnext : next.get chat = held.get chat) :
    ((groups.foldl (mergeInto held) next).get chat).getD [] =
      mergeMessages ((held.get chat).getD [])
        (((groups.find? fun g => decide (g.1 = chat)).map Prod.snd).getD []) := by
  induction groups generalizing next with
  | nil => exact congrArg (·.getD []) hnext
  | cons g rest ih =>
      rw [List.map_cons, List.nodup_cons] at hnodup
      rw [List.foldl_cons]
      by_cases hg : g.1 = chat
      · rw [get_foldl_mergeInto_of_ne fun g' hg' heq =>
            hnodup.1 (List.mem_map.mpr ⟨g', hg', heq.trans hg.symm⟩),
          getD_mergeInto hnext, if_pos hg, List.find?_cons_of_pos (by simpa using hg)]
        rfl
      · rw [List.find?_cons_of_neg (by simpa using hg)]
        exact ih hnodup.2 ((get_mergeInto_of_ne hg).trans hnext)

/-- One chat of `mergeMessagesByChat`. -/
theorem getD_mergeMessagesByChat (incoming : List DisplayMessage) :
    ((mergeMessagesByChat held incoming).get chat).getD [] =
      mergeMessages ((held.get chat).getD []) (messagesOf chat incoming) := by
  have hget : (((groupByChat incoming).get chat).getD []) = messagesOf chat incoming := by
    rw [get_groupByChat]
    split_ifs with hnone
    · exact hnone.symm
    · rfl
  rw [← hget]
  exact getD_foldl_mergeInto (groupByChat incoming).nodup rfl

end ByChat

section Views

/-! ## What the chat store does to the lists -/

variable {has : MessengerMethods} {v : ChatView} {c : String}

/-- The messages that are shown of a chat. -/
def ChatView.shown (v : ChatView) (chatId : String) : List DisplayMessage :=
  (v.state.messagesByChat.get chatId).getD []

/-- The view of the current run; messages are kept of chats whose history is. -/
structure Tidy (v : ChatView) : Prop where
  current : v.current = true
  nodup : ∀ c, ((v.shown c).map DisplayMessage.messageId).Nodup
  kept : ∀ c, v.state.messagesByChat.has c = true → v.state.historyByChat.has c = true

theorem retainHistory_shown (chatId c : String) :
    ((retainHistory has chatId v).shown c = v.shown c ∧
      (retainHistory has chatId v).run.historyRequests.get c = v.run.historyRequests.get c) ∨
    ((retainHistory has chatId v).shown c = [] ∧
      (retainHistory has chatId v).run.historyRequests.get c = none) := by
  have hfilter (keep : String → Bool) :
      ((v.state.messagesByChat.filterKeys keep).get c = v.state.messagesByChat.get c ∧
        (v.run.historyRequests.filterKeys keep).get c = v.run.historyRequests.get c) ∨
      ((v.state.messagesByChat.filterKeys keep).get c = none ∧
        (v.run.historyRequests.filterKeys keep).get c = none) := by
    rw [Dict.get_filterKeys, Dict.get_filterKeys]
    split_ifs
    · exact .inl ⟨rfl, rfl⟩
    · exact .inr ⟨rfl, rfl⟩
  have hshown {shown shown' : Option (List DisplayMessage)} (h : shown = shown') :
      shown.getD [] = shown'.getD [] :=
    congrArg (fun list => Option.getD list []) h
  unfold retainHistory ChatView.shown
  simp only
  split_ifs
  · exact (hfilter _).imp (And.imp_left hshown) (And.imp_left hshown)
  · exact (hfilter _).imp (And.imp_left hshown) (And.imp_left hshown)
  · exact .inl ⟨rfl, rfl⟩

theorem Tidy.retain (h : Tidy v) (chatId : String) : Tidy (retainHistory has chatId v) := by
  refine ⟨(retainHistory_fields chatId).2.1.trans h.current, fun c => ?_, fun c hc => ?_⟩
  · rcases @retainHistory_shown has v chatId c with ⟨heq, -⟩ | ⟨heq, -⟩
    · rw [heq]
      exact h.nodup c
    · rw [heq]
      exact List.nodup_nil
  · have hfilter (keep : String → Bool)
        (hc : (v.state.messagesByChat.filterKeys keep).has c = true) :
        (v.state.historyByChat.filterKeys keep).has c = true :=
      Dict.has_filterKeys.mpr ((Dict.has_filterKeys.mp hc).imp_right (h.kept c))
    unfold retainHistory at hc ⊢
    simp only at hc ⊢
    split_ifs at hc ⊢
    · exact hfilter _ hc
    · exact hfilter _ hc
    · exact h.kept c hc

theorem Tidy.begin (h : Tidy v) (chatId : String) (previous : Bool) :
    Tidy (beginHistory has chatId previous v).2 := by
  rcases beginHistory_cases has v chatId previous with heq | ⟨load, history, -, -, -, heq⟩
  · rw [heq]
    exact h
  · rw [heq]
    exact ⟨h.current, h.nodup, fun c hc => Dict.has_set.mpr (.inr (h.kept c hc))⟩

theorem Tidy.finish (h : Tidy v) {load : HistoryLoad}
    {answer : Except JsError (List DisplayMessage × Option ChatHistoryCursor)}
    (hpage : ∀ messages next, answer = .ok (messages, next) →
      ∀ m ∈ messages, m.chatId = load.chatId) :
    Tidy (finishHistory load answer v) := by
  cases hcurrent : load.isCurrent v with
  | false =>
      rw [finishHistory_superseded hcurrent answer]
      exact ⟨h.current, h.nodup, h.kept⟩
  | true =>
      obtain ⟨history, messages, -, hmessages, heq⟩ := finishHistory_current hcurrent answer
      rw [heq]
      refine ⟨h.current, fun c => ?_, fun c hc => ?_⟩
      · unfold ChatView.shown
        rw [getD_mergeMessagesByChat]
        exact nodup_mergeMessages (h.nodup c)
      · rcases has_mergeMessagesByChat hc with hold | ⟨m, hm, rfl⟩
        · exact Dict.has_set.mpr (.inr (h.kept c hold))
        · refine Dict.has_set.mpr (.inl ?_)
          rcases hmessages with rfl | ⟨next, hanswer⟩
          · cases hm
          · exact (hpage _ _ hanswer m hm).symm

theorem state_foldl_discover (ids : List String) (v : ChatView) :
    (ids.foldl discover v).state = v.state ∧ (ids.foldl discover v).current = v.current := by
  induction ids generalizing v with
  | nil => exact ⟨rfl, rfl⟩
  | cons id rest ih =>
      rw [List.foldl_cons, (ih _).1, (ih _).2]
      unfold discover
      split_ifs
      · exact ⟨rfl, rfl⟩
      · exact ⟨rfl, rfl⟩

/-- An update about a message that is not shown is dropped. -/
theorem handle_dropped {u : MessageDeliveryUpdate}
    (hnot : ¬IsListed u.messageId (v.shown u.chatId)) :
    (ChatEvent.delivery u).handle has v = v := by
  have hfind : (v.shown u.chatId).find? (fun item => decide (item.messageId = u.messageId)) =
      none := by
    rw [List.find?_eq_none]
    exact fun m hm hid => hnot ⟨m, hm, of_decide_eq_true hid⟩
  unfold ChatView.shown at hfind
  rw [ChatEvent.handle]
  unfold ChatView.ifCurrent
  simp only [hfind]
  split_ifs
  · rfl
  · rfl

/-- One about a message that is shown is merged. -/
theorem handle_shown (hload : has.loadChatHistory = true) (h : Tidy v) {u : MessageDeliveryUpdate}
    (hlisted : IsListed u.messageId (v.shown u.chatId)) :
    Tidy ((ChatEvent.delivery u).handle has v) ∧
      (∀ c, c ≠ u.chatId → ((ChatEvent.delivery u).handle has v).shown c = v.shown c) ∧
      ∃ m, m.messageId = u.messageId ∧ m.status = .value u.status.toMessageStatus ∧
        ((ChatEvent.delivery u).handle has v).shown u.chatId =
          mergeMessages (v.shown u.chatId) [m] := by
  obtain ⟨item, hfind⟩ : ∃ item, (v.shown u.chatId).find?
      (fun item => decide (item.messageId = u.messageId)) = some item := by
    obtain ⟨m, hm, hid⟩ := hlisted
    exact Option.isSome_iff_exists.mp (List.find?_isSome.mpr ⟨m, hm, decide_eq_true hid⟩)
  have hkept : v.state.historyByChat.has u.chatId = true := by
    refine h.kept _ (Dict.has_iff.mpr ?_)
    cases hget : v.state.messagesByChat.get u.chatId with
    | none =>
        rw [ChatView.shown, hget] at hfind
        cases hfind
    | some list => exact ⟨list, rfl⟩
  have hhandle : (ChatEvent.delivery u).handle has v =
      [u.chatId].foldl discover (v.set fun state => { state with
        messagesByChat := mergeMessagesByChat state.messagesByChat [withDelivery item u] }) := by
    rw [ChatEvent.handle, ChatView.ifCurrent, if_pos h.current]
    unfold ChatView.shown at hfind
    rw [hfind]
    have hfilter : [withDelivery item u].filter (fun message =>
        v.state.historyByChat.has message.chatId) = [withDelivery item u] :=
      List.filter_cons_of_pos hkept
    simp only [receiveMessages, receive, h.current, hload, if_true, ChatView.set, hfilter]
    rfl
  obtain ⟨hstate, hcurrent⟩ := state_foldl_discover [u.chatId] (v.set fun state =>
    { state with messagesByChat := mergeMessagesByChat state.messagesByChat [withDelivery item u] })
  have hshown (c : String) : ((ChatEvent.delivery u).handle has v).shown c =
      mergeMessages (v.shown c) (messagesOf c [withDelivery item u]) := by
    rw [hhandle, ChatView.shown, hstate]
    exact getD_mergeMessagesByChat _
  refine ⟨⟨?_, fun c => ?_, fun c hc => ?_⟩, fun c hc => ?_, withDelivery item u, rfl, rfl, ?_⟩
  · rw [hhandle, hcurrent]
    exact h.current
  · rw [hshown]
    exact nodup_mergeMessages (h.nodup c)
  · rw [hhandle, hstate] at hc ⊢
    rcases has_mergeMessagesByChat hc with hold | ⟨m, hm, rfl⟩
    · exact h.kept c hold
    · rw [List.mem_singleton.mp hm]
      exact hkept
  · rw [hshown, messagesOf, List.filter_cons_of_neg (by simp [withDelivery, Ne.symm hc])]
    rfl
  · rw [hshown, messagesOf, List.filter_cons_of_pos (by simp [withDelivery])]
    rfl

end Views

end Client
end SecureMessenger

import SecureMessenger.Client.Convergence
import SecureMessenger.Lib.Absorb

/-!
# The updates of one row

What one round of `mergeMessages` does to the row an update is about, and what
a list of updates does to it.  Rows are compared as they are read: a property
that is set to `undefined` reads as one that is absent.
-/

namespace SecureMessenger
namespace Client

open Lib

section Reading

variable {α : Type}

/-- The property, absent if nothing is read from it. -/
def Property.asRead (p : Property α) : Property α :=
  match p.get with
  | none => .absent
  | some a => .value a

theorem Property.asRead_inj {p q : Property α} : p.asRead = q.asRead ↔ p.get = q.get := by
  unfold Property.asRead
  cases p <;> cases q <;> simp [Property.get]

@[simp] theorem Property.get_asRead (p : Property α) : p.asRead.get = p.get := by
  cases p <;> simp [Property.asRead, Property.get]

/-- The message as its properties are read. -/
def DisplayMessage.asRead (m : DisplayMessage) : DisplayMessage :=
  { m with
    chatSeq := m.chatSeq.asRead
    clientMessageId := m.clientMessageId.asRead
    senderDeviceId := m.senderDeviceId.asRead
    historyId := m.historyId.asRead
    status := m.status.asRead
    deliveries := m.deliveries.asRead }

/-- What is read from two messages is the same. -/
structure ReadsAs (a b : DisplayMessage) : Prop where
  messageId : a.messageId = b.messageId
  chatId : a.chatId = b.chatId
  senderUserId : a.senderUserId = b.senderUserId
  content : a.content = b.content
  createdAt : a.createdAt = b.createdAt
  chatSeq : a.chatSeq.get = b.chatSeq.get
  clientMessageId : a.clientMessageId.get = b.clientMessageId.get
  senderDeviceId : a.senderDeviceId.get = b.senderDeviceId.get
  historyId : a.historyId.get = b.historyId.get
  status : a.status.get = b.status.get
  deliveries : a.deliveries.get = b.deliveries.get

variable {a b c m u : DisplayMessage}

theorem readsAs_iff : ReadsAs a b ↔ a.asRead = b.asRead := by
  constructor
  · intro h
    unfold DisplayMessage.asRead
    simp only [DisplayMessage.mk.injEq, Property.asRead_inj]
    exact ⟨h.messageId, h.chatId, h.senderUserId, h.content, h.createdAt, h.chatSeq,
      h.clientMessageId, h.senderDeviceId, h.historyId, h.status, h.deliveries⟩
  · intro h
    unfold DisplayMessage.asRead at h
    simp only [DisplayMessage.mk.injEq, Property.asRead_inj] at h
    obtain ⟨hid, hchat, hsender, hcontent, hcreated, hseq, hclient, hdevice, hhistory, hstatus,
      hdeliveries⟩ := h
    exact ⟨hid, hchat, hsender, hcontent, hcreated, hseq, hclient, hdevice, hhistory, hstatus,
      hdeliveries⟩

theorem ReadsAs.refl (a : DisplayMessage) : ReadsAs a a :=
  readsAs_iff.mpr rfl

theorem ReadsAs.symm (h : ReadsAs a b) : ReadsAs b a :=
  readsAs_iff.mpr (readsAs_iff.mp h).symm

theorem ReadsAs.trans (h : ReadsAs a b) (h' : ReadsAs b c) : ReadsAs a c :=
  readsAs_iff.mpr ((readsAs_iff.mp h).trans (readsAs_iff.mp h'))

theorem ReadsAs.commandKey (h : ReadsAs a b) : commandKey a = commandKey b := by
  unfold Client.commandKey truthy
  rw [h.chatId, h.clientMessageId, h.senderDeviceId]

theorem ReadsAs.sortKey (h : ReadsAs a b) : sortKey a = sortKey b := by
  unfold Client.sortKey
  rw [h.historyId, h.commandKey, h.messageId]

/-- Nothing is set to `undefined`. -/
def Defined (m : DisplayMessage) : Prop :=
  m.chatSeq ≠ .undefined ∧ m.clientMessageId ≠ .undefined ∧ m.senderDeviceId ≠ .undefined ∧
    m.historyId ≠ .undefined ∧ m.status ≠ .undefined ∧ m.deliveries ≠ .undefined

instance (m : DisplayMessage) : Decidable (Defined m) := by
  unfold Defined
  infer_instance

theorem Property.asRead_of_defined {p : Property α} (h : p ≠ .undefined) : p.asRead = p := by
  cases p with
  | absent => rfl
  | undefined => exact absurd rfl h
  | value a => rfl

theorem Defined.asRead (h : Defined m) : m.asRead = m := by
  obtain ⟨hseq, hclient, hdevice, hhistory, hstatus, hdeliveries⟩ := h
  unfold DisplayMessage.asRead
  rw [Property.asRead_of_defined hseq, Property.asRead_of_defined hclient,
    Property.asRead_of_defined hdevice, Property.asRead_of_defined hhistory,
    Property.asRead_of_defined hstatus, Property.asRead_of_defined hdeliveries]

theorem Property.get_spread_congr {p q : Property α} (h : p.get = q.get) (r : Property α) :
    (p.spread r).get = (q.spread r).get := by
  cases r with
  | absent => exact h
  | undefined => rfl
  | value a => rfl

theorem Property.spread_defined {p q : Property α} (hp : p ≠ .undefined) (hq : q ≠ .undefined) :
    p.spread q ≠ .undefined := by
  cases q with
  | absent => exact hp
  | undefined => exact absurd rfl hq
  | value a => simp [Property.spread]

end Reading

section OneUpdate

variable {a b m u : DisplayMessage}

theorem nextMessage_readsAs (h : ReadsAs a b) (u : DisplayMessage) :
    ReadsAs (nextMessage (some a) u) (nextMessage (some b) u) where
  messageId := rfl
  chatId := rfl
  senderUserId := rfl
  content := rfl
  createdAt := h.createdAt
  chatSeq := Property.get_spread_congr h.chatSeq _
  clientMessageId := Property.get_spread_congr h.clientMessageId _
  senderDeviceId := Property.get_spread_congr h.senderDeviceId _
  historyId := Property.get_spread_congr h.historyId _
  status := by rw [nextMessage_status, nextMessage_status, h.status]
  deliveries := Property.get_spread_congr h.deliveries _

/-- `prior?.status && prior.status !== 'pending'`. -/
def isSettled (m : DisplayMessage) : Bool :=
  m.status.get.any fun status => decide (status ≠ .pending)

theorem isSettled_iff : isSettled m = true ↔ m.status.get.isSome ∧ ¬isPending m := by
  unfold isSettled isPending
  cases m.status.get with
  | none => simp
  | some status => simp

theorem ReadsAs.isSettled (h : ReadsAs a b) : isSettled a = isSettled b := by
  unfold Client.isSettled
  rw [h.status]

theorem selectStatus_join (s t r : Option MessageStatus) :
    selectStatus (selectStatus s t) r = selectStatus s (selectStatus t r) := by
  refine statusRank_injective ?_
  simp only [statusRank_selectStatus]
  omega

theorem selectStatus_self (s : Option MessageStatus) : selectStatus s s = s := by
  rcases selectStatus_eq_or s s with h | h
  · exact h
  · exact h

theorem absorbing_selectStatus : Absorbing selectStatus selectStatus where
  op_join := selectStatus_join
  op_op s t := by
    refine statusRank_injective ?_
    simp only [statusRank_selectStatus]
    omega

/-- A settled row stays settled. -/
theorem isSettled_next (h : isSettled m = true) : isSettled (nextMessage (some m) u) = true := by
  unfold isSettled at h ⊢
  rw [nextMessage_status]
  cases hm : m.status.get with
  | none =>
      rw [hm] at h
      cases h
  | some s =>
      rw [hm] at h
      cases hu : u.status.get with
      | none => exact h
      | some t =>
          simp only [Option.any_some, decide_eq_true_eq, selectStatus] at h ⊢
          split_ifs with hlt
          · simpa using h
          · simp only [Option.any_some, decide_eq_true_eq]
            rintro rfl
            cases s <;> simp_all [MessageStatus.rank]

/-- An update with a status that is not pending settles the row. -/
theorem isSettled_next_of_status (hstatus : u.status.get.isSome) (hp : ¬isPending u) :
    isSettled (nextMessage (some m) u) = true := by
  rw [isSettled_iff, isPending, nextMessage_status]
  obtain ⟨t, ht⟩ := Option.isSome_iff_exists.mp hstatus
  have hne : t ≠ .pending := fun h => hp (ht.trans (congrArg some h))
  rw [ht]
  cases m.status.get with
  | none => simp [selectStatus, hne]
  | some s =>
      simp only [selectStatus]
      split_ifs with hlt
      · refine ⟨rfl, ?_⟩
        simp only [Option.some.injEq]
        rintro rfl
        simp [MessageStatus.rank] at hlt
      · simp [hne]

/-- A pending update does not settle a row. -/
theorem isSettled_next_of_pending (hm : isSettled m = false) (hp : isPending u) :
    isSettled (nextMessage (some m) u) = false := by
  unfold isPending at hp
  unfold isSettled at hm ⊢
  rw [nextMessage_status, hp]
  cases hs : m.status.get with
  | none => simp [selectStatus]
  | some s =>
      rw [hs] at hm
      simp only [Option.any_some, decide_eq_false_iff_not, not_not] at hm
      simp [selectStatus, hm]

/-- Merging without a change leaves what is read. -/
theorem readsAs_of_equal (h : equalMessages m (nextMessage (some m) u) = true) :
    ReadsAs m (nextMessage (some m) u) := by
  have hstatus := (equalMessages_next h).2
  simp only [equalMessages, Bool.and_eq_true, decide_eq_true_eq] at h
  obtain ⟨⟨⟨⟨⟨⟨⟨⟨⟨⟨hid, hchat⟩, hsender⟩, hcontent⟩, hcreated⟩, hseq⟩, hclient⟩, hdevice⟩,
    hhistory⟩, -⟩, hdeliveries⟩ := h
  -- a property that is absent after the spread was absent in both
  have hget : ∀ {α : Type} [DecidableEq α] {p q : Property α},
      p.agrees (p.spread q) = true → p.get = (p.spread q).get := by
    intro α _ p q hagrees
    refine agrees_get hagrees fun habsent => ?_
    cases q with
    | absent =>
        have hp : p = .absent := habsent
        rw [hp]
        rfl
    | undefined => cases habsent
    | value a => cases habsent
  exact
    { messageId := hid
      chatId := hchat
      senderUserId := hsender
      content := hcontent
      createdAt := hcreated
      chatSeq := hget hseq
      clientMessageId := hget hclient
      senderDeviceId := hget hdevice
      historyId := hget hhistory
      status := hstatus.trans (nextMessage_status m u).symm
      deliveries := hget hdeliveries }

/-- Merging a message into itself changes nothing. -/
theorem nextMessage_self (u : DisplayMessage) :
    ReadsAs (nextMessage (some (nextMessage none u)) u) (nextMessage none u) := by
  have hspread : ∀ {α : Type} (p : Property α), p.spread p = p := by
    intro α p
    cases p <;> rfl
  obtain ⟨hstatus, -⟩ := nextMessage_none u
  have hsame : ∃ p, nextMessage none u = { u with status := p } := by
    simp only [nextMessage]
    cases selectStatus none u.status.get with
    | none => exact ⟨u.status, rfl⟩
    | some status => exact ⟨_, rfl⟩
  obtain ⟨p, hp⟩ := hsame
  rw [hp] at hstatus ⊢
  constructor <;> try rfl
  · exact congrArg Property.get (hspread _)
  · exact congrArg Property.get (hspread _)
  · exact congrArg Property.get (hspread _)
  · exact congrArg Property.get (hspread _)
  · rw [nextMessage_status, hstatus]
    exact selectStatus_self _
  · exact congrArg Property.get (hspread _)

end OneUpdate

section Rows

variable {m : DisplayMessage} {updates : List DisplayMessage}

/-- The updates merged one after the other, none of them skipped. -/
def merged (m : DisplayMessage) (updates : List DisplayMessage) : DisplayMessage :=
  updates.foldl (fun m u => nextMessage (some m) u) m

theorem merged_readsAs {a b : DisplayMessage} (h : ReadsAs a b) :
    ReadsAs (merged a updates) (merged b updates) := by
  induction updates generalizing a b with
  | nil => exact h
  | cons u rest ih => exact ih (nextMessage_readsAs h u)

/-- A component that each update overwrites is the same after a second pass. -/
theorem merged_overwritten {β : Type} (f : DisplayMessage → β)
    (h : ∀ u, Acts (fun _ b : β => b) f fun m => nextMessage (some m) u) (m : DisplayMessage) :
    f (merged (merged m updates) updates) = f (merged m updates) :=
  (Acts.foldl absorbing_overwrite updates fun u _ => h u).twice absorbing_overwrite m

theorem acts_spread {β : Type} (f : DisplayMessage → Property β)
    (hf : ∀ m u, f (nextMessage (some m) u) = (f m).spread (f u)) (u : DisplayMessage) :
    Acts (fun _ b : Option β => b) (fun m => (f m).get) fun m => nextMessage (some m) u := by
  have hget : ∀ m, (f (nextMessage (some m) u)).get = ((f m).spread (f u)).get :=
    fun m => congrArg Property.get (hf m u)
  cases hu : f u with
  | absent =>
      rw [hu] at hget
      exact Or.inl hget
  | undefined =>
      rw [hu] at hget
      exact Or.inr ⟨none, hget⟩
  | value b =>
      rw [hu] at hget
      exact Or.inr ⟨some b, hget⟩

/-- A second pass over the same updates changes nothing. -/
theorem merged_merged (m : DisplayMessage) :
    ReadsAs (merged (merged m updates) updates) (merged m updates) where
  messageId := merged_overwritten _ (fun u => Or.inr ⟨u.messageId, fun _ => rfl⟩) m
  chatId := merged_overwritten _ (fun u => Or.inr ⟨u.chatId, fun _ => rfl⟩) m
  senderUserId := merged_overwritten _ (fun u => Or.inr ⟨u.senderUserId, fun _ => rfl⟩) m
  content := merged_overwritten _ (fun u => Or.inr ⟨u.content, fun _ => rfl⟩) m
  createdAt := merged_overwritten _ (fun _ => Or.inl fun _ => rfl) m
  chatSeq := merged_overwritten _ (acts_spread _ fun _ _ => rfl) m
  clientMessageId := merged_overwritten _ (acts_spread _ fun _ _ => rfl) m
  senderDeviceId := merged_overwritten _ (acts_spread _ fun _ _ => rfl) m
  historyId := merged_overwritten _ (acts_spread _ fun _ _ => rfl) m
  status := by
    have hacts : ∀ u ∈ updates, Acts selectStatus (fun m : DisplayMessage => m.status.get)
        fun m => nextMessage (some m) u :=
      fun u _ => Or.inr ⟨u.status.get, fun m => nextMessage_status m u⟩
    exact (Acts.foldl absorbing_selectStatus updates hacts).twice absorbing_selectStatus m
  deliveries := merged_overwritten _ (acts_spread _ fun _ _ => rfl) m

/-- The row after one round about it. -/
def absorbRow (m u : DisplayMessage) : DisplayMessage :=
  if isSettled m = true ∧ isPending u then m
  else if equalMessages m (nextMessage (some m) u) then m
  else nextMessage (some m) u

theorem absorbRow_skip (hm : isSettled m = true) {u : DisplayMessage} (hu : isPending u) :
    absorbRow m u = m :=
  if_pos ⟨hm, hu⟩

theorem absorbRow_readsAs {u : DisplayMessage} (h : ¬(isSettled m = true ∧ isPending u)) :
    ReadsAs (absorbRow m u) (nextMessage (some m) u) := by
  unfold absorbRow
  rw [if_neg h]
  split_ifs with hequal
  · exact readsAs_of_equal hequal
  · exact ReadsAs.refl _

/-- Once settled, or as long as nothing is pending, pending updates are skipped
and the others are merged. -/
theorem absorb_settled (h : isSettled m = true ∨ ∀ u ∈ updates, ¬isPending u) :
    ReadsAs (updates.foldl absorbRow m)
      (merged m (updates.filter fun u => decide (¬isPending u))) := by
  induction updates generalizing m with
  | nil => exact ReadsAs.refl m
  | cons u rest ih =>
      rw [List.foldl_cons]
      by_cases hu : isPending u
      · have hm : isSettled m = true := by
          rcases h with hm | hall
          · exact hm
          · exact absurd hu (hall u List.mem_cons_self)
        rw [absorbRow_skip hm hu, List.filter_cons_of_neg (by simpa using hu)]
        exact ih (Or.inl hm)
      · have hread : ReadsAs (absorbRow m u) (nextMessage (some m) u) :=
          absorbRow_readsAs fun hskip => hu hskip.2
        have hnext : isSettled (absorbRow m u) = true ∨ ∀ v ∈ rest, ¬isPending v := by
          rcases h with hm | hall
          · left
            rw [hread.isSettled]
            exact isSettled_next hm
          · exact Or.inr fun v hv => hall v (List.mem_cons_of_mem _ hv)
        rw [List.filter_cons_of_pos (by simpa using hu)]
        exact (ih hnext).trans (merged_readsAs hread)

/-- Pending updates alone do not settle a row, and none of them is skipped. -/
theorem absorb_pending (hm : isSettled m = false) (hall : ∀ u ∈ updates, isPending u) :
    ReadsAs (updates.foldl absorbRow m) (merged m updates) ∧
      isSettled (updates.foldl absorbRow m) = false := by
  induction updates generalizing m with
  | nil => exact ⟨ReadsAs.refl m, hm⟩
  | cons u rest ih =>
      have hu : isPending u := hall u List.mem_cons_self
      have hread : ReadsAs (absorbRow m u) (nextMessage (some m) u) := by
        refine absorbRow_readsAs fun hskip => ?_
        rw [hm] at hskip
        cases hskip.1
      have hnext : isSettled (absorbRow m u) = false := by
        rw [hread.isSettled]
        exact isSettled_next_of_pending hm hu
      obtain ⟨hrest, hsettled⟩ := ih hnext fun v hv => hall v (List.mem_cons_of_mem _ hv)
      exact ⟨hrest.trans (merged_readsAs hread), hsettled⟩

theorem absorb_skips (hm : isSettled m = true) (hall : ∀ u ∈ updates, isPending u) :
    updates.foldl absorbRow m = m := by
  induction updates with
  | nil => rfl
  | cons u rest ih =>
      rw [List.foldl_cons, absorbRow_skip hm (hall u List.mem_cons_self)]
      exact ih fun v hv => hall v (List.mem_cons_of_mem _ hv)

theorem merged_settled (hm : isSettled m = true) : isSettled (merged m updates) = true := by
  induction updates generalizing m with
  | nil => exact hm
  | cons u rest ih => exact ih (isSettled_next hm)

/-- An update with a status settles the row, and from then on the pending
updates are skipped. -/
theorem absorb_settles (hstatus : ∀ u ∈ updates, ¬isPending u → u.status.get.isSome)
    (hsome : ∃ u ∈ updates, ¬isPending u) :
    isSettled (updates.foldl absorbRow m) = true ∧
      ∃ m', ReadsAs (updates.foldl absorbRow m)
        (merged m' (updates.filter fun u => decide (¬isPending u))) := by
  induction updates generalizing m with
  | nil =>
      obtain ⟨u, hu, -⟩ := hsome
      cases hu
  | cons u rest ih =>
      have hrest : ∀ v ∈ rest, ¬isPending v → v.status.get.isSome :=
        fun v hv => hstatus v (List.mem_cons_of_mem _ hv)
      rw [List.foldl_cons]
      by_cases hu : isPending u
      · rw [List.filter_cons_of_neg (by simpa using hu)]
        refine ih hrest ?_
        obtain ⟨v, hv, hvp⟩ := hsome
        rcases List.mem_cons.mp hv with rfl | hv
        · exact absurd hu hvp
        · exact ⟨v, hv, hvp⟩
      · have hread : ReadsAs (absorbRow m u) (nextMessage (some m) u) :=
          absorbRow_readsAs fun hskip => hu hskip.2
        have hsettled : isSettled (absorbRow m u) = true := by
          rw [hread.isSettled]
          exact isSettled_next_of_status (hstatus u List.mem_cons_self hu) hu
        have hfold : ReadsAs (rest.foldl absorbRow (absorbRow m u))
            (merged (absorbRow m u) (rest.filter fun u => decide (¬isPending u))) :=
          absorb_settled (Or.inl hsettled)
        refine ⟨?_, m, ?_⟩
        · rw [hfold.isSettled]
          exact merged_settled hsettled
        · rw [List.filter_cons_of_pos (by simpa using hu)]
          exact hfold.trans (merged_readsAs hread)

/-- **Main lemma.**  A second pass over the updates of a row leaves what is
read from it, if an update that is not pending has a status as soon as one of
the updates is pending. -/
theorem absorb_absorb (m : DisplayMessage)
    (hstatus : ∀ u ∈ updates, ∀ v ∈ updates, isPending u → ¬isPending v →
      v.status.get.isSome) :
    ReadsAs (updates.foldl absorbRow (updates.foldl absorbRow m))
      (updates.foldl absorbRow m) := by
  by_cases hnone : ∀ u ∈ updates, ¬isPending u
  · -- every update is merged, both times
    have hfilter : (updates.filter fun u => decide (¬isPending u)) = updates := by
      rw [List.filter_eq_self]
      exact fun u hu => decide_eq_true (hnone u hu)
    have hpass : ∀ m, ReadsAs (updates.foldl absorbRow m) (merged m updates) := by
      intro m
      have hread := absorb_settled (m := m) (Or.inr hnone)
      rw [hfilter] at hread
      exact hread
    exact (hpass _).trans (((merged_readsAs (hpass m)).trans (merged_merged m)).trans
      (hpass m).symm)
  · push Not at hnone
    obtain ⟨p, hp, hpending⟩ := hnone
    by_cases hsome : ∃ u ∈ updates, ¬isPending u
    · -- the first pass settles the row, the second merges what is not pending
      obtain ⟨hsettled, m', hread⟩ := absorb_settles (m := m)
        (fun v hv hvp => hstatus p hp v hv hpending hvp) hsome
      have hsecond : ReadsAs (updates.foldl absorbRow (updates.foldl absorbRow m))
          (merged (updates.foldl absorbRow m)
            (updates.filter fun u => decide (¬isPending u))) :=
        absorb_settled (Or.inl hsettled)
      exact hsecond.trans (((merged_readsAs hread).trans (merged_merged m')).trans hread.symm)
    · push Not at hsome
      cases hm : isSettled m with
      | true =>
          have hskip : updates.foldl absorbRow m = m := absorb_skips hm hsome
          rw [hskip, hskip]
          exact ReadsAs.refl m
      | false =>
          obtain ⟨hread, hsettled⟩ := absorb_pending hm hsome
          obtain ⟨hsecond, -⟩ := absorb_pending hsettled hsome
          exact hsecond.trans (((merged_readsAs hread).trans (merged_merged m)).trans hread.symm)

end Rows

end Client
end SecureMessenger

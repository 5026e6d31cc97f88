import SecureMessenger.Client.MessageState
import Mathlib.Data.Set.Insert

/-!
# Message lists converge

Updates about one message reach the list in any order: an optimistic row under
a local id, the accepted message under its server id, later delivery states.
The abstract state is the set of updates seen.  `Renders` says which rows a
set of updates stands for, one per subject, and one round of `mergeMessages`
takes the rows of a set to the rows of the set with one update more.
-/

namespace SecureMessenger
namespace Client

open Lib

/-- The update comes from an unaccepted command. -/
def isPending (u : DisplayMessage) : Prop :=
  u.status.get = some .pending

instance (u : DisplayMessage) : Decidable (isPending u) := by
  unfold isPending
  infer_instance

/-- The identity conditions on the updates of a chat. -/
structure IdentityConsistent (us : Set DisplayMessage) : Prop where
  sameKey : ∀ u ∈ us, ∀ v ∈ us, u.messageId = v.messageId → commandKey u = commandKey v
  server : ∀ u ∈ us, ∀ v ∈ us, ¬isPending u → ¬isPending v → (commandKey u).isSome →
    commandKey u = commandKey v → u.messageId = v.messageId
  optimistic : ∀ u ∈ us, ∀ v ∈ us, isPending u → isPending v → (commandKey u).isSome →
    commandKey u = commandKey v → u.messageId = v.messageId
  apart : ∀ u ∈ us, ∀ v ∈ us, isPending u → (commandKey u).isSome → ¬isPending v →
    u.messageId ≠ v.messageId
  hasStatus : ∀ u ∈ us, ∀ v ∈ us, isPending u → (commandKey u).isSome → ¬isPending v →
    commandKey u = commandKey v → v.status.get.isSome

/-- No two updates of one message without command key that have the client id
and the device between them. -/
def Unmixed (us : Set DisplayMessage) : Prop :=
  ∀ u ∈ us, ∀ v ∈ us, u.messageId = v.messageId → commandKey u = none →
    truthy u.clientMessageId = true → truthy v.senderDeviceId = false

/-- What an update is about. -/
inductive Subject
  | command (key : String)
  | message (id : String)
deriving DecidableEq

/-- The subject of an update or a row. -/
def subjectOf (u : DisplayMessage) : Subject :=
  match commandKey u with
  | some key => .command key
  | none => .message u.messageId

/-- The message id a subject is shown under: the server id as soon as some
update that is not pending was seen. -/
def ShownId (us : Set DisplayMessage) (c : Subject) (id : String) : Prop :=
  (∃ u ∈ us, subjectOf u = c ∧ ¬isPending u ∧ u.messageId = id) ∨
    ((∀ u ∈ us, subjectOf u = c → isPending u) ∧
      ∃ u ∈ us, subjectOf u = c ∧ u.messageId = id)

/-- Rank of a status, with no status at the bottom. -/
def statusRank : Option MessageStatus → Nat
  | none => 0
  | some status => status.rank + 1

/-- The highest-ranked status of a subject. -/
def IsHighest (us : Set DisplayMessage) (c : Subject) (status : Option MessageStatus) : Prop :=
  (∀ u ∈ us, subjectOf u = c → statusRank u.status.get ≤ statusRank status) ∧
    (status = none ∨ ∃ u ∈ us, subjectOf u = c ∧ u.status.get = status)

/-- The rows a set of updates stands for. -/
structure Renders (us rows : Set DisplayMessage) : Prop where
  shown : ∀ m ∈ rows, ShownId us (subjectOf m) m.messageId
  highest : ∀ m ∈ rows, IsHighest us (subjectOf m) m.status.get
  complete : ∀ u ∈ us, ∃ m ∈ rows, subjectOf m = subjectOf u
  unique : ∀ m ∈ rows, ∀ n ∈ rows, subjectOf m = subjectOf n → m = n
  client : ∀ m ∈ rows, commandKey m = none → truthy m.clientMessageId = true →
    ∃ u ∈ us, subjectOf u = subjectOf m ∧ truthy u.clientMessageId = true
  device : ∀ m ∈ rows, commandKey m = none → truthy m.senderDeviceId = true →
    ∃ u ∈ us, subjectOf u = subjectOf m ∧ truthy u.senderDeviceId = true

section Statuses

theorem statusRank_injective {s t : Option MessageStatus} (h : statusRank s = statusRank t) :
    s = t := by
  cases s with
  | none =>
      cases t with
      | none => rfl
      | some b => simp [statusRank] at h
  | some a =>
      cases t with
      | none => simp [statusRank] at h
      | some b => cases a <;> cases b <;> simp_all [statusRank, MessageStatus.rank]

/-- `selectStatus` is the maximum. -/
theorem statusRank_selectStatus (s t : Option MessageStatus) :
    statusRank (selectStatus s t) = max (statusRank s) (statusRank t) := by
  cases t with
  | none => simp [selectStatus, statusRank]
  | some b =>
      cases s with
      | none => simp [selectStatus, statusRank]
      | some a =>
          simp only [selectStatus, statusRank]
          split_ifs <;> simp only <;> omega

theorem selectStatus_eq_or (s t : Option MessageStatus) :
    selectStatus s t = s ∨ selectStatus s t = t := by
  cases t with
  | none => exact Or.inl rfl
  | some b =>
      cases s with
      | none => exact Or.inr rfl
      | some a =>
          simp only [selectStatus]
          split_ifs
          · exact Or.inl rfl
          · exact Or.inr rfl

theorem statusRank_pending_le {s : Option MessageStatus} (h : s.isSome) :
    statusRank (some .pending) ≤ statusRank s := by
  cases s with
  | none => cases h
  | some a => simp [statusRank, MessageStatus.rank]

theorem IsHighest.unique {us : Set DisplayMessage} {c : Subject} {s t : Option MessageStatus}
    (hs : IsHighest us c s) (ht : IsHighest us c t) : s = t := by
  have hle : ∀ {s t : Option MessageStatus}, IsHighest us c s → IsHighest us c t →
      statusRank s ≤ statusRank t := by
    intro s t hs ht
    rcases hs.2 with rfl | ⟨u, hu, hc, rfl⟩
    · simp [statusRank]
    · exact ht.1 u hu hc
  exact statusRank_injective (Nat.le_antisymm (hle hs ht) (hle ht hs))

end Statuses

section Subjects

variable {us : Set DisplayMessage} {u v m : DisplayMessage}

theorem subjectOf_eq_command {k : String} :
    subjectOf u = .command k ↔ commandKey u = some k := by
  unfold subjectOf
  cases commandKey u with
  | none => simp
  | some key => simp

theorem subjectOf_eq_message {id : String} :
    subjectOf u = .message id ↔ commandKey u = none ∧ u.messageId = id := by
  unfold subjectOf
  cases commandKey u with
  | none => simp
  | some key => simp

theorem commandKey_of_subject (h : subjectOf u = subjectOf v) : commandKey u = commandKey v := by
  unfold subjectOf at h
  cases hu : commandKey u with
  | none =>
      cases hv : commandKey v with
      | none => rfl
      | some k => simp [hu, hv] at h
  | some k =>
      cases hv : commandKey v with
      | none => simp [hu, hv] at h
      | some k' => simpa [hu, hv] using h

theorem messageId_of_subject (h : subjectOf u = subjectOf v) (hkey : commandKey v = none) :
    u.messageId = v.messageId := by
  have hv : subjectOf v = .message v.messageId := subjectOf_eq_message.mpr ⟨hkey, rfl⟩
  exact (subjectOf_eq_message.mp (h.trans hv)).2

/-- Updates with one message id have one subject. -/
theorem IdentityConsistent.subject_eq (hus : IdentityConsistent us) (hu : u ∈ us) (hv : v ∈ us)
    (h : u.messageId = v.messageId) : subjectOf u = subjectOf v := by
  unfold subjectOf
  rw [hus.sameKey u hu v hv h, h]

theorem IdentityConsistent.mono {vs : Set DisplayMessage} (hus : IdentityConsistent us)
    (h : vs ⊆ us) : IdentityConsistent vs where
  sameKey u hu v hv := hus.sameKey u (h hu) v (h hv)
  server u hu v hv := hus.server u (h hu) v (h hv)
  optimistic u hu v hv := hus.optimistic u (h hu) v (h hv)
  apart u hu v hv := hus.apart u (h hu) v (h hv)
  hasStatus u hu v hv := hus.hasStatus u (h hu) v (h hv)

theorem Unmixed.mono {vs : Set DisplayMessage} (hus : Unmixed us) (h : vs ⊆ us) : Unmixed vs :=
  fun u hu v hv => hus u (h hu) v (h hv)

/-- Updates of one subject that are both pending or both not share the id. -/
theorem IdentityConsistent.messageId_eq (hus : IdentityConsistent us) (hu : u ∈ us) (hv : v ∈ us)
    (hc : subjectOf u = subjectOf v) (hp : isPending u ↔ isPending v) :
    u.messageId = v.messageId := by
  have hkey := commandKey_of_subject hc
  cases hv' : commandKey v with
  | none => exact messageId_of_subject hc hv'
  | some k =>
      have hsome : (commandKey u).isSome := by simp [hkey, hv']
      by_cases hpu : isPending u
      · exact hus.optimistic u hu v hv hpu (hp.mp hpu) hsome hkey
      · exact hus.server u hu v hv hpu (fun h => hpu (hp.mpr h)) hsome hkey

theorem ShownId.exists {c : Subject} {id : String} (h : ShownId us c id) :
    ∃ u ∈ us, subjectOf u = c ∧ u.messageId = id := by
  rcases h with ⟨u, hu, hc, -, hid⟩ | ⟨-, u, hu, hc, hid⟩
  · exact ⟨u, hu, hc, hid⟩
  · exact ⟨u, hu, hc, hid⟩

theorem ShownId.unique (hus : IdentityConsistent us) {c : Subject} {id id' : String}
    (h : ShownId us c id) (h' : ShownId us c id') : id = id' := by
  rcases h with ⟨u, hu, hc, hp, rfl⟩ | ⟨hall, u, hu, hc, rfl⟩
  · rcases h' with ⟨v, hv, hc', hp', rfl⟩ | ⟨hall, -⟩
    · exact hus.messageId_eq hu hv (hc.trans hc'.symm) (by simp [hp, hp'])
    · exact absurd (hall u hu hc) hp
  · rcases h' with ⟨v, hv, hc', hp', -⟩ | ⟨-, v, hv, hc', rfl⟩
    · exact absurd (hall v hv hc') hp'
    · exact hus.messageId_eq hu hv (hc.trans hc'.symm) (by simp [hall u hu hc, hall v hv hc'])

/-- An id in a row is the id of an update with the row's subject. -/
theorem Renders.subject_of_id {rows : Set DisplayMessage} (h : Renders us rows)
    (hus : IdentityConsistent (insert u us)) (hm : m ∈ rows) (hid : m.messageId = u.messageId) :
    subjectOf m = subjectOf u := by
  obtain ⟨v, hv, hc, hvid⟩ := (h.shown m hm).exists
  rw [← hc]
  exact hus.subject_eq (Set.mem_insert_of_mem _ hv) (Set.mem_insert u us) (hvid.trans hid)

end Subjects

section OneUpdate

variable {us rows : Set DisplayMessage} {u m n : DisplayMessage}

/-- The rows after an update: the row of its subject is replaced. -/
def replaceRow (rows : Set DisplayMessage) (n : DisplayMessage) : Set DisplayMessage :=
  insert n {m ∈ rows | subjectOf m ≠ subjectOf n}

theorem shownId_insert_of_ne {c : Subject} {id : String} (hc : subjectOf u ≠ c)
    (h : ShownId us c id) : ShownId (insert u us) c id := by
  rcases h with ⟨v, hv, hvc, hp, hid⟩ | ⟨hall, v, hv, hvc, hid⟩
  · exact Or.inl ⟨v, Set.mem_insert_of_mem _ hv, hvc, hp, hid⟩
  · refine Or.inr ⟨?_, v, Set.mem_insert_of_mem _ hv, hvc, hid⟩
    rintro w (rfl | hw) hwc
    · exact absurd hwc hc
    · exact hall w hw hwc

theorem isHighest_insert_of_ne {c : Subject} {status : Option MessageStatus}
    (hc : subjectOf u ≠ c) (h : IsHighest us c status) : IsHighest (insert u us) c status := by
  refine ⟨?_, ?_⟩
  · rintro w (rfl | hw) hwc
    · exact absurd hwc hc
    · exact h.1 w hw hwc
  · rcases h.2 with hnone | ⟨v, hv, hvc, hstatus⟩
    · exact Or.inl hnone
    · exact Or.inr ⟨v, Set.mem_insert_of_mem _ hv, hvc, hstatus⟩

/-- Replacing the row of the update's subject by a row with the right id and
status. -/
theorem Renders.replace (h : Renders us rows) (hn : subjectOf n = subjectOf u)
    (hid : ShownId (insert u us) (subjectOf n) n.messageId)
    (hstatus : IsHighest (insert u us) (subjectOf n) n.status.get)
    (hclient : commandKey n = none → truthy n.clientMessageId = true →
      ∃ v ∈ insert u us, subjectOf v = subjectOf n ∧ truthy v.clientMessageId = true)
    (hdevice : commandKey n = none → truthy n.senderDeviceId = true →
      ∃ v ∈ insert u us, subjectOf v = subjectOf n ∧ truthy v.senderDeviceId = true) :
    Renders (insert u us) (replaceRow rows n) where
  shown m hm := by
    rcases hm with rfl | ⟨hm, hc⟩
    · exact hid
    · exact shownId_insert_of_ne (fun he => hc (he.symm.trans hn.symm)) (h.shown m hm)
  highest m hm := by
    rcases hm with rfl | ⟨hm, hc⟩
    · exact hstatus
    · exact isHighest_insert_of_ne (fun he => hc (he.symm.trans hn.symm)) (h.highest m hm)
  complete v hv := by
    by_cases hc : subjectOf v = subjectOf n
    · exact ⟨n, Set.mem_insert _ _, hc.symm⟩
    · rcases hv with rfl | hv
      · exact absurd hn.symm hc
      · obtain ⟨m, hm, hmv⟩ := h.complete v hv
        exact ⟨m, Set.mem_insert_of_mem _ ⟨hm, fun he => hc (hmv.symm.trans he)⟩, hmv⟩
  unique a ha b hb hc := by
    rcases ha with rfl | ⟨ha, hane⟩
    · rcases hb with rfl | ⟨hb, hbne⟩
      · rfl
      · exact absurd hc.symm hbne
    · rcases hb with rfl | ⟨hb, hbne⟩
      · exact absurd hc hane
      · exact h.unique a ha b hb hc
  client m hm hkey htruthy := by
    rcases hm with rfl | ⟨hm, hc⟩
    · exact hclient hkey htruthy
    · obtain ⟨v, hv, hvm⟩ := h.client m hm hkey htruthy
      exact ⟨v, Set.mem_insert_of_mem _ hv, hvm⟩
  device m hm hkey htruthy := by
    rcases hm with rfl | ⟨hm, hc⟩
    · exact hdevice hkey htruthy
    · obtain ⟨v, hv, hvm⟩ := h.device m hm hkey htruthy
      exact ⟨v, Set.mem_insert_of_mem _ hv, hvm⟩

/-- Replacing a row by itself. -/
theorem replaceRow_self (h : Renders us rows) (hm : m ∈ rows) : replaceRow rows m = rows := by
  ext x
  constructor
  · rintro (rfl | ⟨hx, -⟩)
    · exact hm
    · exact hx
  · intro hx
    by_cases hc : subjectOf x = subjectOf m
    · exact Or.inl (h.unique x hx m hm hc)
    · exact Or.inr ⟨hx, hc⟩

/-- A pending update of a subject whose row is past pending says nothing new. -/
theorem Renders.skip (h : Renders us rows) (hm : m ∈ rows) (hc : subjectOf m = subjectOf u)
    (hpast : m.status.get.any (fun status => decide (status ≠ .pending)) = true)
    (hp : isPending u) : Renders (insert u us) rows := by
  obtain ⟨status, hstatus, hne⟩ : ∃ status, m.status.get = some status ∧ status ≠ .pending := by
    cases hget : m.status.get with
    | none => simp [hget] at hpast
    | some status => exact ⟨status, rfl, by simpa [hget] using hpast⟩
  have hself := replaceRow_self h hm
  rw [← hself]
  have hhigh := h.highest m hm
  refine h.replace hc ?_ ⟨?_, ?_⟩ ?_ ?_
  · -- the row's status comes from an update that is not pending
    rcases h.shown m hm with ⟨v, hv, hvc, hvp, hvid⟩ | ⟨hall, -⟩
    · exact Or.inl ⟨v, Set.mem_insert_of_mem _ hv, hvc, hvp, hvid⟩
    · rcases hhigh.2 with hnone | ⟨v, hv, hvc, hvs⟩
      · rw [hstatus] at hnone
        cases hnone
      · have hvp : v.status.get = some .pending := hall v hv hvc
        rw [hvs, hstatus] at hvp
        exact absurd (Option.some.inj hvp) hne
  · rintro w (rfl | hw) hwc
    · have hpend : w.status.get = some .pending := hp
      rw [hpend]
      exact statusRank_pending_le (by simp [hstatus])
    · exact hhigh.1 w hw hwc
  · rcases hhigh.2 with hnone | ⟨v, hv, hvs⟩
    · exact Or.inl hnone
    · exact Or.inr ⟨v, Set.mem_insert_of_mem _ hv, hvs⟩
  · intro hkey htruthy
    obtain ⟨v, hv, hvm⟩ := h.client m hm hkey htruthy
    exact ⟨v, Set.mem_insert_of_mem _ hv, hvm⟩
  · intro hkey htruthy
    obtain ⟨v, hv, hvm⟩ := h.device m hm hkey htruthy
    exact ⟨v, Set.mem_insert_of_mem _ hv, hvm⟩

/-- The id of an update that is not skipped is the id to show. -/
theorem Renders.shownId_next (h : Renders us rows) (hus : IdentityConsistent (insert u us))
    (hm : m ∈ rows) (hc : subjectOf m = subjectOf u)
    (hnew : ¬(m.status.get.any (fun status => decide (status ≠ .pending)) = true ∧
      isPending u)) : ShownId (insert u us) (subjectOf u) u.messageId := by
  by_cases hp : isPending u
  · have hlow : m.status.get.any (fun status => decide (status ≠ .pending)) = false := by
      simpa [hp] using hnew
    by_cases hkey : commandKey u = none
    · -- without a command key the subject is the id
      by_cases hall : ∀ v ∈ insert u us, subjectOf v = subjectOf u → isPending v
      · exact Or.inr ⟨hall, u, Set.mem_insert _ _, rfl, rfl⟩
      · simp only [not_forall] at hall
        obtain ⟨v, hv, hvc, hvp⟩ := hall
        exact Or.inl ⟨v, hv, hvc, hvp, messageId_of_subject hvc hkey⟩
    · refine Or.inr ⟨?_, u, Set.mem_insert _ _, rfl, rfl⟩
      intro v hv hvc
      by_contra hvp
      -- such an update has a status, and the row would be past pending
      have hsome := hus.hasStatus u (Set.mem_insert _ _) v hv hp
        (Option.isSome_iff_ne_none.mpr hkey) hvp (commandKey_of_subject hvc.symm)
      rcases hv with rfl | hv
      · exact hvp hp
      · have hle := (h.highest m hm).1 v hv (hvc.trans hc.symm)
        obtain ⟨status, hstatus⟩ := Option.isSome_iff_exists.mp hsome
        have hne : status ≠ .pending := by
          rintro rfl
          exact hvp hstatus
        cases hms : m.status.get with
        | none =>
            rw [hms, hstatus] at hle
            simp [statusRank] at hle
        | some low =>
            rw [hms] at hlow hle
            have hpend : low = .pending := by simpa using hlow
            rw [hstatus, hpend] at hle
            cases status <;> simp_all [statusRank, MessageStatus.rank]
  · exact Or.inl ⟨u, Set.mem_insert _ _, rfl, hp, rfl⟩

/-- The selected status is the highest. -/
theorem Renders.highest_next (h : Renders us rows) (hm : m ∈ rows)
    (hc : subjectOf m = subjectOf u) :
    IsHighest (insert u us) (subjectOf u) (selectStatus m.status.get u.status.get) := by
  have hhigh := h.highest m hm
  rw [hc] at hhigh
  refine ⟨?_, ?_⟩
  · rintro w (rfl | hw) hwc
    · rw [statusRank_selectStatus]
      exact Nat.le_max_right _ _
    · rw [statusRank_selectStatus]
      exact Nat.le_trans (hhigh.1 w hw hwc) (Nat.le_max_left _ _)
  · rcases selectStatus_eq_or m.status.get u.status.get with heq | heq
    · rw [heq]
      rcases hhigh.2 with hnone | ⟨v, hv, hvs⟩
      · exact Or.inl hnone
      · exact Or.inr ⟨v, Set.mem_insert_of_mem _ hv, hvs⟩
    · rw [heq]
      exact Or.inr ⟨u, Set.mem_insert _ _, rfl, rfl⟩

/-- A subject seen for the first time. -/
theorem Renders.first (h : Renders us rows)
    (hnone : ∀ m ∈ rows, subjectOf m ≠ subjectOf u) :
    ShownId (insert u us) (subjectOf u) u.messageId ∧
      IsHighest (insert u us) (subjectOf u) u.status.get := by
  have honly : ∀ v ∈ insert u us, subjectOf v = subjectOf u → v = u := by
    rintro v (rfl | hv) hvc
    · rfl
    · obtain ⟨m, hm, hmv⟩ := h.complete v hv
      exact absurd (hmv.trans hvc) (hnone m hm)
  constructor
  · by_cases hp : isPending u
    · refine Or.inr ⟨?_, u, Set.mem_insert _ _, rfl, rfl⟩
      intro v hv hvc
      rw [honly v hv hvc]
      exact hp
    · exact Or.inl ⟨u, Set.mem_insert _ _, rfl, hp, rfl⟩
  · refine ⟨?_, Or.inr ⟨u, Set.mem_insert _ _, rfl, rfl⟩⟩
    intro v hv hvc
    rw [honly v hv hvc]

end OneUpdate

section NextMessage

variable {us rows : Set DisplayMessage} {u m : DisplayMessage}

@[simp] theorem nextMessage_messageId (prior : Option DisplayMessage) :
    (nextMessage prior u).messageId = u.messageId := by
  cases prior with
  | none =>
      simp only [nextMessage]
      cases selectStatus none u.status.get <;> rfl
  | some m => rfl

theorem nextMessage_status (m u : DisplayMessage) :
    (nextMessage (some m) u).status.get = selectStatus m.status.get u.status.get := by
  simp only [nextMessage]
  cases hs : selectStatus m.status.get u.status.get with
  | some status => rfl
  | none =>
      -- neither side has a status
      cases hu : u.status with
      | value status =>
          have hrank := congrArg statusRank hs
          rw [statusRank_selectStatus, hu] at hrank
          simp [Property.get, statusRank] at hrank
      | undefined => rfl
      | absent =>
          rw [hu] at hs
          exact hs

theorem nextMessage_none (u : DisplayMessage) :
    (nextMessage none u).status.get = u.status.get ∧
      commandKey (nextMessage none u) = commandKey u ∧
      (nextMessage none u).clientMessageId = u.clientMessageId ∧
      (nextMessage none u).senderDeviceId = u.senderDeviceId := by
  simp only [nextMessage]
  cases hu : u.status with
  | value status => exact ⟨rfl, rfl, rfl, rfl⟩
  | undefined =>
      refine ⟨?_, rfl, rfl, rfl⟩
      simp [selectStatus, Property.get, hu]
  | absent =>
      refine ⟨?_, rfl, rfl, rfl⟩
      simp [selectStatus, Property.get, hu]

theorem truthy_spread {a b : Property String} (h : truthy (a.spread b) = true) :
    truthy a = true ∨ truthy b = true := by
  cases b with
  | absent => exact Or.inl h
  | undefined => exact Or.inr h
  | value s => exact Or.inr h

theorem spread_of_truthy {a b : Property String} (h : truthy b = true) : a.spread b = b := by
  cases b with
  | absent => cases h
  | undefined => rfl
  | value s => rfl

theorem commandKey_none :
    commandKey u = none ↔
      ¬(truthy u.clientMessageId = true ∧ truthy u.senderDeviceId = true) := by
  unfold commandKey
  split_ifs with h
  · simpa using h
  · simpa using h

/-- The merged message has the command key of the update. -/
theorem Renders.commandKey_next (h : Renders us rows) (hmix : Unmixed (insert u us))
    (hm : m ∈ rows) (hc : subjectOf m = subjectOf u) :
    commandKey (nextMessage (some m) u) = commandKey u := by
  cases hu : commandKey u with
  | some k =>
      have hboth : truthy u.clientMessageId = true ∧ truthy u.senderDeviceId = true := by
        by_contra hno
        rw [commandKey_none.mpr hno] at hu
        cases hu
      rw [← hu]
      unfold commandKey nextMessage
      simp only [spread_of_truthy hboth.1, spread_of_truthy hboth.2]
  | none =>
      have hmkey : commandKey m = none := (commandKey_of_subject hc).trans hu
      rw [commandKey_none]
      rintro ⟨hclient, hdevice⟩
      -- both parts come from updates of this message, none of which has a key
      have hfrom₁ : ∃ v ∈ insert u us, subjectOf v = subjectOf u ∧
          truthy v.clientMessageId = true := by
        rcases truthy_spread hclient with hold | hnew
        · obtain ⟨v, hv, hvm, ht⟩ := h.client m hm hmkey hold
          exact ⟨v, Set.mem_insert_of_mem _ hv, hvm.trans hc, ht⟩
        · exact ⟨u, Set.mem_insert _ _, rfl, hnew⟩
      have hfrom₂ : ∃ v ∈ insert u us, subjectOf v = subjectOf u ∧
          truthy v.senderDeviceId = true := by
        rcases truthy_spread hdevice with hold | hnew
        · obtain ⟨v, hv, hvm, ht⟩ := h.device m hm hmkey hold
          exact ⟨v, Set.mem_insert_of_mem _ hv, hvm.trans hc, ht⟩
        · exact ⟨u, Set.mem_insert _ _, rfl, hnew⟩
      obtain ⟨v, hv, hvc, hvt⟩ := hfrom₁
      obtain ⟨w, hw, hwc, hwt⟩ := hfrom₂
      have hid : v.messageId = w.messageId :=
        (messageId_of_subject hvc hu).trans (messageId_of_subject hwc hu).symm
      have hfalse := hmix v hv w hw hid ((commandKey_of_subject hvc).trans hu) hvt
      rw [hwt] at hfalse
      cases hfalse

theorem subjectOf_congr {a b : DisplayMessage} (hkey : commandKey a = commandKey b)
    (hid : a.messageId = b.messageId) : subjectOf a = subjectOf b := by
  unfold subjectOf
  rw [hkey, hid]

/-- Merging an update that is not skipped into the row of its subject. -/
theorem Renders.next (h : Renders us rows) (hus : IdentityConsistent (insert u us))
    (hmix : Unmixed (insert u us)) (hm : m ∈ rows) (hc : subjectOf m = subjectOf u)
    (hnew : ¬(m.status.get.any (fun status => decide (status ≠ .pending)) = true ∧
      isPending u)) :
    subjectOf (nextMessage (some m) u) = subjectOf u ∧
      Renders (insert u us) (replaceRow rows (nextMessage (some m) u)) := by
  have hkey := h.commandKey_next hmix hm hc
  have hsubject : subjectOf (nextMessage (some m) u) = subjectOf u :=
    subjectOf_congr hkey (nextMessage_messageId _)
  refine ⟨hsubject, h.replace hsubject ?_ ?_ ?_ ?_⟩
  · rw [hsubject, nextMessage_messageId]
    exact h.shownId_next hus hm hc hnew
  · rw [hsubject, nextMessage_status]
    exact h.highest_next hm hc
  · intro hnone htruthy
    rw [hkey] at hnone
    rw [hsubject]
    rcases truthy_spread htruthy with hold | hu
    · obtain ⟨v, hv, hvm, ht⟩ :=
        h.client m hm ((commandKey_of_subject hc).trans hnone) hold
      exact ⟨v, Set.mem_insert_of_mem _ hv, hvm.trans hc, ht⟩
    · exact ⟨u, Set.mem_insert _ _, rfl, hu⟩
  · intro hnone htruthy
    rw [hkey] at hnone
    rw [hsubject]
    rcases truthy_spread htruthy with hold | hu
    · obtain ⟨v, hv, hvm, ht⟩ :=
        h.device m hm ((commandKey_of_subject hc).trans hnone) hold
      exact ⟨v, Set.mem_insert_of_mem _ hv, hvm.trans hc, ht⟩
    · exact ⟨u, Set.mem_insert _ _, rfl, hu⟩

/-- Adding the first row of a subject. -/
theorem Renders.add (h : Renders us rows) (hnone : ∀ m ∈ rows, subjectOf m ≠ subjectOf u) :
    subjectOf (nextMessage none u) = subjectOf u ∧
      Renders (insert u us) (replaceRow rows (nextMessage none u)) := by
  obtain ⟨hstatus, hkey, hclient, hdevice⟩ := nextMessage_none u
  have hsubject : subjectOf (nextMessage none u) = subjectOf u :=
    subjectOf_congr hkey (nextMessage_messageId _)
  obtain ⟨hid, hhigh⟩ := h.first hnone
  refine ⟨hsubject, h.replace hsubject ?_ ?_ ?_ ?_⟩
  · rw [hsubject, nextMessage_messageId]
    exact hid
  · rw [hsubject, hstatus]
    exact hhigh
  · intro _ htruthy
    exact ⟨u, Set.mem_insert _ _, hsubject.symm, hclient ▸ htruthy⟩
  · intro _ htruthy
    exact ⟨u, Set.mem_insert _ _, hsubject.symm, hdevice ▸ htruthy⟩

theorem agrees_get {α : Type} [DecidableEq α] {a b : Property α} (h : a.agrees b = true)
    (hb : b = .absent → a.get = none) : a.get = b.get := by
  cases b with
  | absent => exact hb rfl
  | undefined => simpa [Property.agrees] using h
  | value x => simpa [Property.agrees] using h

/-- A merge that changes no property changes neither the id nor the status. -/
theorem equalMessages_next (h : equalMessages m (nextMessage (some m) u) = true) :
    m.messageId = u.messageId ∧ m.status.get = selectStatus m.status.get u.status.get := by
  simp only [equalMessages, Bool.and_eq_true, decide_eq_true_eq] at h
  obtain ⟨⟨⟨⟨⟨⟨⟨⟨⟨⟨hid, -⟩, -⟩, -⟩, -⟩, -⟩, -⟩, -⟩, -⟩, hstatus⟩, -⟩ := h
  refine ⟨hid, ?_⟩
  rw [← nextMessage_status]
  refine agrees_get hstatus fun habsent => ?_
  have hget := nextMessage_status m u
  rw [habsent] at hget
  have hrank := congrArg statusRank hget
  rw [statusRank_selectStatus] at hrank
  have hzero : statusRank m.status.get = 0 := by
    have : statusRank (Property.absent : Property MessageStatus).get = 0 := rfl
    omega
  exact statusRank_injective hzero

/-- A row that the merge leaves as it is. -/
theorem Renders.unchanged (h : Renders us rows) (hus : IdentityConsistent (insert u us))
    (hm : m ∈ rows) (hc : subjectOf m = subjectOf u)
    (hnew : ¬(m.status.get.any (fun status => decide (status ≠ .pending)) = true ∧
      isPending u))
    (hequal : equalMessages m (nextMessage (some m) u) = true) :
    Renders (insert u us) rows := by
  obtain ⟨hid, hstatus⟩ := equalMessages_next hequal
  rw [← replaceRow_self h hm]
  refine h.replace hc ?_ ?_ ?_ ?_
  · rw [hc, hid]
    exact h.shownId_next hus hm hc hnew
  · rw [hc, hstatus]
    exact h.highest_next hm hc
  · intro hkey htruthy
    obtain ⟨v, hv, hvm⟩ := h.client m hm hkey htruthy
    exact ⟨v, Set.mem_insert_of_mem _ hv, hvm⟩
  · intro hkey htruthy
    obtain ⟨v, hv, hvm⟩ := h.device m hm hkey htruthy
    exact ⟨v, Set.mem_insert_of_mem _ hv, hvm⟩

end NextMessage

section Indexes

variable {us : Set DisplayMessage} {u : DisplayMessage} {s s' : MergeState} {o : MessageObject}

/-- The object is a row of the list. -/
def Live (s : MergeState) (o : MessageObject) : Prop :=
  s.messages.get o.message.messageId = some o

/-- The rows of a loop state. -/
def rowsOf (s : MergeState) : Set DisplayMessage :=
  {m | ∃ o, Live s o ∧ o.message = m}

/-- Both indexes are about the rows: by message id, and by command key. -/
structure Coupled (s : MergeState) : Prop where
  keyed : ∀ id o, s.messages.get id = some o → o.message.messageId = id
  commands : ∀ key o, s.commands.get key = some o ↔ Live s o ∧ commandKey o.message = some key

theorem Coupled.live (h : Coupled s) {id : String} (hget : s.messages.get id = some o) :
    Live s o := by
  unfold Live
  rw [h.keyed id o hget]
  exact hget

theorem Live.mem_rowsOf (h : Live s o) : o.message ∈ rowsOf s :=
  ⟨o, h, rfl⟩

/-- Rows with one subject are one object. -/
theorem Renders.object_eq (h : Renders us (rowsOf s)) {o' : MessageObject} (ho : Live s o)
    (ho' : Live s o') (hc : subjectOf o.message = subjectOf o'.message) : o = o' := by
  have heq := h.unique _ ho.mem_rowsOf _ ho'.mem_rowsOf hc
  unfold Live at ho ho'
  rw [heq] at ho
  exact Option.some.inj (ho.symm.trans ho')

/-- The row under the id of an update is the row of its subject. -/
theorem Renders.subject_of_get (h : Renders us (rowsOf s)) (hs : Coupled s)
    (hus : IdentityConsistent (insert u us)) (hget : s.messages.get u.messageId = some o) :
    subjectOf o.message = subjectOf u :=
  h.subject_of_id hus (hs.live hget).mem_rowsOf (hs.keyed _ o hget)

/-- As long as all updates of a subject are pending its row is. -/
theorem Renders.pending_of_all (h : Renders us (rowsOf s)) (ho : Live s o)
    (hall : ∀ v ∈ us, subjectOf v = subjectOf o.message → isPending v) :
    o.message.status.get = some .pending := by
  have hhigh := h.highest _ ho.mem_rowsOf
  obtain ⟨v, hv, hc, -⟩ := (h.shown _ ho.mem_rowsOf).exists
  rcases hhigh.2 with hnone | ⟨w, hw, hwc, hstatus⟩
  · have hle := hhigh.1 v hv hc
    have hp : v.status.get = some .pending := hall v hv hc
    rw [hnone, hp] at hle
    simp [statusRank] at hle
  · rw [← hstatus]
    exact hall w hw hwc

/-- The loop finds the row of the update's subject. -/
theorem priorOf_some (hs : Coupled s) (h : Renders us (rowsOf s))
    (hus : IdentityConsistent (insert u us)) (ho : Live s o)
    (hc : subjectOf o.message = subjectOf u) : priorOf s u = some o := by
  unfold priorOf
  cases hget : s.messages.get u.messageId with
  | some o' =>
      have hc' := h.subject_of_get hs hus hget
      rw [h.object_eq (hs.live hget) ho (hc'.trans hc.symm)]
      rfl
  | none =>
      have hne : o.message.messageId ≠ u.messageId := by
        intro hid
        unfold Live at ho
        rw [hid, hget] at ho
        cases ho
      cases hkey : commandKey u with
      | none => exact absurd (messageId_of_subject hc hkey) hne
      | some k =>
          have hcommand : s.commands.get k = some o :=
            (hs.commands k o).mpr ⟨ho, (commandKey_of_subject hc).trans hkey⟩
          have hcond : o.message.status.get = some .pending ∨ u.status.get = some .pending := by
            by_cases hp : isPending u
            · exact Or.inr hp
            · left
              rcases h.shown _ ho.mem_rowsOf with ⟨v, hv, hvc, hvp, hvid⟩ | ⟨hall, -⟩
              · have hid := hus.messageId_eq (Set.mem_insert_of_mem _ hv) (Set.mem_insert _ _)
                  (hvc.trans hc) (by simp [hvp, hp])
                exact absurd (hvid.symm.trans hid) hne
              · exact h.pending_of_all ho hall
          simp only [Option.bind_some, hcommand, Option.none_or]
          rw [if_pos hcond]

theorem priorOf_none (hs : Coupled s) (h : Renders us (rowsOf s))
    (hus : IdentityConsistent (insert u us))
    (hnone : ∀ m ∈ rowsOf s, subjectOf m ≠ subjectOf u) : priorOf s u = none := by
  have hget : s.messages.get u.messageId = none := by
    cases hget : s.messages.get u.messageId with
    | none => rfl
    | some o =>
        exact absurd (h.subject_of_get hs hus hget) (hnone _ (hs.live hget).mem_rowsOf)
  have hcommand : (commandKey u).bind s.commands.get = none := by
    cases hkey : commandKey u with
    | none => rfl
    | some k =>
        cases hget : s.commands.get k with
        | none => simp [hget]
        | some o =>
            obtain ⟨ho, hok⟩ := (hs.commands k o).mp hget
            have hc : subjectOf o.message = subjectOf u := by
              rw [subjectOf_eq_command.mpr hok, subjectOf_eq_command.mpr hkey]
            exact absurd hc (hnone _ ho.mem_rowsOf)
  unfold priorOf
  rw [hget, hcommand]
  simp

/-- Both indexes after one object took the place of the row of its subject. -/
structure Replaced (s s' : MergeState) (n : MessageObject) : Prop where
  messages : ∀ id, s'.messages.get id =
    if n.message.messageId = id then some n
    else (s.messages.get id).filter fun o => decide (subjectOf o.message ≠ subjectOf n.message)
  commands : ∀ key, s'.commands.get key =
    if commandKey n.message = some key then some n else s.commands.get key

theorem Replaced.live_iff {n x : MessageObject} (h : Replaced s s' n)
    (hid : ∀ o, Live s o → o.message.messageId = n.message.messageId →
      subjectOf o.message = subjectOf n.message) :
    Live s' x ↔ x = n ∨ (Live s x ∧ subjectOf x.message ≠ subjectOf n.message) := by
  unfold Live at hid ⊢
  rw [h.messages]
  split_ifs with hn
  · constructor
    · intro hx
      exact Or.inl (Option.some.inj hx).symm
    · rintro (rfl | ⟨hx, hne⟩)
      · rfl
      · exact absurd (hid x hx hn.symm) hne
  · constructor
    · intro hx
      obtain ⟨hget, hne⟩ := Option.filter_eq_some_iff.mp hx
      exact Or.inr ⟨hget, by simpa using hne⟩
    · rintro (rfl | ⟨hx, hne⟩)
      · exact absurd rfl hn
      · rw [hx]
        simp [hne]

theorem Replaced.rowsOf_eq {n : MessageObject} (h : Replaced s s' n)
    (hid : ∀ o, Live s o → o.message.messageId = n.message.messageId →
      subjectOf o.message = subjectOf n.message) :
    rowsOf s' = replaceRow (rowsOf s) n.message := by
  ext m
  constructor
  · rintro ⟨x, hx, rfl⟩
    rcases (h.live_iff hid).mp hx with rfl | ⟨hx, hne⟩
    · exact Set.mem_insert _ _
    · exact Set.mem_insert_of_mem _ ⟨hx.mem_rowsOf, hne⟩
  · rintro (rfl | ⟨⟨x, hx, rfl⟩, hne⟩)
    · exact ⟨n, (h.live_iff hid).mpr (Or.inl rfl), rfl⟩
    · exact ⟨x, (h.live_iff hid).mpr (Or.inr ⟨hx, hne⟩), rfl⟩

theorem Replaced.coupled {n : MessageObject} (h : Replaced s s' n) (hs : Coupled s)
    (hid : ∀ o, Live s o → o.message.messageId = n.message.messageId →
      subjectOf o.message = subjectOf n.message) : Coupled s' where
  keyed id x hx := by
    rw [h.messages] at hx
    split_ifs at hx with hn
    · rw [← Option.some.inj hx]
      exact hn
    · obtain ⟨hget, -⟩ := Option.filter_eq_some_iff.mp hx
      exact hs.keyed id x hget
  commands key x := by
    rw [h.live_iff hid, h.commands]
    split_ifs with hn
    · constructor
      · intro hx
        obtain rfl := Option.some.inj hx
        exact ⟨Or.inl rfl, hn⟩
      · rintro ⟨rfl | ⟨hx, hne⟩, hkey⟩
        · rfl
        · have hc : subjectOf x.message = subjectOf n.message := by
            rw [subjectOf_eq_command.mpr hkey, subjectOf_eq_command.mpr hn]
          exact absurd hc hne
    · rw [hs.commands]
      constructor
      · rintro ⟨hx, hkey⟩
        refine ⟨Or.inr ⟨hx, fun hc => hn ?_⟩, hkey⟩
        rw [← commandKey_of_subject hc]
        exact hkey
      · rintro ⟨rfl | ⟨hx, -⟩, hkey⟩
        · exact absurd hkey hn
        · exact ⟨hx, hkey⟩

/-- The state the loop writes over `prior`. -/
def writeRow (s : MergeState) (prior : Option MessageObject) (u : DisplayMessage) :
    MergeState where
  messages :=
    (match prior with
      | none => s.messages
      | some prior => s.messages.delete prior.message.messageId).set u.messageId
        ⟨s.next, nextMessage (prior.map MessageObject.message) u⟩
  commands :=
    match commandKey u with
    | none =>
        match prior with
        | none => s.commands
        | some prior => dropCommand s.commands prior
    | some key =>
        (match prior with
          | none => s.commands
          | some prior => dropCommand s.commands prior).set key
            ⟨s.next, nextMessage (prior.map MessageObject.message) u⟩
  changed := true
  next := s.next + 1

/-- The object the loop writes. -/
def writtenRow (s : MergeState) (prior : Option MessageObject) (u : DisplayMessage) :
    MessageObject :=
  ⟨s.next, nextMessage (prior.map MessageObject.message) u⟩

theorem replaced_first (h : Renders us (rowsOf s)) (hs : Coupled s)
    (hnone : ∀ m ∈ rowsOf s, subjectOf m ≠ subjectOf u) :
    Replaced s (writeRow s none u) (writtenRow s none u) := by
  obtain ⟨hsubject, -⟩ := h.add hnone
  refine ⟨fun id => ?_, fun key => ?_⟩
  · have hkeep : (s.messages.get id).filter (fun o =>
        decide (subjectOf o.message ≠ subjectOf (writtenRow s none u).message)) =
          s.messages.get id := by
      cases hget : s.messages.get id with
      | none => rfl
      | some o =>
          have hne : subjectOf o.message ≠ subjectOf (nextMessage none u) := by
            rw [hsubject]
            exact hnone _ (hs.live hget).mem_rowsOf
          simp [Option.filter, writtenRow, hne]
    rw [hkeep]
    have hid : (writtenRow s none u).message.messageId = u.messageId :=
      nextMessage_messageId none
    rw [hid]
    exact Dict.get_set
  · have hkey : commandKey (writtenRow s none u).message = commandKey u :=
      (nextMessage_none u).2.1
    rw [hkey]
    unfold writeRow
    cases commandKey u with
    | none => simp
    | some k =>
        simp only [Option.some.injEq]
        exact Dict.get_set

theorem replaced_over (h : Renders us (rowsOf s)) (hs : Coupled s)
    (hmix : Unmixed (insert u us)) (ho : Live s o) (hc : subjectOf o.message = subjectOf u) :
    Replaced s (writeRow s (some o) u) (writtenRow s (some o) u) := by
  have hkey : commandKey (nextMessage (some o.message) u) = commandKey u :=
    h.commandKey_next hmix ho.mem_rowsOf hc
  have hsubject : subjectOf (nextMessage (some o.message) u) = subjectOf u :=
    subjectOf_congr hkey (nextMessage_messageId _)
  refine ⟨fun id => ?_, fun key => ?_⟩
  · have hid : (writtenRow s (some o) u).message.messageId = u.messageId :=
      nextMessage_messageId _
    rw [hid]
    have hset : (writeRow s (some o) u).messages.get id =
        if u.messageId = id then some (writtenRow s (some o) u)
        else (s.messages.delete o.message.messageId).get id := Dict.get_set
    rw [hset, Dict.get_delete]
    split_ifs with h₁ h₂
    · rfl
    · -- the row that is replaced
      unfold Live at ho
      rw [← h₂, ho]
      simp [Option.filter, writtenRow, hsubject, hc]
    · cases hget : s.messages.get id with
      | none => rfl
      | some x =>
          have hne : subjectOf x.message ≠ subjectOf (nextMessage (some o.message) u) := by
            intro hx
            have hxo := h.object_eq (hs.live hget) ho (hx.trans (hsubject.trans hc.symm))
            exact h₂ (hxo ▸ hs.keyed id x hget)
          simp [Option.filter, writtenRow, hne]
  · have hwritten : commandKey (writtenRow s (some o) u).message = commandKey u := hkey
    have hokey := commandKey_of_subject hc
    rw [hwritten]
    unfold writeRow dropCommand
    cases hu : commandKey u with
    | none => simp [hokey, hu]
    | some k =>
        have hcommand : s.commands.get k = some o :=
          (hs.commands k o).mpr ⟨ho, hokey.trans hu⟩
        simp only [hokey, hu, hcommand, Option.any_some, decide_true, if_true,
          Option.some.injEq]
        rw [Dict.get_set, Dict.get_delete]
        split_ifs with hk
        · rfl
        · rfl

/-- One round of the loop. -/
theorem renders_mergeStep (hs : Coupled s) (h : Renders us (rowsOf s))
    (hus : IdentityConsistent (insert u us)) (hmix : Unmixed (insert u us)) :
    Coupled (mergeStep s u) ∧ Renders (insert u us) (rowsOf (mergeStep s u)) ∧
      (mergeStep s u = s ∨ (mergeStep s u).changed = true) := by
  by_cases hrow : ∃ o, Live s o ∧ subjectOf o.message = subjectOf u
  · obtain ⟨o, ho, hc⟩ := hrow
    have hprior := priorOf_some hs h hus ho hc
    by_cases hskip : o.message.status.get.any (fun status => decide (status ≠ .pending)) = true ∧
        isPending u
    · have hstep : mergeStep s u = s := by
        unfold mergeStep
        have hp : u.status.get = some .pending := hskip.2
        simp only [hprior, Option.any_some, hskip.1, hp, decide_true, Bool.and_self, if_true]
      rw [hstep]
      exact ⟨hs, h.skip ho.mem_rowsOf hc hskip.1 hskip.2, Or.inl rfl⟩
    · have hcond : (o.message.status.get.any (fun status => decide (status ≠ .pending)) &&
          decide (u.status.get = some .pending)) = false := by
        by_contra hno
        rw [Bool.not_eq_false, Bool.and_eq_true, decide_eq_true_eq] at hno
        exact hskip hno
      by_cases hequal : equalMessages o.message (nextMessage (some o.message) u) = true
      · have hstep : mergeStep s u = s := by
          unfold mergeStep
          simp only [hprior, Option.any_some, hcond, Option.map_some, hequal, if_true,
            Bool.false_eq_true, if_false]
        rw [hstep]
        exact ⟨hs, h.unchanged hus ho.mem_rowsOf hc hskip hequal, Or.inl rfl⟩
      · have hstep : mergeStep s u = writeRow s (some o) u := by
          unfold mergeStep
          simp only [hprior, Option.any_some, hcond, Option.map_some, hequal, if_false,
            Bool.false_eq_true]
          rfl
        obtain ⟨hsubject, hnext⟩ := h.next hus hmix ho.mem_rowsOf hc hskip
        have hreplaced := replaced_over h hs hmix ho hc
        have hid : ∀ x, Live s x →
            x.message.messageId = (writtenRow s (some o) u).message.messageId →
            subjectOf x.message = subjectOf (writtenRow s (some o) u).message := by
          intro x hx hxid
          have hxid' : x.message.messageId = u.messageId :=
            hxid.trans (nextMessage_messageId _)
          exact (h.subject_of_id hus hx.mem_rowsOf hxid').trans hsubject.symm
        rw [hstep, hreplaced.rowsOf_eq hid]
        exact ⟨hreplaced.coupled hs hid, hnext, Or.inr rfl⟩
  · have hnone : ∀ m ∈ rowsOf s, subjectOf m ≠ subjectOf u := by
      rintro m ⟨o, ho, rfl⟩ hc
      exact hrow ⟨o, ho, hc⟩
    have hprior := priorOf_none hs h hus hnone
    have hstep : mergeStep s u = writeRow s none u := by
      unfold mergeStep
      simp only [hprior, Option.any_none, Bool.false_and, Bool.false_eq_true, if_false]
      rfl
    obtain ⟨hsubject, hadd⟩ := h.add hnone
    have hreplaced := replaced_first h hs hnone
    have hid : ∀ x, Live s x →
        x.message.messageId = (writtenRow s none u).message.messageId →
        subjectOf x.message = subjectOf (writtenRow s none u).message := by
      intro x hx hxid
      have hxid' : x.message.messageId = u.messageId := hxid.trans (nextMessage_messageId _)
      exact (h.subject_of_id hus hx.mem_rowsOf hxid').trans hsubject.symm
    rw [hstep, hreplaced.rowsOf_eq hid]
    exact ⟨hreplaced.coupled hs hid, hadd, Or.inr rfl⟩

/-- The whole loop. -/
theorem renders_foldl {incoming : List DisplayMessage} (hs : Coupled s)
    (h : Renders us (rowsOf s)) (hus : IdentityConsistent (us ∪ {u | u ∈ incoming}))
    (hmix : Unmixed (us ∪ {u | u ∈ incoming})) :
    Coupled (incoming.foldl mergeStep s) ∧
      Renders (us ∪ {u | u ∈ incoming}) (rowsOf (incoming.foldl mergeStep s)) ∧
      (incoming.foldl mergeStep s = s ∨ (incoming.foldl mergeStep s).changed = true) := by
  induction incoming generalizing s us with
  | nil =>
      have hempty : us ∪ {u | u ∈ ([] : List DisplayMessage)} = us := by simp
      rw [hempty]
      exact ⟨hs, h, Or.inl rfl⟩
  | cons u rest ih =>
      have hunion : us ∪ {v | v ∈ u :: rest} = insert u us ∪ {v | v ∈ rest} := by
        ext v
        simp only [Set.mem_union, Set.mem_insert_iff, Set.mem_ofPred_eq, List.mem_cons]
        tauto
      rw [hunion] at hus hmix ⊢
      have hsub : insert u us ⊆ insert u us ∪ {v | v ∈ rest} := Set.subset_union_left
      obtain ⟨hs₁, h₁, hchanged₁⟩ := renders_mergeStep hs h (hus.mono hsub) (hmix.mono hsub)
      obtain ⟨hs₂, h₂, hchanged₂⟩ := ih hs₁ h₁ hus hmix
      refine ⟨hs₂, h₂, ?_⟩
      rw [List.foldl_cons]
      rcases hchanged₂ with hsame | hchanged
      · rw [hsame]
        exact hchanged₁
      · exact Or.inr hchanged

end Indexes

section Batches

variable {us : Set DisplayMessage} {rows : List DisplayMessage}

/-- The list shows a set of updates, each row once. -/
def ListRenders (us : Set DisplayMessage) (rows : List DisplayMessage) : Prop :=
  (rows.map DisplayMessage.messageId).Nodup ∧ Renders us {m | m ∈ rows}

theorem objectsOf_messages (rows : List DisplayMessage) :
    (objectsOf rows).map MessageObject.message = rows := by
  unfold objectsOf
  rw [List.map_map]
  exact List.zipIdx_map_fst 0 rows

theorem mem_objectsOf {m : DisplayMessage} :
    m ∈ rows ↔ ∃ o ∈ objectsOf rows, o.message = m := by
  nth_rewrite 1 [← objectsOf_messages rows]
  exact List.mem_map

theorem mergeStart_messages (hnodup : (rows.map DisplayMessage.messageId).Nodup) {id : String}
    {o : MessageObject} :
    (mergeStart rows).messages.get id = some o ↔
      o ∈ objectsOf rows ∧ o.message.messageId = id := by
  have hkeys : ((objectsOf rows).map fun o => (o.message.messageId, o)).map Prod.fst =
      rows.map DisplayMessage.messageId := by
    nth_rewrite 2 [← objectsOf_messages rows]
    rw [List.map_map, List.map_map]
    rfl
  have hget := Dict.get_ofList (k := id) (v := o) (hkeys ▸ hnodup)
  rw [mergeStart, hget, List.mem_map]
  constructor
  · rintro ⟨x, hx, heq⟩
    obtain ⟨hid, rfl⟩ := Prod.ext_iff.mp heq
    exact ⟨hx, hid⟩
  · rintro ⟨hx, rfl⟩
    exact ⟨o, hx, rfl⟩

/-- Distinct rows have distinct command keys. -/
theorem ListRenders.commandKeys_nodup (h : ListRenders us rows) :
    (rows.filterMap commandKey).Nodup := by
  obtain ⟨hnodup, hrenders⟩ := h
  refine List.pairwise_filterMap.mpr ?_
  rw [List.Nodup, List.pairwise_map] at hnodup
  refine hnodup.imp_of_mem ?_
  intro a b ha hb hne k hk k' hk' hkk
  refine hne (congrArg DisplayMessage.messageId (hrenders.unique a ha b hb ?_))
  rw [subjectOf_eq_command.mpr hk, subjectOf_eq_command.mpr hk', hkk]

theorem mergeStart_commands (h : ListRenders us rows) {key : String} {o : MessageObject} :
    (mergeStart rows).commands.get key = some o ↔
      o ∈ objectsOf rows ∧ commandKey o.message = some key := by
  have hkeys : ((objectsOf rows).filterMap fun o =>
      (commandKey o.message).map fun k => (k, o)).map Prod.fst = rows.filterMap commandKey := by
    nth_rewrite 2 [← objectsOf_messages rows]
    rw [List.map_filterMap, List.filterMap_map]
    congr 1
    funext x
    simp only [Function.comp_apply, Option.map_map]
    exact Option.map_id'
  have hget := Dict.get_ofList (k := key) (v := o) (hkeys ▸ h.commandKeys_nodup)
  rw [mergeStart, hget, List.mem_filterMap]
  constructor
  · rintro ⟨x, hx, heq⟩
    obtain ⟨k, hk, hpair⟩ := Option.map_eq_some_iff.mp heq
    obtain ⟨hkey, rfl⟩ := Prod.ext_iff.mp hpair
    exact ⟨hx, hk.trans (congrArg some hkey)⟩
  · rintro ⟨hx, hkey⟩
    exact ⟨o, hx, by simp [hkey]⟩

/-- Before the loop the indexes are about the list. -/
theorem coupled_mergeStart (h : ListRenders us rows) :
    Coupled (mergeStart rows) ∧ rowsOf (mergeStart rows) = {m | m ∈ rows} := by
  have hlive : ∀ o, Live (mergeStart rows) o ↔ o ∈ objectsOf rows := by
    intro o
    unfold Live
    rw [mergeStart_messages h.1]
    simp
  refine ⟨⟨?_, ?_⟩, ?_⟩
  · intro id o ho
    exact ((mergeStart_messages h.1).mp ho).2
  · intro key o
    rw [mergeStart_commands h, hlive]
  · ext m
    simp only [rowsOf, hlive, Set.mem_ofPred_eq]
    exact mem_objectsOf.symm

/-- The sorted values of the loop are the rows, each id once. -/
theorem sortedValues {s : MergeState}
    (hkeyed : ∀ id o, s.messages.get id = some o → o.message.messageId = id) :
    (((s.messages.values.map MessageObject.message).insertionSort
        (fun a b => messageLe a b)).map DisplayMessage.messageId).Nodup ∧
      ∀ m, m ∈ (s.messages.values.map MessageObject.message).insertionSort
        (fun a b => messageLe a b) ↔ m ∈ rowsOf s := by
  have hperm := List.perm_insertionSort (fun a b => messageLe a b = true)
    (s.messages.values.map MessageObject.message)
  refine ⟨?_, fun m => ?_⟩
  · rw [(hperm.map _).nodup_iff]
    have hkeys : (s.messages.values.map MessageObject.message).map DisplayMessage.messageId =
        s.messages.entries.map Prod.fst := by
      rw [Dict.values, List.map_map, List.map_map]
      refine List.map_congr_left fun p hp => ?_
      exact hkeyed p.1 p.2 (Dict.get_eq_some_iff.mpr hp)
    rw [hkeys]
    exact s.messages.nodup
  · simp only [hperm.mem_iff, List.mem_map, Dict.mem_values, rowsOf, Set.mem_ofPred_eq]
    constructor
    · rintro ⟨o, ⟨id, hget⟩, rfl⟩
      have hid := hkeyed id o hget
      refine ⟨o, ?_, rfl⟩
      unfold Live
      rw [hid]
      exact hget
    · rintro ⟨o, ho, rfl⟩
      exact ⟨o, ⟨_, ho⟩, rfl⟩

/-- The list after the loop. -/
theorem listRenders_values {s : MergeState} (hs : Coupled s) (h : Renders us (rowsOf s)) :
    ListRenders us ((s.messages.values.map MessageObject.message).insertionSort
      (fun a b => messageLe a b)) := by
  obtain ⟨hnodup, hmem⟩ := sortedValues hs.keyed
  refine ⟨hnodup, ?_⟩
  have hrows : {m | m ∈ (s.messages.values.map MessageObject.message).insertionSort
      (fun a b => messageLe a b)} = rowsOf s := by
    ext m
    exact hmem m
  rw [hrows]
  exact h

/-- One batch. -/
theorem ListRenders.mergeMessages {incoming : List DisplayMessage} (h : ListRenders us rows)
    (hus : IdentityConsistent (us ∪ {u | u ∈ incoming}))
    (hmix : Unmixed (us ∪ {u | u ∈ incoming})) :
    ListRenders (us ∪ {u | u ∈ incoming}) (Client.mergeMessages rows incoming) := by
  unfold Client.mergeMessages
  split_ifs with hempty
  · subst hempty
    have hunion : us ∪ {u | u ∈ ([] : List DisplayMessage)} = us := by simp
    rw [hunion]
    exact h
  · obtain ⟨hcoupled, hrows⟩ := coupled_mergeStart h
    have hstart : Renders us (rowsOf (mergeStart rows)) := hrows ▸ h.2
    obtain ⟨hs, hrenders, hchanged⟩ := renders_foldl hcoupled hstart hus hmix
    simp only
    split_ifs with hflag
    · exact listRenders_values hs hrenders
    · rcases hchanged with hsame | hchanged
      · rw [hsame, hrows] at hrenders
        exact ⟨h.1, hrenders⟩
      · exact absurd hchanged hflag

/-- Any number of batches. -/
theorem ListRenders.batches {batches : List (List DisplayMessage)} (h : ListRenders us rows)
    (hus : IdentityConsistent (us ∪ {u | u ∈ batches.flatten}))
    (hmix : Unmixed (us ∪ {u | u ∈ batches.flatten})) :
    ListRenders (us ∪ {u | u ∈ batches.flatten}) (batches.foldl Client.mergeMessages rows) := by
  induction batches generalizing us rows with
  | nil =>
      have hunion : us ∪ {u | u ∈ ([] : List (List DisplayMessage)).flatten} = us := by simp
      rw [hunion]
      exact h
  | cons batch rest ih =>
      have hunion : us ∪ {u | u ∈ (batch :: rest).flatten} =
          us ∪ {u | u ∈ batch} ∪ {u | u ∈ rest.flatten} := by
        ext u
        simp only [Set.mem_union, Set.mem_ofPred_eq, List.flatten_cons, List.mem_append, or_assoc]
      rw [hunion] at hus hmix ⊢
      have hsub : us ∪ {u | u ∈ batch} ⊆ us ∪ {u | u ∈ batch} ∪ {u | u ∈ rest.flatten} :=
        Set.subset_union_left
      exact ih (h.mergeMessages (hus.mono hsub) (hmix.mono hsub)) hus hmix

theorem listRenders_nil : ListRenders ∅ [] := by
  refine ⟨List.nodup_nil, ?_⟩
  constructor <;> simp

/-- The rows of a list under the conditions: which ids and statuses it shows. -/
theorem ListRenders.pairs (h : ListRenders us rows) (hus : IdentityConsistent us) (id : String)
    (status : Option MessageStatus) :
    (∃ m ∈ rows, m.messageId = id ∧ m.status.get = status) ↔
      ∃ u ∈ us, ShownId us (subjectOf u) id ∧ IsHighest us (subjectOf u) status := by
  obtain ⟨-, hrenders⟩ := h
  constructor
  · rintro ⟨m, hm, rfl, rfl⟩
    obtain ⟨u, hu, hc, -⟩ := (hrenders.shown m hm).exists
    exact ⟨u, hu, hc ▸ hrenders.shown m hm, hc ▸ hrenders.highest m hm⟩
  · rintro ⟨u, hu, hid, hstatus⟩
    obtain ⟨m, hm, hc⟩ := hrenders.complete u hu
    rw [← hc] at hid hstatus
    exact ⟨m, hm, (hrenders.shown m hm).unique hus hid, (hrenders.highest m hm).unique hstatus⟩

/-- No two rows share the message id or the command key. -/
theorem ListRenders.distinct (h : ListRenders us rows) :
    rows.Pairwise fun a b => a.messageId ≠ b.messageId ∧
      ∀ key, commandKey a = some key → commandKey b ≠ some key := by
  have hids := h.1
  rw [List.Nodup, List.pairwise_map] at hids
  refine hids.imp_of_mem ?_
  intro a b ha hb hne
  refine ⟨hne, fun key hak hbk => hne ?_⟩
  refine congrArg DisplayMessage.messageId (h.2.unique a ha b hb ?_)
  rw [subjectOf_eq_command.mpr hak, subjectOf_eq_command.mpr hbk]

/-- **Main result.**  Whatever the order of the updates and the way they are
cut into batches, the list has one row per message and command, and it shows
the same ids and statuses. -/
theorem message_lists_converge {updates : List DisplayMessage}
    (hus : IdentityConsistent {u | u ∈ updates}) (hmix : Unmixed {u | u ∈ updates})
    {batches : List (List DisplayMessage)} (hperm : batches.flatten.Perm updates) :
    ((batches.foldl mergeMessages []).Pairwise fun a b => a.messageId ≠ b.messageId ∧
        ∀ key, commandKey a = some key → commandKey b ≠ some key) ∧
      (∀ id status,
        (∃ m ∈ batches.foldl mergeMessages [], m.messageId = id ∧ m.status.get = status) ↔
          ∃ u ∈ updates, ShownId {v | v ∈ updates} (subjectOf u) id ∧
            IsHighest {v | v ∈ updates} (subjectOf u) status) ∧
      ∀ batches' : List (List DisplayMessage), batches'.flatten.Perm updates → ∀ id status,
        (∃ m ∈ batches'.foldl mergeMessages [], m.messageId = id ∧ m.status.get = status) ↔
          ∃ m ∈ batches.foldl mergeMessages [], m.messageId = id ∧ m.status.get = status := by
  have hrenders : ∀ bs : List (List DisplayMessage), bs.flatten.Perm updates →
      ListRenders {u | u ∈ updates} (bs.foldl mergeMessages []) := by
    intro bs hbs
    have hset : (∅ : Set DisplayMessage) ∪ {u | u ∈ bs.flatten} = {u | u ∈ updates} := by
      ext u
      simp only [Set.empty_union, Set.mem_ofPred_eq, hbs.mem_iff]
    have hall := listRenders_nil.batches (hset ▸ hus) (hset ▸ hmix)
    rw [hset] at hall
    exact hall
  have hmain := hrenders batches hperm
  refine ⟨hmain.distinct, hmain.pairs hus, ?_⟩
  intro batches' hperm' id status
  rw [(hrenders batches' hperm').pairs hus, hmain.pairs hus]

/-- An optimistic row and the accepted message of the same command. -/
def optimisticUpdate : DisplayMessage where
  messageId := "pending:c"
  chatId := "chat"
  senderUserId := "alice"
  content := "hello"
  createdAt := "2026-01-01T00:00:00Z"
  clientMessageId := .value "c"
  senderDeviceId := .value "d"
  status := .value .pending

def acceptedUpdate : DisplayMessage :=
  { optimisticUpdate with messageId := "m1", status := .value .accepted }

theorem message_lists_converge_accepted :
    ∃ m ∈ [[acceptedUpdate], [optimisticUpdate]].foldl mergeMessages [],
      m.messageId = "m1" ∧ m.status.get = some .accepted := by
  have hus : IdentityConsistent {u | u ∈ [optimisticUpdate, acceptedUpdate]} := by
    constructor <;>
      (change ∀ u ∈ [optimisticUpdate, acceptedUpdate],
        ∀ v ∈ [optimisticUpdate, acceptedUpdate], _) <;>
      decide
  have hmix : Unmixed {u | u ∈ [optimisticUpdate, acceptedUpdate]} := by
    change ∀ u ∈ [optimisticUpdate, acceptedUpdate], ∀ v ∈ [optimisticUpdate, acceptedUpdate], _
    decide
  have hperm : [[acceptedUpdate], [optimisticUpdate]].flatten.Perm
      [optimisticUpdate, acceptedUpdate] := List.Perm.swap _ _ _
  have hmain := message_lists_converge hus hmix hperm
  refine (hmain.2.2 [[optimisticUpdate], [acceptedUpdate]] (List.Perm.refl _) "m1"
    (some .accepted)).mp ?_
  decide

/-- Two updates of one message that have the client id and the device between
them. -/
def clientIdUpdate : DisplayMessage where
  messageId := "m2"
  chatId := "chat"
  senderUserId := "alice"
  content := "hello"
  createdAt := "2026-01-01T00:00:00Z"
  clientMessageId := .value "c"

def deviceUpdate : DisplayMessage where
  messageId := "m2"
  chatId := "chat"
  senderUserId := "alice"
  content := "hello"
  createdAt := "2026-01-01T00:00:00Z"
  senderDeviceId := .value "d"

/-- None of the updates of `m2` has a command key, but their merged row has
one, the key of another message. -/
theorem mixed_updates_share_a_command :
    IdentityConsistent {u | u ∈ [optimisticUpdate, clientIdUpdate, deviceUpdate]} ∧
      (∃ a ∈ [[optimisticUpdate], [clientIdUpdate], [deviceUpdate]].foldl mergeMessages [],
        ∃ b ∈ [[optimisticUpdate], [clientIdUpdate], [deviceUpdate]].foldl mergeMessages [],
          a.messageId ≠ b.messageId ∧ (commandKey a).isSome ∧ commandKey a = commandKey b) ∧
      (∀ m ∈ [[clientIdUpdate], [deviceUpdate], [optimisticUpdate]].foldl mergeMessages [],
        m.messageId ≠ "m2") ∧
      ∃ m ∈ [[optimisticUpdate], [clientIdUpdate], [deviceUpdate]].foldl mergeMessages [],
        m.messageId = "m2" := by
  refine ⟨?_, by decide, by decide +kernel, by decide +kernel⟩
  constructor <;>
    (change ∀ u ∈ [optimisticUpdate, clientIdUpdate, deviceUpdate],
      ∀ v ∈ [optimisticUpdate, clientIdUpdate, deviceUpdate], _) <;>
    decide

end Batches

end Client
end SecureMessenger

import SecureMessenger.Client.RowUpdates
import SecureMessenger.Client.MessageOrder
import SecureMessenger.Client.ScopeIsolation

/-!
# The rows of a merged list

A batch is merged row by row: after the loop each row is what its own updates,
in their order, make of it.  A row is that of a command, under the local id or
under the id of the server, unless the list has both rows of the command; then
each row is that of its id.
-/

namespace SecureMessenger
namespace Client

open Lib

section Rows

variable {twice : String → Bool} {us : Set DisplayMessage} {m u v : DisplayMessage}

/-- The row an update is about, `twice` being the commands with two rows. -/
def rowOf (twice : String → Bool) (u : DisplayMessage) : Subject :=
  match commandKey u with
  | some key => if twice key then .message u.messageId else .command key
  | none => .message u.messageId

theorem rowOf_congr (hkey : commandKey u = commandKey v) (hid : u.messageId = v.messageId) :
    rowOf twice u = rowOf twice v := by
  unfold rowOf
  rw [hkey, hid]

/-- A row stands for updates of `us`: one of them has its id, its command key
and, if it is the row of a command, its state. -/
structure Fits (twice : String → Bool) (us : Set DisplayMessage) (m : DisplayMessage) :
    Prop where
  source : ∃ w ∈ us, w.messageId = m.messageId ∧ commandKey w = commandKey m ∧
    ((commandKey m).isSome → (isPending w ↔ isPending m) ∧
      (w.status.get.isSome → m.status.get.isSome))
  ordered : ∃ w ∈ us, rowOf twice w = rowOf twice m ∧ sortKey w = sortKey m
  client : truthy m.clientMessageId = true → commandKey m = none →
    ∃ w ∈ us, w.messageId = m.messageId ∧ truthy w.clientMessageId = true
  device : truthy m.senderDeviceId = true → commandKey m = none →
    ∃ w ∈ us, w.messageId = m.messageId ∧ truthy w.senderDeviceId = true
  defined : (∀ w ∈ us, Defined w) → Defined m

theorem fits_self (hu : u ∈ us) : Fits twice us u where
  source := ⟨u, hu, rfl, rfl, fun _ => ⟨Iff.rfl, id⟩⟩
  ordered := ⟨u, hu, rfl, rfl⟩
  client h _ := ⟨u, hu, rfl, h⟩
  device h _ := ⟨u, hu, rfl, h⟩
  defined h := h u hu

theorem nextMessage_none_status (u : DisplayMessage) :
    ∃ p : Property MessageStatus, nextMessage none u = { u with status := p } ∧
      p.get = u.status.get ∧ (u.status ≠ .undefined → p ≠ .undefined) := by
  obtain ⟨hstatus, -⟩ := nextMessage_none u
  simp only [nextMessage] at hstatus ⊢
  cases hselect : selectStatus none u.status.get with
  | none => exact ⟨u.status, rfl, rfl, id⟩
  | some status =>
      rw [hselect] at hstatus
      exact ⟨.value status, rfl, hstatus, fun _ => by simp⟩

theorem fits_first (hu : u ∈ us) : Fits twice us (nextMessage none u) := by
  obtain ⟨p, hp, hget, hdefined⟩ := nextMessage_none_status u
  rw [hp]
  constructor
  · refine ⟨u, hu, rfl, rfl, fun _ => ?_⟩
    unfold isPending
    simp only [hget, imp_self, and_self]
  · exact ⟨u, hu, rfl, rfl⟩
  · exact fun h _ => ⟨u, hu, rfl, h⟩
  · exact fun h _ => ⟨u, hu, rfl, h⟩
  · intro h
    obtain ⟨hseq, hclient, hdevice, hhistory, hstatus, hdeliveries⟩ := h u hu
    exact ⟨hseq, hclient, hdevice, hhistory, hdefined hstatus, hdeliveries⟩

variable (hus : IdentityConsistent us) (hmix : Unmixed us)

section
include hus

/-- An update under the id of a row is about that row. -/
theorem Fits.row_of_id (hm : Fits twice us m) (hu : u ∈ us) (hid : m.messageId = u.messageId) :
    commandKey m = commandKey u ∧ rowOf twice m = rowOf twice u := by
  obtain ⟨w, hw, hwid, hwkey, -⟩ := hm.source
  have hkey : commandKey m = commandKey u :=
    hwkey.symm.trans (hus.sameKey w hw u hu (hwid.trans hid))
  exact ⟨hkey, rowOf_congr hkey hid⟩

/-- An update about a row has its command key, and its id unless the row is
that of a command. -/
theorem Fits.of_row (hm : Fits twice us m) (hu : u ∈ us) (hrow : rowOf twice m = rowOf twice u) :
    commandKey m = commandKey u ∧
      (m.messageId = u.messageId ∨ ∃ key, commandKey u = some key ∧ twice key = false) := by
  have hmessage : ∀ id, rowOf twice m = .message id → m.messageId = id := by
    intro id h
    unfold rowOf at h
    split at h
    · split_ifs at h
      exact Subject.message.inj h
    · exact Subject.message.inj h
  have hcommand : ∀ key, rowOf twice m = .command key → commandKey m = some key := by
    intro key h
    unfold rowOf at h
    split at h
    · next k hk =>
        split_ifs at h
        rw [hk, Subject.command.inj h]
    · cases h
  have hid : rowOf twice u = .message u.messageId →
      commandKey m = commandKey u ∧ m.messageId = u.messageId := by
    intro h
    have hid := hmessage _ (hrow.trans h)
    exact ⟨(hm.row_of_id hus hu hid).1, hid⟩
  cases hukey : commandKey u with
  | none =>
      have hu' : rowOf twice u = .message u.messageId := by
        unfold rowOf
        rw [hukey]
      obtain ⟨hkey, hid⟩ := hid hu'
      exact ⟨hkey.trans hukey, Or.inl hid⟩
  | some key =>
      cases htwice : twice key with
      | true =>
          have hu' : rowOf twice u = .message u.messageId := by
            unfold rowOf
            rw [hukey]
            simp [htwice]
          obtain ⟨hkey, hid⟩ := hid hu'
          exact ⟨hkey.trans hukey, Or.inl hid⟩
      | false =>
          have hu' : rowOf twice u = .command key := by
            unfold rowOf
            rw [hukey]
            simp [htwice]
          exact ⟨hcommand key (hrow.trans hu'), Or.inr ⟨key, rfl, htwice⟩⟩

theorem Fits.id_of_keyless (hm : Fits twice us m) (hu : u ∈ us)
    (hrow : rowOf twice m = rowOf twice u) (hkey : commandKey u = none) :
    m.messageId = u.messageId := by
  rcases (hm.of_row hus hu hrow).2 with hid | ⟨key, hsome, -⟩
  · exact hid
  · rw [hkey] at hsome
    cases hsome

/-- The state of the merged message is that of the update. -/
theorem Fits.state_next (hm : Fits twice us m) (hu : u ∈ us)
    (hrow : rowOf twice m = rowOf twice u) (hnew : ¬(isSettled m = true ∧ isPending u))
    (hsome : (commandKey u).isSome) :
    (isPending u ↔ isPending (nextMessage (some m) u)) ∧
      (u.status.get.isSome → (nextMessage (some m) u).status.get.isSome) := by
  have hkey := (hm.of_row hus hu hrow).1
  have hstatus : u.status.get.isSome → (nextMessage (some m) u).status.get.isSome := by
    intro h
    rw [nextMessage_status]
    obtain ⟨t, ht⟩ := Option.isSome_iff_exists.mp h
    rw [ht]
    cases m.status.get with
    | none => rfl
    | some s =>
        simp only [selectStatus]
        split_ifs <;> rfl
  refine ⟨⟨fun hp => ?_, fun hp => ?_⟩, hstatus⟩
  · -- the row was not settled, and a pending update does not settle it
    have hm' : isSettled m = false := by
      rw [← Bool.not_eq_true]
      exact fun hm' => hnew ⟨hm', hp⟩
    have hnot : ¬isSettled (nextMessage (some m) u) = true := by
      rw [isSettled_next_of_pending hm' hp]
      simp
    have hp' : u.status.get = some .pending := hp
    by_contra hno
    exact hnot (isSettled_iff.mpr ⟨hstatus (by simp [hp']), hno⟩)
  · by_contra hno
    -- a pending update of the command is there, so this update has a status
    have hstatusSome : u.status.get.isSome := by
      by_contra hnone
      rw [Option.not_isSome_iff_eq_none] at hnone
      have hmp : isPending m := by
        unfold isPending at hp ⊢
        rw [nextMessage_status, hnone] at hp
        exact hp
      obtain ⟨w, hw, -, hwkey, hwstate⟩ := hm.source
      have hwp := (hwstate (hkey ▸ hsome)).1.mpr hmp
      have hwu : commandKey w = commandKey u := hwkey.trans hkey
      have := hus.hasStatus w hw u hu hwp (hwu ▸ hsome) hno hwu
      rw [hnone] at this
      cases this
    exact (isSettled_iff.mp (isSettled_next_of_status hstatusSome hno)).2 hp

include hmix

/-- The merged message has the command key of the update. -/
theorem Fits.commandKey_next (hm : Fits twice us m) (hu : u ∈ us)
    (hrow : rowOf twice m = rowOf twice u) :
    commandKey (nextMessage (some m) u) = commandKey u := by
  cases hkey : commandKey u with
  | some k =>
      have hboth : truthy u.clientMessageId = true ∧ truthy u.senderDeviceId = true := by
        by_contra hno
        rw [commandKey_none.mpr hno] at hkey
        cases hkey
      rw [← hkey]
      unfold commandKey nextMessage
      simp only [spread_of_truthy hboth.1, spread_of_truthy hboth.2]
  | none =>
      have hmkey : commandKey m = none := (hm.of_row hus hu hrow).1.trans hkey
      have hid := hm.id_of_keyless hus hu hrow hkey
      rw [commandKey_none]
      rintro ⟨hclient, hdevice⟩
      -- both parts come from updates under this id, none of which has a key
      have hfrom₁ : ∃ v ∈ us, v.messageId = u.messageId ∧ truthy v.clientMessageId = true := by
        rcases truthy_spread hclient with hold | hnew
        · obtain ⟨v, hv, hvid, ht⟩ := hm.client hold hmkey
          exact ⟨v, hv, hvid.trans hid, ht⟩
        · exact ⟨u, hu, rfl, hnew⟩
      have hfrom₂ : ∃ v ∈ us, v.messageId = u.messageId ∧ truthy v.senderDeviceId = true := by
        rcases truthy_spread hdevice with hold | hnew
        · obtain ⟨v, hv, hvid, ht⟩ := hm.device hold hmkey
          exact ⟨v, hv, hvid.trans hid, ht⟩
        · exact ⟨u, hu, rfl, hnew⟩
      obtain ⟨v, hv, hvid, hvt⟩ := hfrom₁
      obtain ⟨w, hw, hwid, hwt⟩ := hfrom₂
      have hfalse := hmix v hv w hw (hvid.trans hwid.symm)
        ((hus.sameKey v hv u hu hvid).trans hkey) hvt
      rw [hwt] at hfalse
      cases hfalse

/-- The merged message is the row of the update. -/
theorem Fits.row_next (hm : Fits twice us m) (hu : u ∈ us)
    (hrow : rowOf twice m = rowOf twice u) :
    rowOf twice (nextMessage (some m) u) = rowOf twice u :=
  rowOf_congr (hm.commandKey_next hus hmix hu hrow) (nextMessage_messageId _)

/-- The tie-break key of the merged message is that of an update about it. -/
theorem Fits.ordered_next (hm : Fits twice us m) (hu : u ∈ us)
    (hrow : rowOf twice m = rowOf twice u) :
    ∃ w ∈ us, rowOf twice w = rowOf twice (nextMessage (some m) u) ∧
      sortKey w = sortKey (nextMessage (some m) u) := by
  have hkey := hm.commandKey_next hus hmix hu hrow
  have hnext := hm.row_next hus hmix hu hrow
  have hown : sortKey (nextMessage (some m) u) =
      (((nextMessage (some m) u).historyId.get).or (commandKey u)).getD u.messageId := by
    unfold sortKey
    rw [hkey, nextMessage_messageId]
  have hhistory : (nextMessage (some m) u).historyId = m.historyId.spread u.historyId := rfl
  rw [hhistory] at hown
  cases hh : u.historyId with
  | absent =>
      -- the key of the row stays
      obtain ⟨w, hw, hwrow, hwkey⟩ := hm.ordered
      refine ⟨w, hw, (hwrow.trans hrow).trans hnext.symm, hwkey.trans ?_⟩
      rw [hown, hh]
      unfold sortKey
      obtain ⟨hmkey, hid⟩ := hm.of_row hus hu hrow
      rw [hmkey]
      rcases hid with hid | ⟨key, hsome, -⟩
      · rw [hid]
        rfl
      · rw [hsome]
        cases m.historyId <;> rfl
  | undefined =>
      refine ⟨u, hu, hnext.symm, ?_⟩
      rw [hown, hh]
      unfold sortKey
      rw [hh]
      rfl
  | value h =>
      refine ⟨u, hu, hnext.symm, ?_⟩
      rw [hown, hh]
      unfold sortKey
      rw [hh]
      rfl

theorem Fits.next (hm : Fits twice us m) (hu : u ∈ us)
    (hrow : rowOf twice m = rowOf twice u) (hnew : ¬(isSettled m = true ∧ isPending u)) :
    Fits twice us (nextMessage (some m) u) := by
  have hkey := hm.commandKey_next hus hmix hu hrow
  constructor
  · exact ⟨u, hu, rfl, hkey.symm, fun hsome => hm.state_next hus hu hrow hnew (hkey ▸ hsome)⟩
  · exact hm.ordered_next hus hmix hu hrow
  · intro htruthy hnone
    rw [hkey] at hnone
    rcases truthy_spread htruthy with hold | hnew
    · obtain ⟨w, hw, hwid, ht⟩ := hm.client hold ((hm.of_row hus hu hrow).1.trans hnone)
      have hid : m.messageId = u.messageId := hm.id_of_keyless hus hu hrow hnone
      exact ⟨w, hw, hwid.trans hid, ht⟩
    · exact ⟨u, hu, rfl, hnew⟩
  · intro htruthy hnone
    rw [hkey] at hnone
    rcases truthy_spread htruthy with hold | hnew
    · obtain ⟨w, hw, hwid, ht⟩ := hm.device hold ((hm.of_row hus hu hrow).1.trans hnone)
      have hid : m.messageId = u.messageId := hm.id_of_keyless hus hu hrow hnone
      exact ⟨w, hw, hwid.trans hid, ht⟩
    · exact ⟨u, hu, rfl, hnew⟩
  · intro hall
    obtain ⟨hseq, hclient, hdevice, hhistory, hstatus, hdeliveries⟩ := hm.defined hall
    obtain ⟨hseq', hclient', hdevice', hhistory', hstatus', hdeliveries'⟩ := hall u hu
    refine ⟨Property.spread_defined hseq hseq', Property.spread_defined hclient hclient',
      Property.spread_defined hdevice hdevice', Property.spread_defined hhistory hhistory', ?_,
      Property.spread_defined hdeliveries hdeliveries'⟩
    simp only [nextMessage]
    split
    · exact Property.spread_defined hstatus hstatus'
    · simp

end

/-- The row after one round about it, if there was one before. -/
def absorbUpdate (prior : Option DisplayMessage) (u : DisplayMessage) : DisplayMessage :=
  match prior with
  | none => nextMessage none u
  | some m => absorbRow m u

/-- The rows of a list, by what they are the rows of. -/
structure RowsFit (twice : String → Bool) (us : Set DisplayMessage)
    (rows : Subject → Option DisplayMessage) : Prop where
  row : ∀ r m, rows r = some m → rowOf twice m = r
  fits : ∀ r m, rows r = some m → Fits twice us m
  both : ∀ key, twice key = true → ∀ u ∈ us, commandKey u = some key →
    (rows (.message u.messageId)).isSome

variable {rows : Subject → Option DisplayMessage}

include hus hmix in
theorem RowsFit.absorb (h : RowsFit twice us rows) (hu : u ∈ us) :
    rowOf twice (absorbUpdate (rows (rowOf twice u)) u) = rowOf twice u ∧
      Fits twice us (absorbUpdate (rows (rowOf twice u)) u) := by
  cases hprior : rows (rowOf twice u) with
  | none =>
      refine ⟨?_, fits_first hu⟩
      exact rowOf_congr (nextMessage_none u).2.1 (nextMessage_messageId _)
  | some m =>
      have hrow := h.row _ m hprior
      have hfits := h.fits _ m hprior
      simp only [absorbUpdate, absorbRow]
      split_ifs with hskip hequal
      · exact ⟨hrow, hfits⟩
      · exact ⟨hrow, hfits⟩
      · exact ⟨hfits.row_next hus hmix hu hrow, hfits.next hus hmix hu hrow hskip⟩

include hus hmix in
theorem RowsFit.step (h : RowsFit twice us rows) (hu : u ∈ us) :
    RowsFit twice us (Function.update rows (rowOf twice u)
      (some (absorbUpdate (rows (rowOf twice u)) u))) := by
  obtain ⟨hrow, hfits⟩ := h.absorb hus hmix hu
  constructor
  · intro r m hm
    by_cases hr : r = rowOf twice u
    · subst hr
      rw [Function.update_self, Option.some.injEq] at hm
      rw [← hm]
      exact hrow
    · rw [Function.update_of_ne hr] at hm
      exact h.row r m hm
  · intro r m hm
    by_cases hr : r = rowOf twice u
    · subst hr
      rw [Function.update_self, Option.some.injEq] at hm
      rw [← hm]
      exact hfits
    · rw [Function.update_of_ne hr] at hm
      exact h.fits r m hm
  · intro key htwice v hv hkey
    by_cases hr : Subject.message v.messageId = rowOf twice u
    · rw [hr, Function.update_self]
      rfl
    · rw [Function.update_of_ne hr]
      exact h.both key htwice v hv hkey

end Rows

section Indexes

variable {twice : String → Bool} {us : Set DisplayMessage} {u : DisplayMessage}
  {s : MergeState} {rows : Subject → Option DisplayMessage} {o x : MessageObject}

/-- The indexes of the loop are about the rows. -/
structure RowIndexes (twice : String → Bool) (s : MergeState)
    (rows : Subject → Option DisplayMessage) : Prop where
  keyed : ∀ id o, s.messages.get id = some o → o.message.messageId = id
  shown : ∀ r m, rows r = some m → ∃ o, Live s o ∧ o.message = m
  listed : ∀ o, Live s o → rows (rowOf twice o.message) = some o.message
  known : ∀ key o, s.commands.get key = some o → Live s o ∧ commandKey o.message = some key
  reached : ∀ o key, Live s o → commandKey o.message = some key →
    (s.commands.get key).isSome

theorem RowIndexes.live (h : RowIndexes twice s rows) {id : String}
    (hget : s.messages.get id = some o) : Live s o := by
  unfold Live
  rw [h.keyed id o hget]
  exact hget

/-- A row is one object. -/
theorem RowIndexes.object_eq (h : RowIndexes twice s rows) (ho : Live s o) (hx : Live s x)
    (hrow : rowOf twice o.message = rowOf twice x.message) : o = x := by
  have hmessage : o.message = x.message := by
    have ho' := h.listed o ho
    rw [hrow, h.listed x hx] at ho'
    exact (Option.some.inj ho').symm
  unfold Live at ho hx
  rw [hmessage, hx] at ho
  exact (Option.some.inj ho).symm

variable (hus : IdentityConsistent us)

include hus in
/-- The loop finds the row an update is about. -/
theorem RowIndexes.priorOf (h : RowIndexes twice s rows) (hrows : RowsFit twice us rows)
    (hu : u ∈ us) :
    match rows (rowOf twice u) with
    | none => priorOf s u = none
    | some m => ∃ o, priorOf s u = some o ∧ Live s o ∧ o.message = m := by
  unfold Client.priorOf
  cases hget : s.messages.get u.messageId with
  | some o =>
      have ho := h.live hget
      have hfits := hrows.fits _ _ (h.listed o ho)
      obtain ⟨-, hrow⟩ := hfits.row_of_id hus hu (h.keyed _ o hget)
      rw [← hrow, h.listed o ho]
      exact ⟨o, rfl, ho, rfl⟩
  | none =>
      -- no row has the id of the update
      have hno : ∀ m, rows (.message u.messageId) ≠ some m := by
        intro m hm
        obtain ⟨o, ho, rfl⟩ := h.shown _ m hm
        have hrow := hrows.row _ _ hm
        have hid : o.message.messageId = u.messageId := by
          unfold rowOf at hrow
          split at hrow
          · split_ifs at hrow
            exact Subject.message.inj hrow
          · exact Subject.message.inj hrow
        unfold Live at ho
        rw [hid, hget] at ho
        cases ho
      have hnone : rows (.message u.messageId) = none :=
        Option.eq_none_iff_forall_ne_some.mpr hno
      cases hkey : commandKey u with
      | none =>
          have hrow : rowOf twice u = .message u.messageId := by
            unfold rowOf
            rw [hkey]
          rw [hrow, hnone]
          simp
      | some key =>
          have htwice : twice key = false := by
            by_contra htrue
            rw [Bool.not_eq_false] at htrue
            have hboth := hrows.both key htrue u hu hkey
            rw [hnone] at hboth
            cases hboth
          have hrow : rowOf twice u = .command key := by
            unfold rowOf
            rw [hkey]
            simp [htwice]
          rw [hrow]
          cases hcommand : s.commands.get key with
          | none =>
              have hempty : rows (.command key) = none := by
                refine Option.eq_none_iff_forall_ne_some.mpr fun m hm => ?_
                obtain ⟨o, ho, rfl⟩ := h.shown _ m hm
                have hfits := hrows.fits _ _ hm
                have hokey := (hfits.of_row hus hu ((hrows.row _ _ hm).trans hrow.symm)).1
                have hreached := h.reached o key ho (hokey.trans hkey)
                rw [hcommand] at hreached
                cases hreached
              rw [hempty]
              simp [hcommand]
          | some o =>
              obtain ⟨ho, hokey⟩ := h.known key o hcommand
              have horow : rowOf twice o.message = .command key := by
                unfold rowOf
                rw [hokey]
                simp [htwice]
              have hlisted := h.listed o ho
              rw [horow] at hlisted
              rw [hlisted]
              have hcond : o.message.status.get = some .pending ∨
                  u.status.get = some .pending := by
                by_contra hboth
                obtain ⟨hop, hup⟩ := not_or.mp hboth
                -- two rows of the server would have one id
                obtain ⟨w, hw, hwid, hwkey, hwstate⟩ := (hrows.fits _ _ hlisted).source
                have hwp : ¬isPending w := fun hp =>
                  hop ((hwstate (hokey ▸ rfl)).1.mp hp)
                have hid := hus.server w hw u hu hwp hup (by simp [hwkey, hokey])
                  (by rw [hwkey, hokey, hkey])
                have ho' : s.messages.get o.message.messageId = some o := ho
                rw [← hwid, hid, hget] at ho'
                cases ho'
              refine ⟨o, ?_, ho, rfl⟩
              simp [hcommand, hcond]

include hus in
/-- Writing over the row an update is about. -/
theorem RowIndexes.write (h : RowIndexes twice s rows) (hrows : RowsFit twice us rows)
    (hu : u ∈ us) {prior : Option MessageObject}
    (hprior : ∀ o, prior = some o → Live s o ∧ rowOf twice o.message = rowOf twice u)
    (hnone : prior = none → rows (rowOf twice u) = none)
    (hkey : commandKey (nextMessage (prior.map MessageObject.message) u) = commandKey u) :
    RowIndexes twice (writeRow s prior u) (Function.update rows (rowOf twice u)
      (some (nextMessage (prior.map MessageObject.message) u))) := by
  have hid : (writtenRow s prior u).message.messageId = u.messageId := nextMessage_messageId _
  have hwritten : rowOf twice (writtenRow s prior u).message = rowOf twice u :=
    rowOf_congr hkey hid
  have hmessages : ∀ id, (writeRow s prior u).messages.get id =
      if u.messageId = id then some (writtenRow s prior u)
      else if prior.any (fun o => decide (o.message.messageId = id)) then none
      else s.messages.get id := by
    intro id
    have hset : (writeRow s prior u).messages.get id =
        if u.messageId = id then some (writtenRow s prior u)
        else (prior.elim s.messages fun prior =>
          s.messages.delete prior.message.messageId).get id := by
      rw [← Dict.get_set]
      cases prior <;> rfl
    rw [hset]
    cases prior with
    | none => simp
    | some o => simp [Dict.get_delete]
  -- the live objects are the written one and those of the other rows
  have hlive : ∀ x, Live (writeRow s prior u) x ↔
      x = writtenRow s prior u ∨ (Live s x ∧ rowOf twice x.message ≠ rowOf twice u) := by
    intro x
    unfold Live
    rw [hmessages]
    constructor
    · intro hx
      split_ifs at hx with h₁ h₂
      · exact Or.inl (Option.some.inj hx).symm
      · have hx' : Live s x := hx
        refine Or.inr ⟨hx', fun hrow => ?_⟩
        cases prior with
        | none =>
            have hlisted := h.listed x hx'
            rw [hrow, hnone rfl] at hlisted
            cases hlisted
        | some o =>
            obtain ⟨ho, horow⟩ := hprior o rfl
            obtain rfl := h.object_eq ho hx' (horow.trans hrow.symm)
            simp at h₂
    · rintro (rfl | ⟨hx, hrow⟩)
      · rw [if_pos hid.symm]
      · have hx' : Live s x := hx
        have hne : u.messageId ≠ x.message.messageId := fun heq =>
          hrow ((hrows.fits _ _ (h.listed x hx')).row_of_id hus hu heq.symm).2
        rw [if_neg hne, if_neg, hx]
        cases prior with
        | none => simp
        | some o =>
            obtain ⟨ho, horow⟩ := hprior o rfl
            simp only [Option.any_some, decide_eq_true_eq]
            intro heq
            have ho' : s.messages.get o.message.messageId = some o := ho
            rw [heq, hx] at ho'
            obtain rfl := Option.some.inj ho'
            exact hrow horow
  have hcommands : ∀ key, (writeRow s prior u).commands.get key =
      if commandKey u = some key then some (writtenRow s prior u) else s.commands.get key := by
    intro key
    have hdrop : ∀ o, prior = some o → commandKey o.message = commandKey u := by
      intro o ho
      obtain ⟨holive, horow⟩ := hprior o ho
      exact ((hrows.fits _ _ (h.listed o holive)).of_row hus hu horow).1
    unfold writeRow writtenRow
    cases prior with
    | none =>
        cases hu : commandKey u with
        | none => simp
        | some k =>
            simp only [Option.some.injEq]
            exact Dict.get_set
    | some o =>
        have hokey := hdrop o rfl
        unfold dropCommand
        cases hu : commandKey u with
        | none => simp [hokey, hu]
        | some k =>
            simp only [hokey, hu, Option.some.injEq]
            rw [Dict.get_set]
            by_cases hk : k = key
            · rw [if_pos hk, if_pos hk]
            · rw [if_neg hk, if_neg hk]
              split_ifs
              · rw [Dict.get_delete, if_neg hk]
              · rfl
  constructor
  · intro id x hx
    rw [hmessages] at hx
    split_ifs at hx with h₁
    · rw [← Option.some.inj hx, hid]
      exact h₁
    · exact h.keyed id x hx
  · intro r m hm
    by_cases hr : r = rowOf twice u
    · subst hr
      rw [Function.update_self, Option.some.injEq] at hm
      exact ⟨writtenRow s prior u, (hlive _).mpr (Or.inl rfl), hm⟩
    · rw [Function.update_of_ne hr] at hm
      obtain ⟨o, ho, rfl⟩ := h.shown r m hm
      have hrow := hrows.row r _ hm
      exact ⟨o, (hlive o).mpr (Or.inr ⟨ho, hrow ▸ hr⟩), rfl⟩
  · intro x hx
    rcases (hlive x).mp hx with rfl | ⟨hx, hne⟩
    · rw [hwritten, Function.update_self]
      rfl
    · rw [Function.update_of_ne hne]
      exact h.listed x hx
  · intro key x hx
    rw [hcommands] at hx
    split_ifs at hx with hk
    · rw [← Option.some.inj hx]
      exact ⟨(hlive _).mpr (Or.inl rfl), hkey.trans hk⟩
    · obtain ⟨hxlive, hxkey⟩ := h.known key x hx
      refine ⟨(hlive x).mpr (Or.inr ⟨hxlive, fun hrow => hk ?_⟩), hxkey⟩
      exact ((hrows.fits _ _ (h.listed x hxlive)).of_row hus hu hrow).1.symm.trans hxkey
  · intro x key hx hxkey
    rw [hcommands]
    split_ifs with hk
    · rfl
    · rcases (hlive x).mp hx with rfl | ⟨hx, -⟩
      · exact absurd (hkey.symm.trans hxkey) hk
      · exact h.reached x key hx hxkey

variable (hmix : Unmixed us)

include hus hmix in
/-- One round of the loop changes the row its update is about, and no other. -/
theorem RowIndexes.step (h : RowIndexes twice s rows) (hrows : RowsFit twice us rows)
    (hu : u ∈ us) :
    RowIndexes twice (mergeStep s u) (Function.update rows (rowOf twice u)
        (some (absorbUpdate (rows (rowOf twice u)) u))) ∧
      (mergeStep s u = s ∨ (mergeStep s u).changed = true) := by
  have hfound := h.priorOf hus hrows hu
  cases hprior : rows (rowOf twice u) with
  | none =>
      rw [hprior] at hfound
      have hstep : mergeStep s u = writeRow s none u := by
        unfold mergeStep
        simp only [hfound, Option.any_none, Bool.false_and, Bool.false_eq_true, if_false]
        rfl
      rw [hstep]
      refine ⟨?_, Or.inr rfl⟩
      exact h.write hus hrows hu (by simp) (fun _ => hprior) (nextMessage_none u).2.1
  | some m =>
      rw [hprior] at hfound
      obtain ⟨o, hpriorOf, ho, rfl⟩ := hfound
      have hrow := hrows.row _ _ hprior
      have hsame : Function.update rows (rowOf twice u) (some o.message) = rows :=
        Function.update_eq_self_iff.mpr hprior.symm
      by_cases hskip : isSettled o.message = true ∧ isPending u
      · have hstep : mergeStep s u = s := by
          unfold mergeStep
          have hp : u.status.get = some .pending := hskip.2
          have hany : (o.message.status.get.any fun status => decide (status ≠ .pending)) = true :=
            hskip.1
          simp only [hpriorOf, Option.any_some, hany, hp, decide_true, Bool.and_self, if_true]
        have habsorb : absorbUpdate (some o.message) u = o.message := if_pos hskip
        rw [hstep, habsorb, hsame]
        exact ⟨h, Or.inl rfl⟩
      · have hcond : ((o.message.status.get.any fun status => decide (status ≠ .pending)) &&
            decide (u.status.get = some .pending)) = false := by
          by_contra hno
          rw [Bool.not_eq_false, Bool.and_eq_true, decide_eq_true_eq] at hno
          exact hskip hno
        by_cases hequal : equalMessages o.message (nextMessage (some o.message) u) = true
        · have hstep : mergeStep s u = s := by
            unfold mergeStep
            simp only [hpriorOf, Option.any_some, hcond, Option.map_some, hequal, if_true,
              Bool.false_eq_true, if_false]
          have habsorb : absorbUpdate (some o.message) u = o.message := by
            simp only [absorbUpdate, absorbRow, if_neg hskip, if_pos hequal]
          rw [hstep, habsorb, hsame]
          exact ⟨h, Or.inl rfl⟩
        · have hstep : mergeStep s u = writeRow s (some o) u := by
            unfold mergeStep
            simp only [hpriorOf, Option.any_some, hcond, Option.map_some, hequal, if_false,
              Bool.false_eq_true]
            rfl
          have habsorb : absorbUpdate (some o.message) u = nextMessage (some o.message) u := by
            simp only [absorbUpdate, absorbRow, if_neg hskip, if_neg hequal]
          rw [hstep, habsorb]
          refine ⟨h.write hus hrows hu ?_ (by simp) ?_, Or.inr rfl⟩
          · intro x hx
            obtain rfl := Option.some.inj hx
            exact ⟨ho, hrow⟩
          · exact (hrows.fits _ _ hprior).commandKey_next hus hmix hu hrow

/-- The rows after the loop. -/
def absorbAll (twice : String → Bool) (incoming : List DisplayMessage)
    (rows : Subject → Option DisplayMessage) (r : Subject) : Option DisplayMessage :=
  (incoming.filter fun u => decide (rowOf twice u = r)).foldl
    (fun prior u => some (absorbUpdate prior u)) (rows r)

theorem absorbAll_cons (incoming : List DisplayMessage) :
    absorbAll twice (u :: incoming) rows =
      absorbAll twice incoming (Function.update rows (rowOf twice u)
        (some (absorbUpdate (rows (rowOf twice u)) u))) := by
  funext r
  unfold absorbAll
  by_cases hr : rowOf twice u = r
  · subst hr
    rw [List.filter_cons_of_pos (by simp), List.foldl_cons, Function.update_self]
  · rw [List.filter_cons_of_neg (by simpa using hr), Function.update_of_ne (Ne.symm hr)]

include hus hmix in
/-- The whole loop changes each row by the updates about it, in their order. -/
theorem RowIndexes.foldl {incoming : List DisplayMessage} (h : RowIndexes twice s rows)
    (hrows : RowsFit twice us rows) (hincoming : ∀ u ∈ incoming, u ∈ us) :
    RowIndexes twice (incoming.foldl mergeStep s) (absorbAll twice incoming rows) ∧
      RowsFit twice us (absorbAll twice incoming rows) ∧
      (incoming.foldl mergeStep s = s ∨ (incoming.foldl mergeStep s).changed = true) := by
  induction incoming generalizing s rows with
  | nil => exact ⟨h, hrows, Or.inl rfl⟩
  | cons u rest ih =>
      have hu : u ∈ us := hincoming u List.mem_cons_self
      obtain ⟨hstep, hchanged⟩ := h.step hus hmix hrows hu
      obtain ⟨hloop, hfit, hflag⟩ := ih hstep (hrows.step hus hmix hu)
        fun v hv => hincoming v (List.mem_cons_of_mem _ hv)
      rw [absorbAll_cons, List.foldl_cons]
      refine ⟨hloop, hfit, ?_⟩
      rcases hflag with hsame | hflag
      · rw [hsame]
        exact hchanged
      · exact Or.inr hflag

end Indexes

section Lists

variable {twice : String → Bool} {us : Set DisplayMessage} {list incoming : List DisplayMessage}
  {rows : Subject → Option DisplayMessage} {s : MergeState}

/-- The list has exactly these rows, each id once. -/
structure Lists (list : List DisplayMessage) (rows : Subject → Option DisplayMessage) : Prop where
  nodup : (list.map DisplayMessage.messageId).Nodup
  mem : ∀ m, m ∈ list ↔ ∃ r, rows r = some m

theorem Lists.at_row (h : Lists list rows) (hrows : RowsFit twice us rows) {m : DisplayMessage}
    (hm : m ∈ list) : rows (rowOf twice m) = some m := by
  obtain ⟨r, hr⟩ := (h.mem m).mp hm
  rw [hrows.row r m hr]
  exact hr

theorem RowIndexes.mem_rowsOf (h : RowIndexes twice s rows) {m : DisplayMessage} :
    m ∈ rowsOf s ↔ ∃ r, rows r = some m := by
  constructor
  · rintro ⟨o, ho, rfl⟩
    exact ⟨_, h.listed o ho⟩
  · rintro ⟨r, hr⟩
    exact h.shown r m hr

theorem live_mergeStart (hnodup : (list.map DisplayMessage.messageId).Nodup)
    {o : MessageObject} : Live (mergeStart list) o ↔ o ∈ objectsOf list := by
  unfold Live
  rw [mergeStart_messages hnodup]
  simp

theorem rowsOf_mergeStart (hnodup : (list.map DisplayMessage.messageId).Nodup)
    {m : DisplayMessage} : m ∈ rowsOf (mergeStart list) ↔ m ∈ list := by
  unfold rowsOf
  simp only [live_mergeStart hnodup, Set.mem_ofPred_eq]
  exact mem_objectsOf.symm

/-- Before the loop the indexes are about the rows of the list. -/
theorem Lists.start (h : Lists list rows) (hrows : RowsFit twice us rows) :
    RowIndexes twice (mergeStart list) rows where
  keyed id o ho := ((mergeStart_messages h.nodup).mp ho).2
  shown r m hm := (rowsOf_mergeStart h.nodup).mpr ((h.mem m).mpr ⟨r, hm⟩)
  listed o ho :=
    h.at_row hrows (mem_objectsOf.mpr ⟨o, (live_mergeStart h.nodup).mp ho, rfl⟩)
  known key o ho := by
    obtain ⟨x, hx, heq⟩ := List.mem_filterMap.mp (Dict.mem_of_get_ofList ho)
    obtain ⟨k, hk, hpair⟩ := Option.map_eq_some_iff.mp heq
    obtain ⟨hkey, rfl⟩ := Prod.ext_iff.mp hpair
    exact ⟨(live_mergeStart h.nodup).mpr hx, hk.trans (congrArg some hkey)⟩
  reached o key ho hkey := by
    refine Dict.get_ofList_isSome (List.mem_map.mpr ⟨(key, o), ?_, rfl⟩)
    refine List.mem_filterMap.mpr ⟨o, (live_mergeStart h.nodup).mp ho, ?_⟩
    rw [hkey]
    rfl

variable (hus : IdentityConsistent us) (hmix : Unmixed us)

include hus hmix in
/-- A batch is merged row by row. -/
theorem Lists.merge (h : Lists list rows) (hrows : RowsFit twice us rows)
    (hincoming : ∀ u ∈ incoming, u ∈ us) :
    Lists (mergeMessages list incoming) (absorbAll twice incoming rows) ∧
      RowsFit twice us (absorbAll twice incoming rows) := by
  obtain ⟨hloop, hfit, hflag⟩ :=
    (h.start hrows).foldl hus hmix hrows hincoming
  refine ⟨?_, hfit⟩
  unfold mergeMessages
  split_ifs with hempty
  · subst hempty
    exact h
  · simp only
    split_ifs with hchanged
    · obtain ⟨hnodup, hmem⟩ := sortedValues hloop.keyed
      exact ⟨hnodup, fun m => (hmem m).trans hloop.mem_rowsOf⟩
    · rcases hflag with hsame | hflag
      · rw [hsame] at hloop
        exact ⟨h.nodup, fun m => (rowsOf_mergeStart h.nodup).symm.trans hloop.mem_rowsOf⟩
      · exact absurd hflag hchanged

/-- The commands that have two rows in the list. -/
def listedTwice (list : List DisplayMessage) (key : String) : Bool :=
  list.any fun a => list.any fun b =>
    decide (a.messageId ≠ b.messageId ∧ commandKey a = some key ∧ commandKey b = some key)

theorem listedTwice_iff {key : String} :
    listedTwice list key = true ↔ ∃ a ∈ list, ∃ b ∈ list, a.messageId ≠ b.messageId ∧
      commandKey a = some key ∧ commandKey b = some key := by
  simp [listedTwice]

/-- The rows of a list. -/
def rowsIn (list : List DisplayMessage) (r : Subject) : Option DisplayMessage :=
  list.find? fun m => decide (rowOf (listedTwice list) m = r)

include hus in
/-- Two messages of a list are two rows. -/
theorem rowOf_injective (hlist : ∀ m ∈ list, m ∈ us) {a b : DisplayMessage} (ha : a ∈ list)
    (hb : b ∈ list) (hrow : rowOf (listedTwice list) a = rowOf (listedTwice list) b) :
    a.messageId = b.messageId := by
  have hfits : Fits (listedTwice list) us a := fits_self (hlist a ha)
  obtain ⟨hkey, hid | ⟨key, hsome, htwice⟩⟩ := hfits.of_row hus (hlist b hb) hrow
  · exact hid
  · by_contra hne
    have htrue := listedTwice_iff.mpr ⟨a, ha, b, hb, hne, hkey.trans hsome, hsome⟩
    rw [htwice] at htrue
    cases htrue

include hus in
/-- Of a command with two rows every update is under the id of one of them. -/
theorem listed_of_twice (hlist : ∀ m ∈ list, m ∈ us) {key : String}
    (htwice : listedTwice list key = true) {u : DisplayMessage} (hu : u ∈ us)
    (hkey : commandKey u = some key) :
    ∃ m ∈ list, m.messageId = u.messageId ∧ commandKey m = some key := by
  obtain ⟨a, ha, b, hb, hne, hakey, hbkey⟩ := listedTwice_iff.mp htwice
  have hsame : ∀ v ∈ us, ∀ w ∈ us, commandKey v = some key → commandKey w = some key →
      (isPending v ↔ isPending w) → v.messageId = w.messageId := by
    intro v hv w hw hvkey hwkey hiff
    by_cases hp : isPending v
    · exact hus.optimistic v hv w hw hp (hiff.mp hp) (by simp [hvkey]) (hvkey.trans hwkey.symm)
    · exact hus.server v hv w hw hp (fun h => hp (hiff.mpr h)) (by simp [hvkey])
        (hvkey.trans hwkey.symm)
  by_cases hau : isPending a ↔ isPending u
  · exact ⟨a, ha, hsame a (hlist a ha) u hu hakey hkey hau, hakey⟩
  · have hbu : isPending b ↔ isPending u := by
      have hab : ¬(isPending a ↔ isPending b) := fun hab =>
        hne (hsame a (hlist a ha) b (hlist b hb) hakey hbkey hab)
      tauto
    exact ⟨b, hb, hsame b (hlist b hb) u hu hbkey hkey hbu, hbkey⟩

include hus in
theorem lists_rowsIn (hnodup : (list.map DisplayMessage.messageId).Nodup)
    (hlist : ∀ m ∈ list, m ∈ us) :
    Lists list (rowsIn list) ∧ RowsFit (listedTwice list) us (rowsIn list) := by
  have hfind : ∀ m ∈ list, rowsIn list (rowOf (listedTwice list) m) = some m := by
    intro m hm
    cases hfound : rowsIn list (rowOf (listedTwice list) m) with
    | none =>
        have hno := List.find?_eq_none.mp hfound m hm
        simp at hno
    | some n =>
        have hn : n ∈ list := List.mem_of_find?_eq_some hfound
        have hrow : rowOf (listedTwice list) n = rowOf (listedTwice list) m := by
          simpa using List.find?_some hfound
        rw [List.inj_on_of_nodup_map hnodup hn hm (rowOf_injective hus hlist hn hm hrow)]
  refine ⟨⟨hnodup, fun m => ⟨fun hm => ⟨_, hfind m hm⟩, ?_⟩⟩, ?_, ?_, ?_⟩
  · rintro ⟨r, hr⟩
    exact List.mem_of_find?_eq_some hr
  · intro r m hr
    simpa using List.find?_some hr
  · exact fun r m hr => fits_self (hlist m (List.mem_of_find?_eq_some hr))
  · intro key htwice u hu hkey
    obtain ⟨m, hm, hid, hmkey⟩ := listed_of_twice hus hlist htwice hu hkey
    have hrow : rowOf (listedTwice list) m = .message u.messageId := by
      unfold rowOf
      rw [hmkey]
      simp [htwice, hid]
    rw [← hrow, hfind m hm]
    rfl

end Lists

end Client
end SecureMessenger

import SecureMessenger.Server.ChatMembers
import SecureMessenger.Server.Mailboxes
import SecureMessenger.Server.Requests

/-!
# What the mailbox answers

A page of the mailbox and a receipt are read from a state of the database after
the request has arrived.  Other transactions may commit between the query and
the response, so the response need not describe the present state; but whatever
they are, they only let the mailboxes grow.
-/

namespace SecureMessenger
namespace Server

open Lib
open Lib.Discipline

/-! ## The mailboxes -/

/-- An update of envelopes has the same keys before and after. -/
theorem updateEnvelopes_follows {f : Envelope → Envelope} (hf : KeepsKeys f) (p : Envelope → Bool)
    (db : Db) : Follows (db.updateEnvelopes p f) db :=
  { Follows.refl db with
    envelopes := by
      intro e he
      obtain ⟨e₀, he₀, rfl⟩ := List.mem_map.mp he
      have hg := hf.ite p
      exact ⟨e₀, he₀, (hg.id e₀).symm, (hg.message_id e₀).symm, (hg.device e₀).symm,
        (hg.seq e₀).symm⟩ }

/-- A state the server has been in since the request arrived. -/
structure SeenSince (began seen db : Db) : Prop where
  wf : Wf seen
  since : Follows began seen
  upTo : Follows seen db

theorem SeenSince.grow {began seen db db' : Db} (h : SeenSince began seen db)
    (hf : Follows db db') : SeenSince began seen db' :=
  ⟨h.wf, h.since, h.upTo.trans hf⟩

/-- What the response to a request about a mailbox says. -/
def Reported (began db : Db) : Op → Result → Prop
  | .mailbox principal after_seq limit, .page p => ∃ seen, SeenSince began seen db ∧
      p = mailboxPage (seen.mailboxRows principal.device_id after_seq limit) after_seq limit
  | .acknowledge principal envelope_id, .envelope e => ∃ seen row now,
      SeenSince began seen db ∧ row ∈ seen.envelopes ∧ row.id = envelope_id ∧
        row.recipient_device_id = principal.device_id ∧ e = Db.acknowledged now row
  | _, _ => True

theorem Reported.grow {began db db' : Db} {op : Op} {r : Result} (h : Reported began db op r)
    (hf : Follows db db') : Reported began db' op r := by
  unfold Reported at h ⊢
  split at h
  · obtain ⟨seen, hseen, hp⟩ := h
    exact ⟨seen, hseen.grow hf, hp⟩
  · obtain ⟨seen, row, now, hseen, hrest⟩ := h
    exact ⟨seen, row, now, hseen.grow hf, hrest⟩
  · trivial

/-! ## The discipline -/

section Discipline

variable (sec : Security)

/-- Every response reports a state of the mailboxes. -/
structure Reporting (w : World) : Prop where
  inv : Inv sec w
  reported : ∀ t op r, w.op t = some op → w.outcome t = some (.ok r) →
    Reported (w.began t) w.db op r

/-- The mailboxes grow. -/
structure MailboxesGrow (w w' : World) : Prop where
  grows : World.Grows w w'
  follows : Follows w.db w'.db
  starts : ∀ t op, w.op t = none → w'.op t = some op → Follows w.db (w'.began t)

variable {sec}

theorem MailboxesGrow.refl (w : World) : MailboxesGrow w w :=
  ⟨World.Grows.refl w, Follows.refl w.db, fun t op hnone hop => by
    rw [hnone] at hop
    cases hop⟩

theorem MailboxesGrow.trans {w₁ w₂ w₃ : World} (h : MailboxesGrow w₁ w₂)
    (h' : MailboxesGrow w₂ w₃) : MailboxesGrow w₁ w₃ where
  grows := h.grows.trans h'.grows
  follows := h.follows.trans h'.follows
  starts := by
    intro t op hnone hop
    cases h₂ : w₂.op t with
    | none => exact h.follows.trans (h'.starts t op h₂ hop)
    | some op₂ =>
        rw [(h'.grows.started t op₂ h₂).2]
        exact h.starts t op₂ hnone h₂

variable (sec) in
/-- The discipline of the server, with what the responses report. -/
def reportingDiscipline : Discipline World where
  inv := Reporting sec
  grow := MailboxesGrow
  own := World.Own sec
  idle := World.Idle
  grow_refl := MailboxesGrow.refl
  grow_trans := MailboxesGrow.trans
  own_refl := World.Own.refl sec
  own_trans := World.Own.trans
  idle_drift := fun h hg ho => (serverDiscipline sec).idle_drift h hg.grows ho

/-- Calls other than the recording of an outcome. -/
def Unfinished : Sql → Prop
  | .finish _ => False
  | _ => True

variable {t : Tid} {w w' : World}

theorem drift_of_reporting (hd : (reportingDiscipline sec).Drift t w w') :
    (serverDiscipline sec).Drift t w w' :=
  ⟨hd.grow.grows, hd.own, hd.inv.inv⟩

theorem outcome_grantFree (t : Tid) (ids : List UUID) : ∀ w : World,
    (w.grantFree t ids).outcome = w.outcome := by
  induction ids with
  | nil => exact fun _ => rfl
  | cons id ids ih => exact fun w => ih (w.grant t (.envelope id) .update)

/-- Outcomes are recorded by one call only. -/
theorem exec_outcome {c : Sql} {a : c.Answer} (hc : Unfinished c) (h : World.exec sec t c w a w') :
    w'.outcome = w.outcome := by
  cases c with
  | query f =>
      obtain ⟨-, rfl⟩ := h
      rfl
  | lock r mode =>
      rcases h with ⟨-, -, rfl⟩ | ⟨-, rfl⟩
      · rfl
      · rfl
  | lockFree f =>
      obtain ⟨locked, -, -, -, rfl⟩ := h
      exact outcome_grantFree t _ w
  | commit =>
      rcases h with ⟨-, -, rfl⟩ | ⟨-, -, rfl⟩ | ⟨-, rfl⟩
      · rfl
      · rfl
      · rfl
  | flush =>
      obtain ⟨rfl, -⟩ := h
      rfl
  | token =>
      obtain ⟨-, -, rfl⟩ := h
      rfl
  | finish o => exact hc.elim
  | write f => exact h ▸ rfl
  | rollback => exact h ▸ rfl
  | now => exact h ▸ rfl
  | uuid4 => exact h ▸ rfl
  | publish id => exact h ▸ rfl

/-- A call that suits the server lets the mailboxes grow. -/
theorem mailboxesGrow_of_keeps {c : Sql} {a : c.Answer} (hx : World.exec sec t c w a w')
    (hk : (serverDiscipline sec).Keeps t w w') : MailboxesGrow w w' := by
  refine ⟨hk.grow, ?_, fun u op hnone hop => ?_⟩
  · rcases exec_commits hx with ⟨hdb, -⟩ | hhistory
    · rw [hdb]
      exact Follows.refl _
    · have hlast : (⟨t, w.db, w'.db⟩ : Commit) ∈ w'.history := hhistory ▸ List.mem_cons_self
      obtain ⟨op, -, heffect, hwf, -⟩ := hk.inv.commits _ hlast
      exact heffect.follows hwf
  · rw [congrFun (exec_began hx).1 u, hnone] at hop
    cases hop

/-- It suits what the responses report, if the response of the thread does. -/
theorem keeps_reporting {c : Sql} {a : c.Answer} (hx : World.exec sec t c w a w')
    (hr : Reporting sec w) (hk : (serverDiscipline sec).Keeps t w w')
    (hown : ∀ op r, w'.op t = some op → w'.outcome t = some (.ok r) →
      Reported (w'.began t) w'.db op r) : (reportingDiscipline sec).Keeps t w w' := by
  have hgrow := mailboxesGrow_of_keeps hx hk
  refine ⟨⟨hk.inv, fun u op r hop hout => ?_⟩, hgrow, hk.own⟩
  by_cases hut : u = t
  · subst hut
    exact hown op r hop hout
  · have ho := hk.own u hut
    rw [ho.op] at hop
    rw [ho.outcome] at hout
    rw [ho.began]
    exact (hr.reported u op r hop hout).grow hgrow.follows

/-- What lasts while the mailboxes grow. -/
def Lasting (t : Tid) (K : World → Prop) : Prop :=
  ∀ w w', K w → w'.began t = w.began t → Follows w.db w'.db → K w'

theorem stricter_of_lasting {K : World → Prop} (hK : Lasting t K) :
    Stricter (World.exec sec) (serverDiscipline sec) (reportingDiscipline sec) t Unfinished K where
  inv _ h := h.inv
  drift _ _ := drift_of_reporting
  stable w w' hk hd := hK w w' hk hd.own.began hd.grow.follows
  keeps := by
    intro c w a w' hc hr hk hx hkeeps
    obtain ⟨hop, hbegan⟩ := exec_began hx
    have hf := (mailboxesGrow_of_keeps hx hkeeps).follows
    refine ⟨keeps_reporting hx hr hkeeps fun op r hop' hout => ?_,
      hK w w' hk (congrFun hbegan t) hf⟩
    rw [hop] at hop'
    rw [exec_outcome hc hx] at hout
    rw [hbegan]
    exact (hr.reported t op r hop' hout).grow hf

/-- A request that says nothing of the mailboxes. -/
theorem stricter_of_silent {op : Op} (hop : ∀ began db r, Reported began db op r) :
    Stricter (World.exec sec) (serverDiscipline sec) (reportingDiscipline sec) t (fun _ => True)
      fun w => w.op t = some op where
  inv _ h := h.inv
  drift _ _ := drift_of_reporting
  stable w w' hw hd := hd.own.op.trans hw
  keeps := by
    intro c w a w' _ hr hw hx hkeeps
    have hop' : w'.op t = some op := (congrFun (exec_began hx).1 t).trans hw
    refine ⟨keeps_reporting hx hr hkeeps fun op' r h _ => ?_, hop'⟩
    obtain rfl : op = op' := Option.some.inj (hop'.symm.trans h)
    exact hop _ _ r

end Discipline

/-! ## The requests -/

section Requests

variable {sec : Security} {t : Tid} {w : World} {op : Op} {α β : Type}

/-- Safe programs whose responses report the mailboxes. -/
abbrev Reports (sec : Security) (t : Tid) {α : Type} (p : Session α) (Q : α → World → Prop)
    (Z : PyError → World → Prop) (w : World) : Prop :=
  (reportingDiscipline sec).Safe (World.exec sec) t p Q Z w

/-- A part of a transaction, followed by the rest. -/
theorem reports_bind {p : Session α} {f : α → Session β} {Q : α → World → Prop}
    {Q' : β → World → Prop} {Z Z' : PyError → World → Prop} {K : World → Prop}
    (hK : Lasting t K) (hp : Prog.Calls Unfinished p) (h : Tx sec t p Q Z w) (hk : K w)
    (hq : ∀ a w', Q a w' → K w' → Reports sec t (f a) Q' Z' w') (hz : ∀ x w', Z x w' → Z' x w') :
    Reports sec t (p >>= f) Q' Z' w :=
  (h.stricter (stricter_of_lasting hK) hp hk).mono (fun a w' h => hq a w' h.1 h.2)
    (fun x w' h => hz x w' h.1) |>.bind

theorem calls_lockAll (mode : LockMode) (rs : List Resource) :
    Prog.Calls Unfinished (lockAll mode rs) := by
  induction rs with
  | nil => trivial
  | cons r rs ih =>
      refine Prog.Calls.bind ⟨trivial, fun a => ?_⟩ fun _ => ih
      cases a <;> trivial

theorem calls_executeUpdate (p : Envelope → Bool) (f : Envelope → Envelope) :
    Prog.Calls Unfinished (executeUpdate p f) := by
  refine ⟨trivial, fun ids => ?_⟩
  refine Prog.Calls.bind (p := lockAll _ _) (calls_lockAll _ _) fun _ => ?_
  exact ⟨trivial, fun _ => ⟨trivial, fun _ => trivial⟩⟩

theorem calls_selectLocked {key : α → Resource} {mode : LockMode} {f : Db → Option α} :
    Prog.Calls Unfinished (selectLocked key mode f) := by
  refine ⟨trivial, fun (o : Option α) => ?_⟩
  cases o with
  | none => trivial
  | some a =>
      refine ⟨trivial, fun r => ?_⟩
      cases r with
      | error x => trivial
      | ok u => exact ⟨trivial, fun _ => trivial⟩

theorem calls_publishAll (ids : List UUID) : Prog.Calls Unfinished (publishAll ids) := by
  induction ids with
  | nil => trivial
  | cons id ids ih => exact ⟨trivial, fun _ => ih⟩

theorem calls_commit : Prog.Calls Unfinished commit := by
  refine ⟨trivial, fun r => ?_⟩
  cases r <;> trivial

/-- What a part of a transaction leaves to the rest: nothing has been written
outside of it. -/
def Open (sec : Security) (t : Tid) (f : Db → Db) (w w' : World) : Prop :=
  Since sec t w w' ∧ w'.pending t = f

theorem lasting_follows (first : Db) : Lasting t fun w => Follows first w.db :=
  fun _ _ h _ hf => h.trans hf

theorem lasting_seen (seen : Db) : Lasting t fun w => SeenSince (w.began t) seen w.db := by
  intro w w' h hbegan hf
  show SeenSince (w'.began t) seen w'.db
  rw [hbegan]
  exact h.grow hf

theorem lasting_reported (op : Op) (r : Result) :
    Lasting t fun w => Reported (w.began t) w.db op r := by
  intro w w' h hbegan hf
  show Reported (w'.began t) w'.db op r
  rw [hbegan]
  exact h.grow hf

/-- **A page** is read from a state since the request arrived. -/
theorem reports_mailbox {principal : Principal} {after_seq limit : Nat}
    (hb : Begun sec t (.mailbox principal after_seq limit) w)
    (hbegan : Follows (w.began t) w.db) :
    Reports sec t (mailbox principal after_seq limit)
      (fun p w' => Ended sec t (.mailbox principal after_seq limit) (.ok (.page p)) w' ∧
        Reported (w'.began t) w'.db (.mailbox principal after_seq limit) (.page p))
      (fun x w' => Ended sec t (.mailbox principal after_seq limit) (.error x) w') w := by
  have hz : ∀ w', Since sec t w w' →
      Ended sec t (.mailbox principal after_seq limit) (.error .database) w' :=
    fun w' hs => hb.ended hs fun _ _ _ _ => trivial
  unfold mailbox purge_expired_for_device
  refine reports_bind (lasting_follows (w.began t)) (Q := fun _ => Open sec t id w)
    (Z := fun _ _ => False) ⟨trivial, fun _ => trivial⟩
    (safe_now fun _ w₁ hs₁ hp₁ => ⟨hs₁, hp₁.trans hb.pending⟩) hbegan ?_ fun _ _ h => h.elim
  rintro now w₁ ⟨hs₁, hp₁⟩ hf₁
  refine reports_bind (lasting_follows (w.began t))
    (Q := fun _ w₂ => ∃ q : Envelope → Bool, (∀ e, q e = true → Db.expired now e = true) ∧
      Open sec t (Db.updateEnvelopes q (Db.purged now)) w w₂)
    (calls_executeUpdate _ _) (safe_executeUpdate (fun n q w₂ hq hs₂ hp₂ => ?_)
      fun w₂ hs₂ => hz w₂ (hs₁.trans hs₂)) hf₁ ?_ fun _ _ h => h
  · refine ⟨q, fun e he => (Bool.and_eq_true_iff.mp (hq e he)).2, hs₁.trans hs₂, ?_⟩
    rw [hp₂, hp₁]
    rfl
  rintro n w₂ ⟨q, hexpired, hs₂, hp₂⟩ hf₂
  refine reports_bind (lasting_follows (w.began t))
    (Q := fun rows w₃ => Open sec t (Db.updateEnvelopes q (Db.purged now)) w w₃ ∧
      rows = Db.mailboxRows principal.device_id after_seq limit
        (w₃.db.updateEnvelopes q (Db.purged now)))
    (Z := fun _ _ => False) ⟨trivial, fun _ => trivial⟩ (safe_query fun w₃ hs₃ hp₃ => ?_) hf₂ ?_
    fun _ _ h => h.elim
  · have hp := hp₃.trans hp₂
    exact ⟨⟨hs₂.trans hs₃, hp⟩, by rw [hp]⟩
  rintro rows w₃ ⟨⟨hs₃, hp₃⟩, hrows⟩ hf₃
  -- the page shows the committed rows, less what this transaction purges
  have hkeys := keepsKeys_purged now
  have hseen : SeenSince (w₃.began t) (w₃.db.updateEnvelopes q (Db.purged now)) w₃.db := by
    have hwf := hs₃.inv.wf
    refine ⟨hwf.updateEnvelopes hkeys q (uniqueKeys_updateEnvelopes hwf.unique hkeys q), ?_,
      updateEnvelopes_follows hkeys q w₃.db⟩
    rw [hs₃.began]
    exact hf₃.trans (follows_updateEnvelopes hkeys q w₃.db)
  refine reports_bind (lasting_seen _) (Q := fun _ w₄ => Ended sec t
      (.mailbox principal after_seq limit) (.ok (.page (mailboxPage rows after_seq limit))) w₄)
    calls_commit (safe_commit_last hb hs₃
      (fun _ _ hop hout hp => committable_purge hop hout rfl hexpired (hp.trans hp₃))
      fun _ _ _ _ _ => trivial) hseen ?_ fun _ _ h => h
  exact fun _ w₄ hended hseen₄ => ⟨hended, _, hseen₄, by rw [hrows]⟩

theorem envelopeFor_spec {device_id envelope_id : UUID} {db : Db} {e : Envelope}
    (h : db.envelopeFor device_id envelope_id = some e) :
    e ∈ db.envelopes ∧ e.id = envelope_id ∧ e.recipient_device_id = device_id := by
  unfold Db.envelopeFor at h
  have hkey := List.find?_some h
  simp only [decide_eq_true_eq] at hkey
  exact ⟨List.mem_of_find?_eq_some h, hkey.1, hkey.2⟩

/-- **A receipt** is of a row that has been in the mailbox since the request
arrived. -/
theorem reports_acknowledge {principal : Principal} {envelope_id : UUID}
    (hb : Begun sec t (.acknowledge principal envelope_id) w)
    (hbegan : Follows (w.began t) w.db) :
    Reports sec t (acknowledge principal envelope_id)
      (fun e w' => Ended sec t (.acknowledge principal envelope_id) (.ok (.envelope e)) w' ∧
        Reported (w'.began t) w'.db (.acknowledge principal envelope_id) (.envelope e))
      (fun x w' => Ended sec t (.acknowledge principal envelope_id) (.error x) w') w := by
  have hz : ∀ x w', Since sec t w w' →
      Ended sec t (.acknowledge principal envelope_id) (.error x) w' :=
    fun x w' hs => hb.ended hs fun _ _ _ _ => trivial
  have hfirst := lasting_follows (t := t) (w.began t)
  unfold acknowledge acknowledge_envelope
  refine reports_bind hfirst (Q := fun _ => Open sec t id w) (Z := fun _ _ => False)
    ⟨trivial, fun _ => trivial⟩
    (safe_now fun _ w₁ hs₁ hp₁ => ⟨hs₁, hp₁.trans hb.pending⟩) hbegan ?_ fun _ _ h => h.elim
  rintro now w₁ ⟨hs₁, hp₁⟩ hf₁
  refine Safe.bind (reports_bind hfirst (Q := fun o w₂ => Open sec t id w w₂ ∧
      ∀ e, o = some e → w₂.db.envelopeFor principal.device_id envelope_id = some e)
    calls_selectLocked (safe_selectLocked (fun w₂ hs₂ hp₂ _ => ?_)
      (fun e w₂ hs₂ hp₂ _ he => ?_) fun w₂ hs₂ => hz _ w₂ (hs₁.trans hs₂)) hf₁ ?_
    fun _ _ h => h)
  · exact ⟨⟨hs₁.trans hs₂, hp₂.trans hp₁⟩, fun e he => by cases he⟩
  · have hp := hp₂.trans hp₁
    rw [hp] at he
    exact ⟨⟨hs₁.trans hs₂, hp⟩, fun e' he' => he'.symm ▸ he⟩
  rintro o w₂ ⟨⟨hs₂, hp₂⟩, ho⟩ hf₂
  cases o with
  | none => exact hz _ w₂ hs₂
  | some e =>
      obtain ⟨hmem, hid, hdevice⟩ := envelopeFor_spec (ho e rfl)
      have hseen : SeenSince (w₂.began t) w₂.db w₂.db := by
        refine ⟨hs₂.inv.wf, ?_, Follows.refl _⟩
        rw [hs₂.began]
        exact hf₂
      have hlast := lasting_seen (t := t) w₂.db
      have hreport : ∀ w' : World, SeenSince (w'.began t) w₂.db w'.db → Reported (w'.began t) w'.db
          (.acknowledge principal envelope_id) (.envelope (Db.acknowledged now e)) :=
        fun w' hw' => ⟨w₂.db, e, now, hw', hmem, hid, hdevice, rfl⟩
      refine reports_bind hlast (Q := fun _ => Open sec t (Db.updateEnvelopes
          (fun e => decide (e.id = envelope_id ∧ e.recipient_device_id = principal.device_id))
          (Db.acknowledged now)) w) (Z := fun _ _ => False) ⟨trivial, fun _ => trivial⟩
        (safe_write fun w₃ hs₃ hp₃ => ?_) hseen ?_ fun _ _ h => h.elim
      · refine ⟨hs₂.trans hs₃, ?_⟩
        rw [hp₃, hp₂]
        rfl
      rintro - w₃ ⟨hs₃, hp₃⟩ hseen₃
      refine reports_bind hlast (Q := fun _ => Open sec t _ w) (Z := fun _ _ => False)
        ⟨trivial, fun _ => trivial⟩ (safe_query fun w₄ hs₄ hp₄ => ⟨hs₃.trans hs₄, hp₄.trans hp₃⟩)
        hseen₃ ?_ fun _ _ h => h.elim
      rintro sender w₄ ⟨hs₄, hp₄⟩ hseen₄
      cases sender with
      | none => exact hz _ w₄ hs₄
      | some sender_user_id =>
          refine reports_bind hlast (Q := fun _ => Open sec t _ w) (Z := fun _ _ => False)
            ⟨trivial, fun _ => trivial⟩
            (safe_query fun w₅ hs₅ hp₅ => ⟨hs₄.trans hs₅, hp₅.trans hp₄⟩) hseen₄ ?_
            fun _ _ h => h.elim
          rintro devices w₅ ⟨hs₅, hp₅⟩ hseen₅
          refine reports_bind hlast (Q := fun _ w₆ => Ended sec t
              (.acknowledge principal envelope_id)
              (.ok (.envelope (Db.acknowledged now e))) w₆) calls_commit
            (safe_commit_last hb hs₅ (fun _ _ hop hout hp => committable_acknowledge hop hout
              (fun e he => of_decide_eq_true he) (hp.trans hp₅)) fun _ _ _ _ _ => trivial)
            hseen₅ ?_ fun _ _ h => h
          rintro - w₆ hended hseen₆
          refine reports_bind hlast (Q := fun _ w₇ => Ended sec t
              (.acknowledge principal envelope_id)
              (.ok (.envelope (Db.acknowledged now e))) w₇) (Z := fun _ _ => False)
            (calls_publishAll _) (safe_publishAll _ hended.inv hended.outcome
              (fun d _ => mayPublish_of_op hended.op (by simp) d)
              fun w₇ hs₇ _ _ => hended.since hs₇) hseen₆ ?_ fun _ _ h => h.elim
          exact fun _ w₇ hended₇ hseen₇ => ⟨hended₇, hreport w₇ hseen₇⟩

/-- After its body a request rolls back and records its outcome. -/
theorem reports_end {o : Except PyError Result} (h : Ended sec t op o w)
    (hok : ∀ r, o = .ok r → Reported (w.began t) w.db op r) :
    Reports sec t (rollback >>= fun _ => Prog.eff (.finish o) fun _ => .ret ())
      (fun _ _ => True) (fun _ _ => True) w := by
  have hlast : Lasting t fun w => ∀ r, o = .ok r → Reported (w.began t) w.db op r :=
    fun w w' hk hbegan hf r hr => lasting_reported op r w w' (hk r hr) hbegan hf
  refine reports_bind hlast (Q := fun _ => Ended sec t op o) (Z := fun _ _ => False)
    ⟨trivial, fun _ => trivial⟩ (safe_rollback fun w₁ hs₁ => ?_) hok ?_ fun _ _ h => h.elim
  · have h₁ := h.since hs₁
    exact ⟨(localStep_close w₁).inv h₁.inv, h₁.result, h₁.op, h₁.outcome⟩
  rintro - w₁ hended hok₁ w₂ hd a w₃ hx
  have hended₂ := hended.since (Since.of_drift (drift_of_reporting hd))
  have hok₂ := hlast w₁ w₂ hok₁ hd.own.began hd.grow.follows
  have hkeeps := keeps_finish hended₂
  have hx' : w₃ = { w₂ with outcome := Function.update w₂.outcome t (some o) } := hx
  subst hx'
  refine ⟨keeps_reporting hx hd.inv hkeeps fun op' r hop hout => ?_, trivial⟩
  obtain rfl : op = op' := Option.some.inj (hended₂.op.symm.trans hop)
  have hself : Function.update w₂.outcome t (some o) t = some o := Function.update_self _ _ _
  exact hok₂ r (Option.some.inj (hself.symm.trans hout))

theorem reports_prog (h : Reports sec t (op.body sec)
      (fun r w' => Ended sec t op (.ok r) w' ∧ Reported (w'.began t) w'.db op r)
      (fun x w' => Ended sec t op (.error x) w') w) :
    (reportingDiscipline sec).Ends (serverSystem sec) t (op.prog sec) w := by
  show Reports sec t (op.prog sec) _ _ w
  unfold Op.prog
  refine Safe.bind (Safe.attempt (Q := fun o w' => Reports sec t _ _ _ w')
    (h.mono (fun r w' h' => ?_) fun x w' h' => ?_))
  · refine reports_end h'.1 fun r' hr' => ?_
    obtain rfl : r = r' := Except.ok.inj hr'
    exact h'.2
  · exact reports_end h' fun r' hr' => by cases hr'

/-- A request about something else. -/
theorem reports_silent (hop : ∀ began db r, Reported began db op r) (hb : Begun sec t op w)
    (hnew : commitsOf t w = []) :
    (reportingDiscipline sec).Ends (serverSystem sec) t (op.prog sec) w :=
  ((safe_prog hb hnew).stricter (stricter_of_silent hop) (Prog.Calls.any _) hb.op).mono
    (fun _ _ _ => trivial) fun _ _ _ => trivial

theorem reports_op (hb : Begun sec t op w) (hnew : commitsOf t w = [])
    (hbegan : Follows (w.began t) w.db) :
    (reportingDiscipline sec).Ends (serverSystem sec) t (op.prog sec) w := by
  cases op with
  | mailbox principal after_seq limit => exact reports_prog (Safe.bind (reports_mailbox hb hbegan))
  | acknowledge principal envelope_id =>
      exact reports_prog (Safe.bind (reports_acknowledge hb hbegan))
  | _ => exact reports_silent (fun _ _ _ => trivial) hb hnew

/-- The server keeps the stricter discipline. -/
theorem server_reports : (reportingDiscipline sec).Respected (serverSystem sec) where
  start := by
    rintro t op w w' hr hidle rfl
    have hkeeps := keeps_arrive hr.inv hidle op
    have hbegan : (w.arrive t op).began t = w.db := Function.update_self _ _ _
    refine ⟨⟨⟨hkeeps.inv, fun u op' r hop hout => ?_⟩,
      ⟨hkeeps.grow, Follows.refl _, fun u op' hnone hop => ?_⟩, hkeeps.own⟩,
      reports_op (begun_arrive hr.inv hidle op) hidle.commits ?_⟩
    · have hne : u ≠ t := by
        rintro rfl
        have hnone : w.outcome u = some (.ok r) := hout
        rw [hidle.outcome] at hnone
        cases hnone
      have ho := hkeeps.own u hne
      rw [ho.op] at hop
      rw [ho.began]
      exact hr.reported u op' r hop hout
    · by_cases hut : u = t
      · rw [hut, hbegan]
        exact Follows.refl _
      · rw [(hkeeps.own u hut).op, hnone] at hop
        cases hop
    · rw [hbegan]
      exact Follows.refl _
  stop := by
    rintro t w w' hr rfl
    have hkeeps := (localStep_close (t := t) w).keeps hr.inv
    refine ⟨⟨⟨hkeeps.inv, hr.reported⟩, ⟨hkeeps.grow, Follows.refl _, fun u op hnone hop => ?_⟩,
      hkeeps.own⟩, trivial⟩
    have hop' : w.op u = some op := hop
    rw [hnone] at hop'
    cases hop'
  env := fun _ _ _ h => h.elim

theorem World.Initial.reporting (h : World.Initial sec w) : Reporting sec w where
  inv := h.inv
  reported := by
    intro t op r hop
    rw [(h.idle t).op] at hop
    cases hop

variable {p p' : Pool Sql Sql.Answer PyError World}

/-- **Replies.**  Whatever requests run at the same time, every page and every
receipt describes a state the mailboxes have been in since the request arrived. -/
theorem reachable_reporting
    (hp : System.Reachable (serverSystem sec) (World.Initial sec) p) : Reporting sec p.shared :=
  (sound server_reports (fun _ h => ⟨h.reporting, h.idle⟩) hp).inv

theorem reaches_mailboxes
    (hp : System.Reachable (serverSystem sec) (World.Initial sec) p)
    (h : System.Reaches (serverSystem sec) p p') : MailboxesGrow p.shared p'.shared :=
  Discipline.grows server_reports (fun _ h => ⟨h.reporting, h.idle⟩) hp h

end Requests

end Server
end SecureMessenger

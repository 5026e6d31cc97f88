import SecureMessenger.Client.CommitPage
import SecureMessenger.Client.SyncManager
import SecureMessenger.Lib.Discipline

/-!
# What the calls of SyncManager must provide

Every claim about `synchronize` and `ingest` needs the same walk through their
control flow.  `SyncContract` states what each awaited call must provide under
a given discipline.  Four kinds of knowledge survive every step (`Served`,
`Kept`, `Answered`, `Reached`); three more survive every step but a commit of
the operation itself (`At`, `Tracked`, `Failed`), which is what `Calm` says.
The theorems of this file then say that the operations are safe; a client of
this file only looks at single calls.  `LackAfter` and `LackUpTo` are what the
backfill needs: which stored envelopes may still be without a chat sequence.

The one call that writes envelopes is `commitPage`.  `Commit` lists the three
shapes in which the code calls it.
-/

namespace SecureMessenger
namespace Client

open Lib
open Lib.Discipline

variable {S : Type}

/-- Reading the current scope, as `assertCurrent` does. -/
def readsCurrent (scope : ScopeRef) : Memory → Bool × Memory :=
  fun m => (decide (m.current = some scope), m)

section Commit

variable (scope : InboxScope) (Served : MailboxEnvelope → S → Prop)
  (Kept : MailboxEnvelope → S → Prop)
  (Answered : MailboxEnvelope → MessageEnvelope → S → Prop)
  (Reached : ℤ → S → Prop)

/-- The arguments with which `commitPage` is called: the cursor it expects,
the envelopes and the next cursor. -/
inductive Commit (s : S) : ℤ → List MailboxEnvelope → ℤ → Prop
  /-- A valid page that starts at a cursor already reached. -/
  | page {after cursor expected : ℤ} {envelopes : List MailboxEnvelope}
      (hafter : Reached after s)
      (hvalid : checkEnvelopes scope.deviceId after envelopes = .ok expected)
      (hserved : ∀ e ∈ envelopes, Served e s) :
      Commit s cursor envelopes (max cursor expected)
  /-- A live envelope that is not ahead of the cursor. -/
  | live {cursor seq : ℤ} {envelope : MailboxEnvelope}
      (hlive : liveSeq scope envelope = .ok seq)
      (hseq : seq ≤ cursor + 1)
      (hserved : Served envelope s) :
      Commit s cursor [envelope] (max cursor seq)
  /-- The receipt of a stored envelope. -/
  | receipt {cursor : ℤ} {envelope : MailboxEnvelope} {receipt : MessageEnvelope}
      (hkept : Kept envelope s)
      (hanswer : Answered envelope receipt s)
      (hvalid : validateReceipt scope envelope receipt = .ok ()) :
      Commit s cursor [acknowledgedEnvelope envelope receipt] cursor

end Commit

theorem checkEnvelopes_le {deviceId : String} {cursor expected : ℤ}
    {envelopes : List MailboxEnvelope}
    (h : checkEnvelopes deviceId cursor envelopes = .ok expected) : cursor ≤ expected := by
  induction envelopes generalizing cursor with
  | nil =>
      rw [checkEnvelopes, Except.ok.injEq] at h
      exact h.le
  | cons e rest ih =>
      rw [checkEnvelopes] at h
      split_ifs at h with hbad
      have := ih h
      omega

/-- What `validatePage` has checked. -/
theorem validatePage_ok {scope : InboxScope} {cursor : ℤ} {page : MailboxPage}
    (h : validatePage scope cursor page = .ok ()) :
    ∃ expected, checkEnvelopes scope.deviceId cursor page.envelopes = .ok expected ∧
      page.nextSeq = .integer expected ∧ ¬(page.hasMore = true ∧ expected = cursor) := by
  unfold validatePage at h
  cases hc : checkEnvelopes scope.deviceId cursor page.envelopes with
  | error x =>
      rw [hc] at h
      cases h
  | ok expected =>
      rw [hc] at h
      refine ⟨expected, rfl, ?_⟩
      by_cases hbad : page.nextSeq ≠ .integer expected ∨ (page.hasMore = true ∧ expected = cursor)
      · have hthrow : validatePage scope cursor page = .error
            (.error "Mailbox cursor does not match the persisted page; sync stopped.") := by
          simp only [validatePage, hc, bind, Except.bind, hbad, if_true]
          rfl
        rw [validatePage, hc, h] at hthrow
        cases hthrow
      · rw [not_or, not_ne_iff] at hbad
        exact hbad

/-- What the calls of one operation of thread `t` under `scope` provide. -/
structure SyncContract (D : Discipline S)
    (exec : Tid → (c : Call) → S → c.Answer → S → Prop)
    (t : Tid) (scope : ScopeRef) where
  /-- The server has served this envelope (in a page or live). -/
  Served : MailboxEnvelope → S → Prop
  /-- This envelope was read from the inbox as not yet acknowledged. -/
  Kept : MailboxEnvelope → S → Prop
  /-- The server has answered an acknowledgment of the envelope so. -/
  Answered : MailboxEnvelope → MessageEnvelope → S → Prop
  /-- The cursor has reached this value. -/
  Reached : ℤ → S → Prop
  /-- The cursor is still at the value this operation has seen. -/
  At : ℤ → S → Prop
  /-- The changes collected by this operation so far. -/
  Tracked : Changes → S → Prop
  /-- The operation may fail here. -/
  Failed : S → Prop
  /-- A mailbox read to its end at the first number contains the second. -/
  Covers : ℤ → ℤ → Prop
  /-- A stored envelope without a chat sequence comes after this number. -/
  LackAfter : ℤ → S → Prop
  /-- A stored envelope without a chat sequence does not come after this
  number. -/
  LackUpTo : ℤ → S → Prop
  /-- A page from this position is under way, and its request left after these
  envelopes were served. -/
  Asked : ℤ → List MailboxEnvelope → S → Prop
  /-- The operation has committed nothing in between. -/
  Calm : S → S → Prop
  served_grow : ∀ {e s s'}, Served e s → D.grow s s' → Served e s'
  kept_grow : ∀ {e s s'}, Kept e s → D.grow s s' → Kept e s'
  answered_grow : ∀ {e r s s'}, Answered e r s → D.grow s s' → Answered e r s'
  reached_grow : ∀ {n s s'}, Reached n s → D.grow s s' → Reached n s'
  lackAfter_grow : ∀ {n s s'}, LackAfter n s → D.grow s s' → LackAfter n s'
  lackUpTo_grow : ∀ {n s s'}, LackUpTo n s → D.grow s s' → LackUpTo n s'
  lackAfter_zero : ∀ {s}, D.inv s → LackAfter 0 s
  calm_drift : ∀ {s s'}, D.Drift t s s' → Calm s s'
  calm_trans : ∀ {s₁ s₂ s₃}, Calm s₁ s₂ → Calm s₂ s₃ → Calm s₁ s₃
  at_calm : ∀ {n s s'}, At n s → Calm s s' → At n s'
  tracked_calm : ∀ {ch s s'}, Tracked ch s → Calm s s' → Tracked ch s'
  failed_calm : ∀ {s s'}, Failed s → Calm s s' → Failed s'
  asked_drift : ∀ {after es s s'}, Asked after es s → D.Drift t s s' → Asked after es s'
  reached_le : ∀ {n m s}, Reached n s → 0 ≤ m → m ≤ n → Reached m s
  reached_zero : ∀ {s}, D.inv s → Reached 0 s
  on_current : ∀ {s b s'}, D.inv s →
    exec t (.memory (readsCurrent scope)) s b s' →
    D.Keeps t s s' ∧ Calm s s' ∧ (b = false → Failed s')
  on_transport : ∀ {s via s'}, D.inv s →
    exec t .transport s via s' → D.Keeps t s s' ∧ Calm s s'
  on_cursor : ∀ {ch s r s'}, D.inv s → Tracked ch s →
    exec t (.inbox (readCursor scope.scope)) s r s' →
    D.Keeps t s s' ∧ Calm s s' ∧
      (∀ n, r = .ok n → Reached n s' ∧ At n s' ∧ LackUpTo n s') ∧
      (∀ x, r = .error x → Failed s')
  on_pending : ∀ {s r s'}, D.inv s →
    exec t (.inbox (getPendingAcknowledgments scope.scope)) s r s' →
    D.Keeps t s s' ∧ Calm s s' ∧
      (∀ es, r = .ok es → ∀ e ∈ es, Kept e s') ∧ (∀ x, r = .error x → Failed s')
  on_needs : ∀ {s r s'}, D.inv s →
    exec t (.inbox (needsSequenceBackfill scope.scope)) s r s' →
    D.Keeps t s s' ∧ Calm s s' ∧ (∀ x, r = .error x → Failed s')
  on_finish : ∀ {a b s r s'}, D.inv s → LackAfter a s → LackUpTo b s → b ≤ a →
    exec t (.inbox (finishSequenceBackfill scope.scope)) s r s' →
    D.Keeps t s s' ∧ Calm s s' ∧ (∀ x, r = .error x → Failed s')
  on_mailbox_request : ∀ {s via after es r s'}, D.inv s → Reached after s →
    (∀ e ∈ es, Served e s) → exec t (.request (.getMailbox via after 100)) s r s' →
    D.Keeps t s s' ∧ Calm s s' ∧ Asked after es s'
  on_mailbox : ∀ {s via after es r s'}, D.inv s → Reached after s → Asked after es s →
    exec t (.response (.getMailbox via after 100)) s r s' →
    D.Keeps t s s' ∧ Calm s s' ∧
      (∀ page : MailboxPage, r = .ok page →
        (∀ e ∈ page.envelopes, Served e s') ∧
        (∀ x, validatePage scope.scope after page = .error x → Failed s') ∧
        (page.hasMore = false → ∀ e ∈ es, ∀ seq n,
          liveSeq scope.scope e = .ok seq → page.nextSeq = .integer n →
          Covers n seq) ∧
        (page.hasMore = false → ∀ n, page.nextSeq = .integer n → LackUpTo n s')) ∧
      (∀ x, r = .error x → Failed s')
  on_ack_request : ∀ {s via e r s'}, D.inv s → Kept e s →
    e.payload ≠ none → e.delivered_at = none →
    exec t (.request (.acknowledgeEnvelope via e.id)) s r s' →
    D.Keeps t s s' ∧ Calm s s'
  on_ack : ∀ {s via e r s'}, D.inv s → Kept e s →
    exec t (.response (.acknowledgeEnvelope via e.id)) s r s' →
    D.Keeps t s s' ∧ Calm s s' ∧
      (∀ receipt : MessageEnvelope, r = .ok receipt → Answered e receipt s' ∧
        (∀ x, validateReceipt scope.scope e receipt = .error x → Failed s'))
  on_commit : ∀ {ch s cursor envelopes next r s'}, D.inv s → Tracked ch s →
    At cursor s →
    Commit scope.scope Served Kept Answered Reached s cursor envelopes next →
    exec t (.inbox (commitPage scope.scope cursor envelopes (.integer next))) s r s' →
    D.Keeps t s s' ∧
      (∀ cs, r = .ok cs → Tracked (collect ch cs) s' ∧ Reached next s' ∧ At next s' ∧
        (next = cursor → ∀ m, At m s → At m s')) ∧
      (∀ x, r = .error x → Calm s s' ∧ Failed s')
  on_fill : ∀ {after expected cursor envelopes next r s s'}, D.inv s → LackAfter after s →
    checkEnvelopes scope.scope.deviceId after envelopes = .ok expected →
    (∀ e ∈ envelopes, Served e s) →
    exec t (.inbox (commitPage scope.scope cursor envelopes (.integer next))) s r s' →
    ∀ cs, r = .ok cs → LackAfter expected s'
  on_gap : ∀ {n m seq s}, D.inv s → Covers n seq → At n s → At m s →
    m + 1 < seq → Failed s

namespace SyncContract

variable {D : Discipline S} {exec : Tid → (c : Call) → S → c.Answer → S → Prop}
  {t : Tid} {scope : ScopeRef} (C : SyncContract D exec t scope)

/-- The commits of the operation, over what the contract knows. -/
abbrev Commits (C : SyncContract D exec t scope) (s : S) :
    ℤ → List MailboxEnvelope → ℤ → Prop :=
  Commit scope.scope C.Served C.Kept C.Answered C.Reached s

/-- How an operation fails. -/
def Fails (C : SyncContract D exec t scope) (_ : JsError) (s : S) : Prop :=
  C.Failed s ∧ D.inv s

/-- What calls that commit nothing leave behind. -/
structure Quiet (C : SyncContract D exec t scope) (s s' : S) : Prop where
  grow : D.grow s s'
  calm : C.Calm s s'
  inv : D.inv s'

/-- What a call with one commit or several leaves behind: the changes are
tracked, and the cursor still is where it was if it was known to be at `M`. -/
structure Committed (C : SyncContract D exec t scope) (M : ℤ → Prop)
    (s : S) (ch : Changes) (s' : S) : Prop where
  grow : D.grow s s'
  tracked : C.Tracked ch s'
  at_ : ∀ m, M m → C.At m s'
  inv : D.inv s'

variable {C}

theorem Quiet.of_step {s s₁ s₂ : S} (hd : D.Drift t s s₁) (hk : D.Keeps t s₁ s₂)
    (hc : C.Calm s₁ s₂) : C.Quiet s s₂ :=
  ⟨D.grow_trans hd.grow hk.grow, C.calm_trans (C.calm_drift hd) hc, hk.inv⟩

theorem Quiet.refl {s : S} (hi : D.inv s) : C.Quiet s s :=
  ⟨D.grow_refl s, C.calm_drift (Drift.refl hi), hi⟩

theorem Quiet.trans {s₁ s₂ s₃ : S} (h : C.Quiet s₁ s₂) (h' : C.Quiet s₂ s₃) :
    C.Quiet s₁ s₃ :=
  ⟨D.grow_trans h.grow h'.grow, C.calm_trans h.calm h'.calm, h'.inv⟩

theorem Quiet.committed {M : ℤ → Prop} {ch : Changes} {s s' : S} (h : C.Quiet s s')
    (htr : C.Tracked ch s) (hat : ∀ m, M m → C.At m s) : C.Committed M s ch s' :=
  ⟨h.grow, C.tracked_calm htr h.calm, fun m hm => C.at_calm (hat m hm) h.calm, h.inv⟩

theorem Committed.of_grow {M : ℤ → Prop} {ch : Changes} {s₀ s s' : S}
    (h : C.Committed M s ch s') (hg : D.grow s₀ s) : C.Committed M s₀ ch s' :=
  ⟨D.grow_trans hg h.grow, h.tracked, h.at_, h.inv⟩

variable (C)

section Calls

theorem safe_assertCurrent {s : S} :
    D.Safe exec t (assertCurrent scope) (fun _ s' => C.Quiet s s') C.Fails s := by
  intro s₁ hd b s₂ hx
  obtain ⟨hk, hc, hfail⟩ := C.on_current hd.inv hx
  refine ⟨hk, ?_⟩
  cases b with
  | true => exact Quiet.of_step hd hk hc
  | false => exact ⟨hfail rfl, hk.inv⟩

theorem safe_transport {s : S} :
    D.Safe exec t transport (fun _ s' => C.Quiet s s') C.Fails s := by
  intro s₁ hd via s₂ hx
  obtain ⟨hk, hc⟩ := C.on_transport hd.inv hx
  exact ⟨hk, Quiet.of_step hd hk hc⟩

theorem safe_readCursor {ch : Changes} {s : S} (htr : C.Tracked ch s) :
    D.Safe exec t (awaitInbox (readCursor scope.scope))
      (fun n s' => C.Quiet s s' ∧ C.Reached n s' ∧ C.At n s') C.Fails s := by
  intro s₁ hd r s₂ hx
  obtain ⟨hk, hc, hok, herr⟩ :=
    C.on_cursor hd.inv (C.tracked_calm htr (C.calm_drift hd)) hx
  refine ⟨hk, ?_⟩
  cases r with
  | ok n =>
      obtain ⟨hreach, hat, -⟩ := hok n rfl
      exact ⟨Quiet.of_step hd hk hc, hreach, hat⟩
  | error x => exact ⟨herr x rfl, hk.inv⟩

/-- The cursor at the start of the backfill bounds what it has to fill. -/
theorem safe_readThrough {ch : Changes} {s : S} (htr : C.Tracked ch s) :
    D.Safe exec t (awaitInbox (readCursor scope.scope))
      (fun n s' => C.Quiet s s' ∧ C.LackUpTo n s') C.Fails s := by
  intro s₁ hd r s₂ hx
  obtain ⟨hk, hc, hok, herr⟩ :=
    C.on_cursor hd.inv (C.tracked_calm htr (C.calm_drift hd)) hx
  refine ⟨hk, ?_⟩
  cases r with
  | ok n => exact ⟨Quiet.of_step hd hk hc, (hok n rfl).2.2⟩
  | error x => exact ⟨herr x rfl, hk.inv⟩

theorem safe_getPending {s : S} :
    D.Safe exec t (awaitInbox (getPendingAcknowledgments scope.scope))
      (fun es s' => C.Quiet s s' ∧ ∀ e ∈ es, C.Kept e s') C.Fails s := by
  intro s₁ hd r s₂ hx
  obtain ⟨hk, hc, hok, herr⟩ := C.on_pending hd.inv hx
  refine ⟨hk, ?_⟩
  cases r with
  | ok es => exact ⟨Quiet.of_step hd hk hc, hok es rfl⟩
  | error x => exact ⟨herr x rfl, hk.inv⟩

theorem safe_needsBackfill {s : S} :
    D.Safe exec t (awaitInbox (needsSequenceBackfill scope.scope))
      (fun _ s' => C.Quiet s s') C.Fails s := by
  intro s₁ hd r s₂ hx
  obtain ⟨hk, hc, herr⟩ := C.on_needs hd.inv hx
  refine ⟨hk, ?_⟩
  cases r with
  | ok b => exact Quiet.of_step hd hk hc
  | error x => exact ⟨herr x rfl, hk.inv⟩

theorem safe_finishBackfill {a b : ℤ} {s : S} (ha : C.LackAfter a s) (hb : C.LackUpTo b s)
    (hle : b ≤ a) :
    D.Safe exec t (awaitInbox (finishSequenceBackfill scope.scope))
      (fun _ s' => C.Quiet s s') C.Fails s := by
  intro s₁ hd r s₂ hx
  obtain ⟨hk, hc, herr⟩ := C.on_finish hd.inv (C.lackAfter_grow ha hd.grow)
    (C.lackUpTo_grow hb hd.grow) hle hx
  refine ⟨hk, ?_⟩
  cases r with
  | ok b => exact Quiet.of_step hd hk hc
  | error x => exact ⟨herr x rfl, hk.inv⟩

/-- What a page tells that passed validation. -/
structure PageFrom (after : ℤ) (lives : List MailboxEnvelope) (s : S)
    (page : MailboxPage) (s' : S) : Prop where
  quiet : C.Quiet s s'
  served : ∀ e ∈ page.envelopes, C.Served e s'
  valid : validatePage scope.scope after page = .ok ()
  covers : page.hasMore = false → ∀ e ∈ lives, ∀ seq n,
    liveSeq scope.scope e = .ok seq → page.nextSeq = .integer n → C.Covers n seq
  ends : page.hasMore = false → ∀ n, page.nextSeq = .integer n → C.LackUpTo n s'

/-- The part of both paging loops that gets a page: the request, the second
scope check and the validation. -/
theorem safe_getMailbox {α : Type} {via : Transport} {after : ℤ}
    (lives : List MailboxEnvelope) {f : MailboxPage → Async α} {Q : α → S → Prop} {s : S}
    (hafter : C.Reached after s) (hlives : ∀ e ∈ lives, C.Served e s)
    (hf : ∀ page s', C.PageFrom after lives s page s' →
      D.Safe exec t (f page) Q C.Fails s') :
    D.Safe exec t
      (do
        let page ← awaitGateway (.getMailbox via after 100)
        assertCurrent scope
        Prog.ofExcept (validatePage scope.scope after page)
        f page)
      Q C.Fails s := by
  intro s₁ hd₁ u s₂ hx₁
  have hafter₁ := C.reached_grow hafter hd₁.grow
  obtain ⟨hk₁, hc₁, hasked⟩ := C.on_mailbox_request hd₁.inv hafter₁
    (fun e he => C.served_grow (hlives e he) hd₁.grow) hx₁
  refine ⟨hk₁, ?_⟩
  intro s₃ hd₃ r s₄ hx₂
  have hgrow₃ : D.grow s₁ s₃ := D.grow_trans hk₁.grow hd₃.grow
  obtain ⟨hk₂, hc₂, hok, herr⟩ :=
    C.on_mailbox hd₃.inv (C.reached_grow hafter₁ hgrow₃) (C.asked_drift hasked hd₃) hx₂
  refine ⟨hk₂, ?_⟩
  have hq : C.Quiet s s₄ := (Quiet.of_step hd₁ hk₁ hc₁).trans (Quiet.of_step hd₃ hk₂ hc₂)
  cases r with
  | error x => exact ⟨herr x rfl, hk₂.inv⟩
  | ok page =>
      obtain ⟨hserved, hinvalid, hcovers, hends⟩ := hok page rfl
      refine C.safe_assertCurrent.andThen fun _ s₅ hq₅ => ?_
      cases hv : validatePage scope.scope after page with
      | error x => exact ⟨C.failed_calm (hinvalid x hv) hq₅.calm, hq₅.inv⟩
      | ok u =>
          exact hf page s₅ ⟨hq.trans hq₅, fun e he => C.served_grow (hserved e he) hq₅.grow,
            hv, hcovers, fun hmore n hn => C.lackUpTo_grow (hends hmore n hn) hq₅.grow⟩

/-- A commit of one of the three shapes. -/
theorem safe_commitPage {ch : Changes} {cursor next : ℤ}
    {envelopes : List MailboxEnvelope} {s : S}
    (htr : C.Tracked ch s) (hat : C.At cursor s)
    (hcommit : C.Commits s cursor envelopes next) :
    D.Safe exec t (awaitInbox (commitPage scope.scope cursor envelopes (.integer next)))
      (fun cs s' => C.Committed (fun m => m = next ∨ (next = cursor ∧ C.At m s)) s
        (collect ch cs) s' ∧ C.Reached next s' ∧
          ∀ after expected, checkEnvelopes scope.scope.deviceId after envelopes = .ok expected →
            (∀ e ∈ envelopes, C.Served e s) → C.LackAfter after s → C.LackAfter expected s')
      (fun x s' => C.Fails x s' ∧ C.Quiet s s') s := by
  intro s₁ hd r s₂ hx
  have hc := C.calm_drift hd
  have hcommit₁ : C.Commits s₁ cursor envelopes next := by
    cases hcommit with
    | page hafter hvalid hserved =>
        exact .page (C.reached_grow hafter hd.grow) hvalid
          fun e he => C.served_grow (hserved e he) hd.grow
    | live hlive hseq hserved =>
        exact .live hlive hseq (C.served_grow hserved hd.grow)
    | receipt hkept hanswer hvalid =>
        exact .receipt (C.kept_grow hkept hd.grow) (C.answered_grow hanswer hd.grow) hvalid
  obtain ⟨hk, hok, herr⟩ :=
    C.on_commit hd.inv (C.tracked_calm htr hc) (C.at_calm hat hc) hcommit₁ hx
  refine ⟨hk, ?_⟩
  cases r with
  | ok cs =>
      obtain ⟨htr₂, hreach, hat₂, hsame⟩ := hok cs rfl
      refine ⟨⟨D.grow_trans hd.grow hk.grow, htr₂, ?_, hk.inv⟩, hreach, ?_⟩
      · rintro m (rfl | ⟨hn, hm⟩)
        · exact hat₂
        · exact hsame hn m (C.at_calm hm hc)
      · intro after expected hcheck hserved hlack
        exact C.on_fill hd.inv (C.lackAfter_grow hlack hd.grow) hcheck
          (fun e he => C.served_grow (hserved e he) hd.grow) hx cs rfl
  | error x =>
      obtain ⟨hc₂, hfail⟩ := herr x rfl
      exact ⟨⟨hfail, hk.inv⟩, Quiet.of_step hd hk hc₂⟩

/-- An acknowledgment is sent, and answered or lost. -/
theorem safe_acknowledge {via : Transport} {e : MailboxEnvelope} {s : S}
    (hpayload : e.payload ≠ none) (hdelivered : e.delivered_at = none)
    (hkept : C.Kept e s) :
    D.Safe exec t (Prog.attempt (awaitGateway (.acknowledgeEnvelope via e.id)))
      (fun r s' => C.Quiet s s' ∧ ∀ receipt, r = .ok receipt → C.Answered e receipt s' ∧
        ∀ x, validateReceipt scope.scope e receipt = .error x → C.Failed s')
      C.Fails s := by
  intro s₁ hd₁ u s₂ hx₁
  have hkept₁ := C.kept_grow hkept hd₁.grow
  obtain ⟨hk₁, hc₁⟩ := C.on_ack_request hd₁.inv hkept₁ hpayload hdelivered hx₁
  refine ⟨hk₁, ?_⟩
  intro s₃ hd₃ r s₄ hx₂
  obtain ⟨hk₂, hc₂, hok⟩ :=
    C.on_ack hd₃.inv (C.kept_grow hkept₁ (D.grow_trans hk₁.grow hd₃.grow)) hx₂
  have hq : C.Quiet s s₄ := (Quiet.of_step hd₁ hk₁ hc₁).trans (Quiet.of_step hd₃ hk₂ hc₂)
  refine ⟨hk₂, ?_⟩
  cases r with
  | ok receipt =>
      refine ⟨hq, fun receipt' hr => ?_⟩
      obtain rfl : receipt = receipt' := by simpa using hr
      exact hok receipt rfl
  | error x => exact ⟨hq, fun receipt hr => by simp at hr⟩

end Calls

section Operations

variable {M : ℤ → Prop} {ch : Changes} {s : S}

theorem safe_acknowledgeOne {via : Transport} {e : MailboxEnvelope}
    (htr : C.Tracked ch s) (hat : ∀ m, M m → C.At m s) (hi : D.inv s)
    (hkept : C.Kept e s) :
    D.Safe exec t (acknowledgeOne scope via e ch)
      (fun ch' s' => C.Committed M s ch' s') C.Fails s := by
  unfold acknowledgeOne
  split_ifs with hskip
  · exact (Quiet.refl hi).committed htr hat
  · rw [not_or, not_ne_iff] at hskip
    refine C.safe_assertCurrent.andThen fun _ s₁ hq₁ => ?_
    refine (C.safe_acknowledge hskip.1 hskip.2 (C.kept_grow hkept hq₁.grow)).andThen
      fun r s₂ hr => ?_
    have hq₂ := hq₁.trans hr.1
    cases r with
    | error x =>
        refine C.safe_assertCurrent.andThen fun _ s₃ hq₃ => ?_
        exact (hq₂.trans hq₃).committed htr hat
    | ok receipt =>
        obtain ⟨hans, hinvalid⟩ := hr.2 receipt rfl
        refine C.safe_assertCurrent.andThen fun _ s₃ hq₃ => ?_
        cases hv : validateReceipt scope.scope e receipt with
        | error x => exact ⟨C.failed_calm (hinvalid x hv) hq₃.calm, hq₃.inv⟩
        | ok u =>
            have hq := hq₂.trans hq₃
            refine (C.safe_readCursor (C.tracked_calm htr hq.calm)).andThen
              fun cursor s₄ h₄ => ?_
            have hq₄ := hq.trans h₄.1
            have hcommit : C.Commits s₄ cursor _ cursor := .receipt
              (C.kept_grow hkept hq₄.grow)
              (C.answered_grow hans (D.grow_trans hq₃.grow h₄.1.grow)) hv
            refine Safe.bind (Safe.attempt (Safe.mono
              (C.safe_commitPage (C.tracked_calm htr hq₄.calm) h₄.2.2 hcommit) ?_ ?_))
            · rintro cs s₅ ⟨h₅, -⟩
              refine ⟨D.grow_trans hq₄.grow h₅.grow, h₅.tracked, fun m hm => ?_, h₅.inv⟩
              exact h₅.at_ m (Or.inr ⟨rfl, C.at_calm (hat m hm) hq₄.calm⟩)
            · rintro x s₅ ⟨-, hq₅⟩
              refine C.safe_assertCurrent.andThen fun _ s₆ hq₆ => ?_
              exact ((hq₄.trans hq₅).trans hq₆).committed htr hat

theorem safe_acknowledgeAll {via : Transport} {es : List MailboxEnvelope} :
    ∀ {ch : Changes} {s : S}, C.Tracked ch s → (∀ m, M m → C.At m s) → D.inv s →
      (∀ e ∈ es, C.Kept e s) →
      D.Safe exec t (acknowledgeAll scope via es ch)
        (fun ch' s' => C.Committed M s ch' s') C.Fails s := by
  induction es with
  | nil =>
      intro ch s htr hat hi _
      exact (Quiet.refl hi).committed htr hat
  | cons e rest ih =>
      intro ch s htr hat hi hkept
      refine (C.safe_acknowledgeOne htr hat hi (hkept e List.mem_cons_self)).andThen
        fun ch₁ s₁ h₁ => ?_
      refine Safe.mono (ih h₁.tracked h₁.at_ h₁.inv fun e' he' =>
        C.kept_grow (hkept e' (List.mem_cons_of_mem _ he')) h₁.grow) ?_ (fun _ _ h => h)
      exact fun ch₂ s₂ h₂ => h₂.of_grow h₁.grow

theorem safe_acknowledgePending (htr : C.Tracked ch s) (hat : ∀ m, M m → C.At m s) :
    D.Safe exec t (acknowledgePending scope ch)
      (fun ch' s' => C.Committed M s ch' s') C.Fails s := by
  refine C.safe_transport.andThen fun via s₁ hq₁ => ?_
  refine C.safe_getPending.andThen fun es s₂ h₂ => ?_
  have hq := hq₁.trans h₂.1
  refine Safe.mono (C.safe_acknowledgeAll (C.tracked_calm htr hq.calm)
    (fun m hm => C.at_calm (hat m hm) hq.calm) hq.inv h₂.2) ?_ (fun _ _ h => h)
  exact fun ch' s' h' => h'.of_grow hq.grow

/-- The loop of the backfill ends when no stored envelope lacks a chat
sequence. -/
theorem safe_backfillPages {through : ℤ} (htr : C.Tracked ch s)
    (hthrough : C.LackUpTo through s) (hi : D.inv s) :
    D.Safe exec t (backfillPages scope through ch)
      (fun ch' s' => D.grow s s' ∧ C.Tracked ch' s' ∧ D.inv s' ∧
        ∃ a b, b ≤ a ∧ C.LackAfter a s' ∧ C.LackUpTo b s') C.Fails s := by
  refine Safe.iterate
    (fun l s' => D.grow s s' ∧ C.Tracked l.2 s' ∧ C.Reached l.1 s' ∧ 0 ≤ l.1 ∧
      C.LackAfter l.1 s' ∧ D.inv s')
    ?_ ?_ ?_
  · rintro l s₁ s₂ ⟨hg, h₁, h₂, h₃, h₄, -⟩ hd
    exact ⟨D.grow_trans hg hd.grow, C.tracked_calm h₁ (C.calm_drift hd),
      C.reached_grow h₂ hd.grow, h₃, C.lackAfter_grow h₄ hd.grow, hd.inv⟩
  · exact ⟨D.grow_refl s, htr, C.reached_zero hi, le_rfl, C.lackAfter_zero hi, hi⟩
  · rintro ⟨after, ch₁⟩ s₁ ⟨hg₁, htr₁, hafter, hnonneg, hlack₁, hi₁⟩ -
    simp only
    split_ifs with hdone
    · exact ⟨hg₁, htr₁, hi₁, after, through, hdone, hlack₁, C.lackUpTo_grow hthrough hg₁⟩
    · refine C.safe_assertCurrent.andThen fun _ s₂ hq₂ => ?_
      refine C.safe_getMailbox [] (C.reached_grow hafter hq₂.grow) (by simp)
        fun page s₃ hp => ?_
      have hq₃ := hq₂.trans hp.quiet
      have htr₃ := C.tracked_calm htr₁ hq₃.calm
      refine (C.safe_readCursor htr₃).andThen fun cursor s₄ h₄ => ?_
      obtain ⟨expected, hcheck, hnext, -⟩ := validatePage_ok hp.valid
      have hcommit : C.Commits s₄ cursor page.envelopes (max cursor expected) := .page
        (C.reached_grow hafter (D.grow_trans hq₃.grow h₄.1.grow)) hcheck
        fun e he => C.served_grow (hp.served e he) h₄.1.grow
      simp only [hnext]
      refine Safe.bind (Safe.mono
        (C.safe_commitPage (C.tracked_calm htr₃ h₄.1.calm) h₄.2.2 hcommit) ?_
        (fun _ _ h => h.1))
      rintro cs s₅ ⟨h₅, hreach, hfill⟩
      have hg₅ := D.grow_trans hg₁ (D.grow_trans (hq₃.trans h₄.1).grow h₅.grow)
      have hexpected : 0 ≤ expected := le_trans hnonneg (checkEnvelopes_le hcheck)
      have hlack₅ : C.LackAfter expected s₅ := hfill after expected hcheck
        (fun e he => C.served_grow (hp.served e he) h₄.1.grow)
        (C.lackAfter_grow hlack₁ (hq₃.trans h₄.1).grow)
      cases hmore : page.hasMore with
      | true =>
          exact ⟨hg₅, h₅.tracked, C.reached_le hreach hexpected (le_max_right _ _),
            hexpected, hlack₅, h₅.inv⟩
      | false =>
          exact ⟨hg₅, h₅.tracked, h₅.inv, expected, expected, le_rfl, hlack₅,
            C.lackUpTo_grow (hp.ends hmore expected hnext) (D.grow_trans h₄.1.grow h₅.grow)⟩

theorem safe_backfillSequences (htr : C.Tracked ch s) :
    D.Safe exec t (backfillSequences scope ch)
      (fun ch' s' => D.grow s s' ∧ C.Tracked ch' s' ∧ D.inv s') C.Fails s := by
  refine C.safe_needsBackfill.andThen fun needed s₁ hq₁ => ?_
  have htr₁ := C.tracked_calm htr hq₁.calm
  cases needed with
  | false => exact ⟨hq₁.grow, htr₁, hq₁.inv⟩
  | true =>
      refine (C.safe_readThrough htr₁).andThen fun through s₂ h₂ => ?_
      refine (C.safe_backfillPages (C.tracked_calm htr₁ h₂.1.calm) h₂.2 h₂.1.inv).andThen
        fun ch₃ s₃ h₃ => ?_
      obtain ⟨hg₃, htr₃, -, a, b, hle, ha, hb⟩ := h₃
      refine C.safe_assertCurrent.andThen fun _ s₄ hq₄ => ?_
      refine (C.safe_finishBackfill (C.lackAfter_grow ha hq₄.grow)
        (C.lackUpTo_grow hb hq₄.grow) hle).andThen fun _ s₅ hq₅ => ?_
      have hq := hq₄.trans hq₅
      exact ⟨D.grow_trans (hq₁.trans h₂.1).grow (D.grow_trans hg₃ hq.grow),
        C.tracked_calm htr₃ hq.calm, hq.inv⟩

/-- Paging ends at a cursor that covers every envelope served before. -/
theorem safe_pageMailbox (lives : List MailboxEnvelope)
    (htr : C.Tracked ch s) (hlives : ∀ e ∈ lives, C.Served e s) (hi : D.inv s) :
    D.Safe exec t (pageMailbox scope ch)
      (fun ch' s' => D.grow s s' ∧ C.Tracked ch' s' ∧ D.inv s' ∧
        ∃ n, C.At n s' ∧ ∀ e ∈ lives, ∀ seq,
          liveSeq scope.scope e = .ok seq → C.Covers n seq) C.Fails s := by
  refine Safe.iterate (fun ch₁ s' => D.grow s s' ∧ C.Tracked ch₁ s' ∧ D.inv s') ?_ ?_ ?_
  · rintro ch₁ s₁ s₂ ⟨hg, h₁, -⟩ hd
    exact ⟨D.grow_trans hg hd.grow, C.tracked_calm h₁ (C.calm_drift hd), hd.inv⟩
  · exact ⟨D.grow_refl s, htr, hi⟩
  · rintro ch₁ s₁ ⟨hg₁, htr₁, hi₁⟩ -
    refine C.safe_assertCurrent.andThen fun _ s₂ hq₂ => ?_
    refine (C.safe_readCursor (C.tracked_calm htr₁ hq₂.calm)).andThen
      fun cursor s₃ h₃ => ?_
    refine C.safe_transport.andThen fun via s₄ hq₄ => ?_
    have hq := hq₂.trans (h₃.1.trans hq₄)
    have hreach₄ := C.reached_grow h₃.2.1 hq₄.grow
    refine C.safe_getMailbox lives hreach₄
      (fun e he => C.served_grow (hlives e he) (D.grow_trans hg₁ hq.grow))
      fun page s₅ hp => ?_
    have hq₅ := hq.trans hp.quiet
    obtain ⟨expected, hcheck, hnext, -⟩ := validatePage_ok hp.valid
    have hcommit : C.Commits s₅ cursor page.envelopes (max cursor expected) := .page
      (C.reached_grow hreach₄ hp.quiet.grow) hcheck hp.served
    rw [max_eq_right (checkEnvelopes_le hcheck)] at hcommit
    simp only [hnext]
    refine Safe.bind (Safe.mono (C.safe_commitPage (C.tracked_calm htr₁ hq₅.calm)
      (C.at_calm h₃.2.2 (hq₄.trans hp.quiet).calm) hcommit) ?_ (fun _ _ h => h.1))
    rintro cs s₆ ⟨h₆, -⟩
    refine (C.safe_acknowledgePending (M := fun m => m = expected) h₆.tracked
      (fun m hm => h₆.at_ m (Or.inl hm))).andThen fun ch₇ s₇ h₇ => ?_
    have hg₇ := D.grow_trans hg₁ (D.grow_trans hq₅.grow (D.grow_trans h₆.grow h₇.grow))
    cases hmore : page.hasMore with
    | true => exact ⟨hg₇, h₇.tracked, h₇.inv⟩
    | false =>
        refine ⟨hg₇, h₇.tracked, h₇.inv, expected, h₇.at_ expected rfl, ?_⟩
        exact fun e he seq hs => hp.covers hmore e he seq expected hs hnext

/-- How a queued operation ends. -/
def Done (r : SyncChanges) (s : S) : Prop :=
  C.Tracked r.envelopes s ∧ C.At r.cursor s ∧ D.inv s

theorem safe_synchronizeQueued (htr : C.Tracked [] s) :
    D.Safe exec t (synchronizeQueued scope) C.Done C.Fails s := by
  refine (C.safe_backfillSequences htr).andThen fun ch₁ s₁ h₁ => ?_
  refine (C.safe_acknowledgePending (M := fun _ => False) h₁.2.1 (by simp)).andThen
    fun ch₂ s₂ h₂ => ?_
  refine (C.safe_pageMailbox [] h₂.tracked (by simp) h₂.inv).andThen
    fun ch₃ s₃ h₃ => ?_
  refine (C.safe_readCursor h₃.2.1).andThen fun cursor s₄ h₄ => ?_
  exact ⟨C.tracked_calm h₃.2.1 h₄.1.calm, h₄.2.2, h₄.1.inv⟩

theorem safe_catchUp {envelope : MailboxEnvelope} {seq : ℤ} (htr : C.Tracked [] s)
    (hserved : C.Served envelope s) (hlive : liveSeq scope.scope envelope = .ok seq) :
    D.Safe exec t (catchUp scope seq)
      (fun r s' => D.grow s s' ∧ C.Tracked r.2 s' ∧ C.At r.1 s' ∧ D.inv s' ∧
        (r.1 + 1 < seq → C.Failed s')) C.Fails s := by
  refine (C.safe_readCursor htr).andThen fun cursor s₁ h₁ => ?_
  have htr₁ := C.tracked_calm htr h₁.1.calm
  split_ifs with hgap
  · refine (C.safe_pageMailbox [envelope] htr₁ ?_ h₁.1.inv).andThen
      fun ch₂ s₂ h₂ => ?_
    · simpa using C.served_grow hserved h₁.1.grow
    · obtain ⟨hg₂, htr₂, hi₂, n, hat, hcovers⟩ := h₂
      refine (C.safe_readCursor htr₂).andThen fun cursor' s₃ h₃ => ?_
      refine ⟨D.grow_trans h₁.1.grow (D.grow_trans hg₂ h₃.1.grow),
        C.tracked_calm htr₂ h₃.1.calm, h₃.2.2, h₃.1.inv, fun hgap' => ?_⟩
      exact C.on_gap h₃.1.inv (hcovers envelope (by simp) seq hlive)
        (C.at_calm hat h₃.1.calm) h₃.2.2 hgap'
  · exact ⟨h₁.1.grow, htr₁, h₁.2.2, h₁.1.inv, fun h => absurd h hgap⟩

theorem safe_ingestQueued {envelope : MailboxEnvelope} (htr : C.Tracked [] s)
    (hserved : C.Served envelope s)
    (hlive : ∀ x, liveSeq scope.scope envelope = .error x → C.Failed s) :
    D.Safe exec t (ingestQueued scope envelope) C.Done C.Fails s := by
  refine C.safe_assertCurrent.andThen fun _ s₁ hq₁ => ?_
  cases hseq : liveSeq scope.scope envelope with
  | error x => exact ⟨C.failed_calm (hlive x hseq) hq₁.calm, hq₁.inv⟩
  | ok seq =>
      have hserved₁ := C.served_grow hserved hq₁.grow
      refine (C.safe_catchUp (C.tracked_calm htr hq₁.calm) hserved₁ hseq).andThen
        fun r s₂ h₂ => ?_
      obtain ⟨cursor, ch₂⟩ := r
      obtain ⟨hg₂, htr₂, hat₂, hi₂, hfail⟩ := h₂
      simp only
      split_ifs with hgap
      · exact ⟨hfail hgap, hi₂⟩
      · refine C.safe_assertCurrent.andThen fun _ s₃ hq₃ => ?_
        have hcommit : C.Commits s₃ cursor [envelope] (max cursor seq) := .live hseq
          (not_lt.mp hgap)
          (C.served_grow hserved₁ (D.grow_trans hg₂ hq₃.grow))
        refine Safe.bind (Safe.mono (C.safe_commitPage (C.tracked_calm htr₂ hq₃.calm)
          (C.at_calm hat₂ hq₃.calm) hcommit) ?_ (fun _ _ h => h.1))
        rintro cs s₄ ⟨h₄, -⟩
        refine (C.safe_acknowledgePending (M := fun _ => False) h₄.tracked
          (by simp)).andThen fun ch₅ s₅ h₅ => ?_
        refine (C.safe_readCursor h₅.tracked).andThen fun cursor' s₆ h₆ => ?_
        exact ⟨C.tracked_calm h₅.tracked h₆.1.calm, h₆.2.2, h₆.1.inv⟩

end Operations

end SyncContract

end Client
end SecureMessenger

import SecureMessenger.Client.ReceiptOrder
import SecureMessenger.EndToEnd.LineInvariant
import SecureMessenger.Lib.Total

/-!
# Synchronization never gets stuck

The pages and live events of the server are all that `synchronize` and `ingest`
take exception to, so on the line they never throw, keep the inbox in step with
the server, and a synchronization catches up with it.  Each operation takes
finitely many steps, and the promise chain never blocks.
-/

namespace SecureMessenger
namespace EndToEnd

open Lib
open Lib.Discipline
open Client (ScopeRef Call Request JsError JsNumber Inbox.runs Rows envelopeAt cursorAt scopeKey
  MailboxEnvelope SyncContract Changes)

section Calls

variable {ref : ScopeRef} {iso : Server.Instant → Client.Timestamp} {s s' : Line} {t : Tid}

/-- A transaction of the inbox whose outcome is known. -/
theorem exec_inbox {α : Type} {tx : Client.Transaction α} {r : Except JsError α} {a : α}
    {db : Client.Database} (htx : tx s.inbox = .ok (a, db))
    (hx : Line.exec ref iso t (.inbox tx) s r s') :
    r = .ok a ∧ s' = { s with inbox := db } := by
  obtain ⟨db', (⟨a', ha, rfl⟩ | ⟨x, hx, -, -⟩), rfl⟩ := hx
  · rw [htx] at ha
    cases ha
    exact ⟨rfl, rfl⟩
  · rw [htx] at hx
    cases hx

/-- A transaction that reads only. -/
theorem exec_reading (hi : Line.Inv ref s) {α : Type} {tx : Client.Transaction α}
    {r : Except JsError α} {a : α} {db : Client.Database} (htx : tx s.inbox = .ok (a, db))
    (henv : db.envelopes = s.inbox.envelopes) (hid : db.identity = s.inbox.identity)
    (hcur : cursorAt (scopeKey ref.scope) db = cursorAt (scopeKey ref.scope) s.inbox)
    (hx : Line.exec ref iso t (.inbox tx) s r s') :
    (lineDiscipline ref).Keeps t s s' ∧ r = .ok a ∧ s' = { s with inbox := db } := by
  obtain ⟨hr, rfl⟩ := exec_inbox htx hx
  exact ⟨keeps_inbox_line hi hid (hi.inStep.reading henv hcur) hcur.ge (.inl hcur), hr, rfl⟩

end Calls

section Contract

variable {ref : ScopeRef} {iso : Server.Instant → Client.Timestamp} {s s' : Line} {t : Tid}

/-- Nothing has moved the cursor since the thread has its turn. -/
def Line.Calm (ref : ScopeRef) (q : Nat) (t : Tid) (s s' : Line) : Prop :=
  s.Turn q t → s'.Turn q t ∧ s'.cursor ref = s.cursor ref

theorem Line.Calm.of_eq {q : Nat} (hplace : s'.place = s.place) (htab : s'.tab = s.tab)
    (hcur : s'.cursor ref = s.cursor ref) : Line.Calm ref q t s s' := by
  rintro ⟨hq, hset⟩
  exact ⟨⟨by rw [hplace, hq], by rw [htab]; exact hset⟩, hcur⟩

/-- A sequence in the mailbox of the device. -/
theorem Mirrors.le {d : Server.UUID} {db : Server.Db} {x : MailboxEnvelope}
    (h : Mirrors d db x) (hw : Server.Wf db) {seq : ℤ} (hseq : x.mailbox_seq = .integer seq) :
    1 ≤ seq ∧ seq ≤ Server.lastSeq d db := by
  obtain ⟨k, hk, h₁, h₂⟩ := h.seq hw
  rw [hk, JsNumber.integer.injEq] at hseq
  omega

/-- What the operations may commit. -/
abbrev LineCommit (ref : ScopeRef) (s : Line) : ℤ → List MailboxEnvelope → ℤ → Prop :=
  Client.Commit ref.scope
    (fun e s => Mirrors ref.scope.deviceId s.server e)
    (fun e s => Mirrors ref.scope.deviceId s.server e)
    (fun e receipt s => Receipt s.server e receipt)
    (fun n s => 0 ≤ n ∧ n ≤ s.cursor ref) s

/-- Whatever the operations commit are copies of rows, without a gap. -/
theorem lineCommit_copies (hi : Line.Inv ref s) {cursor next : ℤ} {es : List MailboxEnvelope}
    (h : LineCommit ref s cursor es next) (hcur : s.cursor ref = cursor) :
    cursor ≤ next ∧ next ≤ Server.lastSeq ref.scope.deviceId s.server ∧
      (∀ e ∈ es, Mirrors ref.scope.deviceId s.server e) ∧
      ∀ k : ℤ, cursor < k → k ≤ next → ∃ e ∈ es, e.mailbox_seq = .integer k := by
  have hw := hi.server.wf
  have hbehind : cursor ≤ Server.lastSeq ref.scope.deviceId s.server := by
    rw [← hcur]
    exact hi.inStep.behind
  cases h with
  | @page after _ expected _ hafter hvalid hserved =>
      have hle := Client.checkEnvelopes_le hvalid
      have hcomplete : ∀ k : ℤ, after < k → k ≤ expected →
          ∃ e ∈ es, e.mailbox_seq = .integer k := fun k h₁ h₂ =>
        Client.checkEnvelopes_complete hvalid h₁ h₂
      refine ⟨le_max_left _ _, max_le hbehind ?_, hserved, fun k h₁ h₂ => ?_⟩
      · rcases hle.eq_or_lt with heq | hlt
        · omega
        · obtain ⟨e, he, hseq⟩ := hcomplete expected hlt le_rfl
          exact ((hserved e he).le hw hseq).2
      · exact hcomplete k (by omega) ((le_max_iff.mp h₂).resolve_left (by omega))
  | @live _ seq envelope hlive hseq hserved =>
      obtain ⟨-, hz, -⟩ := Client.liveSeq_ok hlive
      refine ⟨le_max_left _ _, max_le hbehind (hserved.le hw hz).2, fun e he => ?_,
        fun k h₁ h₂ => ⟨envelope, List.mem_singleton_self _, ?_⟩⟩
      · rw [List.mem_singleton.mp he]
        exact hserved
      · have hk : k = seq := by
          rcases le_max_iff.mp h₂ with h | h <;> omega
        rw [hz, hk]
  | @receipt _ envelope receipt hkept hanswer hvalid =>
      refine ⟨le_rfl, hbehind, fun e he => ?_, fun k h₁ h₂ => by omega⟩
      rw [List.mem_singleton.mp he]
      exact hkept.acknowledged hw hanswer

/-- A commit goes through, and moves the cursor where it should. -/
theorem exec_commit (hi : Line.Inv ref s) {q : Nat} (ht : s.Turn q t) {cursor next : ℤ}
    {es : List MailboxEnvelope} {r : Except JsError (List MailboxEnvelope)}
    (h : LineCommit ref s cursor es next) (hcur : s.cursor ref = cursor)
    (hx : Line.exec ref iso t (.inbox (Client.commitPage ref.scope cursor es (.integer next)))
      s r s') :
    (lineDiscipline ref).Keeps t s s' ∧ s'.cursor ref = next ∧ s'.Turn q t ∧ ∃ cs, r = .ok cs := by
  obtain ⟨hle, hnext, hes, hcover⟩ := lineCommit_copies hi h hcur
  have hnonneg := hi.inStep.nonneg
  have hsafe := hi.safe
  have hcursor : cursorAt (scopeKey ref.scope) s.inbox = cursor := hcur
  have hint : (JsNumber.integer next).isSafeInteger = true := by
    simp only [JsNumber.isSafeInteger, decide_eq_true_eq]
    unfold JsNumber.maxSafeInteger at hsafe ⊢
    omega
  obtain ⟨⟨cs, db⟩, hok⟩ := Client.commitPage_total hi.valid hcursor hle hint
    fun e he => (hes e he).device
  obtain ⟨hr, rfl⟩ := exec_inbox hok hx
  have hc := (Client.commitPage_ok hok).1
  refine ⟨keeps_inbox_line hi hc.identity' (hi.inStep.commit hi.server.wf hc hes hnext hcover) ?_
    (.inr ⟨q, ht⟩), hc.cursor', ht, cs, hr⟩
  rw [hc.cursor', hcur]
  exact hle

/-- The page that is answered, seen from where it was asked for. -/
theorem servedPage_line (hi : Line.Inv ref s) {db : Server.Db} {after : ℤ}
    (hdb : Between (s.asked t) db s.server) (hnonneg : 0 ≤ after)
    (hasked : after ≤ Server.lastSeq ref.scope.deviceId (s.asked t)) :
    Client.validatePage ref.scope after
        (servedPage iso ref.scope.deviceId after.toNat 100 db) = .ok () ∧
      (∀ e ∈ (servedPage iso ref.scope.deviceId after.toNat 100 db).envelopes,
        Mirrors ref.scope.deviceId s.server e) ∧
      ∀ n, (servedPage iso ref.scope.deviceId after.toNat 100 db).nextSeq = .integer n →
        (servedPage iso ref.scope.deviceId after.toNat 100 db).hasMore = false →
          (Server.lastSeq ref.scope.deviceId (s.asked t) : ℤ) ≤ n := by
  obtain ⟨m, rfl⟩ := Int.eq_ofNat_of_zero_le hnonneg
  have hmailbox := hdb.since.hasMailbox (hi.asked t).mailbox
  have hle := hdb.since.lastSeq_le (hi.asked t).wf hdb.wf (hi.asked t).mailbox
  have hupto := hdb.upTo.lastSeq_le hdb.wf hi.server.wf hmailbox
  obtain ⟨b, hb, hid⟩ := List.mem_map.mp hmailbox
  have hlast := Server.lastSeq_eq hdb.wf hb
  have hsafe := hi.safe
  rw [← hid] at hle hupto hasked hsafe ⊢
  rw [Int.toNat_natCast]
  refine ⟨validatePage_servedPage hdb.wf hb hid.symm (by omega) (by omega) (by omega),
    fun e he => ?_, fun n hn hmore => ?_⟩
  · obtain ⟨entry, rfl, hentry⟩ := servedPage_mem he
    exact Mirrors.follows ⟨entry, hentry, agrees_mailboxEnvelope iso entry⟩ hdb.upTo
  · rw [servedPage_next hdb.wf hb, JsNumber.integer.injEq] at hn
    rw [servedPage_more hdb.wf hb, decide_eq_false_iff_not] at hmore
    omega

/-- The calls of `SyncManager` on the line. -/
def lineContract (ref : ScopeRef) (iso : Server.Instant → Client.Timestamp) (q : Nat) (t : Tid) :
    SyncContract (lineDiscipline ref) (Line.exec ref iso) t ref where
  Served := fun e s => Mirrors ref.scope.deviceId s.server e
  Kept := fun e s => Mirrors ref.scope.deviceId s.server e
  Answered := fun e receipt s => Receipt s.server e receipt
  Reached := fun n s => 0 ≤ n ∧ n ≤ s.cursor ref
  At := fun n s => s.Turn q t ∧ s.cursor ref = n
  Tracked := fun _ s => s.Turn q t
  Failed := fun _ => False
  Covers := fun n seq => seq ≤ n
  LackAfter := fun _ _ => True
  LackUpTo := fun _ _ => True
  Asked := fun after es s => after ≤ Server.lastSeq ref.scope.deviceId (s.asked t) ∧
    ∀ e ∈ es, ∀ seq, e.mailbox_seq = .integer seq →
      seq ≤ Server.lastSeq ref.scope.deviceId (s.asked t)
  Calm := Line.Calm ref q t
  served_grow := fun h hg => h.follows hg.server
  kept_grow := fun h hg => h.follows hg.server
  answered_grow := fun h hg => h.follows hg.server
  reached_grow := fun h hg => ⟨h.1, h.2.trans hg.cursor⟩
  lackAfter_grow := fun _ _ => trivial
  lackUpTo_grow := fun _ _ => trivial
  lackAfter_zero := fun _ => trivial
  calm_drift := fun hd ht => ⟨ht.own hd.own, hd.own.frozen q ht⟩
  calm_trans := fun h₁ h₂ ht => ⟨(h₂ (h₁ ht).1).1, (h₂ (h₁ ht).1).2.trans (h₁ ht).2⟩
  at_calm := fun h hc => ⟨(hc h.1).1, (hc h.1).2.trans h.2⟩
  tracked_calm := fun h hc => (hc h).1
  failed_calm := fun h _ => h
  asked_drift := by
    intro after es s s' h hd
    rw [hd.own.asked]
    exact h
  reached_le := fun h h₀ hle => ⟨h₀, hle.trans h.2⟩
  reached_zero := fun hi => ⟨le_rfl, hi.inStep.nonneg⟩
  on_current := by
    rintro s b s' hi ⟨l, ⟨rfl, rfl⟩, rfl⟩
    refine ⟨keeps_memory hi rfl rfl, .of_eq rfl rfl rfl, fun hb => ?_⟩
    simp [Client.readsCurrent, hi.current] at hb
  on_transport := by
    rintro s via s' hi ⟨l, rfl, rfl⟩
    exact ⟨keeps_memory hi rfl rfl, .of_eq rfl rfl rfl⟩
  on_cursor := by
    intro ch s r s' hi ht hx
    obtain ⟨hk, rfl, rfl⟩ := exec_reading hi (Client.readCursor_valid hi.valid) rfl rfl rfl hx
    refine ⟨hk, .of_eq rfl rfl rfl, fun n hn => ?_, fun x hx => by cases hx⟩
    cases hn
    exact ⟨⟨hi.inStep.nonneg, le_rfl⟩, ⟨ht, rfl⟩, trivial⟩
  on_pending := by
    intro s r s' hi hx
    have hes := Client.getPendingAcknowledgments_valid hi.valid
    obtain ⟨hk, rfl, rfl⟩ := exec_reading hi hes rfl rfl rfl hx
    refine ⟨hk, .of_eq rfl rfl rfl, fun es' hes' e he => ?_, fun x hx => by cases hx⟩
    cases hes'
    exact hi.inStep.stored e.id e
      ((Client.getPendingAcknowledgments_ok hi.inStep.rows hes).2 e he)
  on_needs := by
    intro s r s' hi hx
    obtain ⟨hk, rfl, rfl⟩ :=
      exec_reading hi (Client.needsSequenceBackfill_valid hi.valid) rfl rfl rfl hx
    exact ⟨hk, .of_eq rfl rfl rfl, fun x hx => by cases hx⟩
  on_finish := by
    intro a b s r s' hi _ _ _ hx
    have hdb := Client.finishSequenceBackfill_valid hi.valid
    obtain ⟨hcur, henv, hid⟩ := Client.finishSequenceBackfill_ok hdb
    obtain ⟨hk, rfl, rfl⟩ := exec_reading hi hdb henv hid hcur hx
    exact ⟨hk, .of_eq rfl rfl hcur, fun x hx => by cases hx⟩
  on_mailbox_request := by
    rintro s via after es r s' hi hafter hes rfl
    refine ⟨keeps_request hi, fun ht => ⟨ht, rfl⟩, ?_⟩
    simp only [Function.update_self]
    refine ⟨hafter.2.trans hi.inStep.behind, fun e he seq hseq => ?_⟩
    exact ((hes e he).le hi.server.wf hseq).2
  on_mailbox := by
    rintro s via after es r s' hi hafter hasked ⟨rfl, db, hdb, rfl⟩
    obtain ⟨hvalid, hserved, hend⟩ := servedPage_line hi hdb hafter.1 hasked.1
    refine ⟨Keeps.refl hi, fun ht => ⟨ht, rfl⟩, fun page hpage => ?_, fun x hx => by cases hx⟩
    cases hpage
    refine ⟨hserved, fun x hx => ?_, fun hmore e he seq n hlive hn => ?_, fun _ _ _ => trivial⟩
    · rw [hvalid] at hx
      cases hx
    · have h₁ := hend n hn hmore
      have h₂ := hasked.2 e he seq (Client.liveSeq_ok hlive).2.1
      omega
  on_ack_request := by
    rintro s via e r s' hi - - - rfl
    exact ⟨keeps_request hi, fun ht => ⟨ht, rfl⟩⟩
  on_ack := by
    rintro s via e r s' hi hkept ⟨rfl, hr⟩
    refine ⟨Keeps.refl hi, fun ht => ⟨ht, rfl⟩, fun receipt hreceipt => ?_⟩
    obtain ⟨db, row, now, hdb, hrow, hid, -, rfl⟩ := hr receipt hreceipt
    obtain ⟨row', hrow', hs⟩ := hdb.upTo.envelopes row hrow
    have hanswer : Receipt s'.server e (messageEnvelope iso (Server.Db.acknowledged now row)) :=
      ⟨iso, row, row', now, hrow', hs, hid, rfl⟩
    refine ⟨hanswer, fun x hx => ?_⟩
    rw [hkept.validateReceipt hi.server.wf hanswer] at hx
    cases hx
  on_commit := by
    intro ch s cursor es next r s' hi ht hat hcommit hx
    obtain ⟨hk, hcur, ht', cs, rfl⟩ := exec_commit hi ht hcommit hat.2 hx
    refine ⟨hk, fun cs' _ => ⟨ht', ⟨?_, hcur.ge⟩, ⟨ht', hcur⟩, fun hnext m hm => ⟨ht', ?_⟩⟩,
      fun x hx => by cases hx⟩
    · rw [← hcur]
      exact hk.inv.inStep.nonneg
    · rw [hcur, hnext, ← hm.2, hat.2]
  on_fill := fun _ _ _ _ _ _ _ => trivial
  on_gap := by
    intro n m seq s _ hcovers hn hm hgap
    have h₁ := hn.2
    have h₂ := hm.2
    omega

end Contract

section Operations

variable {ref : ScopeRef} {iso : Server.Instant → Client.Timestamp} {s s' : Line} {t : Tid}

/-- The last envelope of a mailbox. -/
theorem exists_last (iso : Server.Instant → Client.Timestamp) {d : Server.UUID}
    {db : Server.Db} (hw : Server.Wf db)
    (hd : Server.HasMailbox d db) (hpos : 1 ≤ Server.lastSeq d db) :
    ∃ x, Mirrors d db x ∧ x.mailbox_seq = .integer (Server.lastSeq d db) := by
  obtain ⟨b, hb, rfl⟩ := List.mem_map.mp hd
  have hlast := Server.lastSeq_eq hw hb
  have hseqs := @servedPage_seqs iso db b 0 b.last_seq hw hb
  have hmem : JsNumber.integer (b.last_seq : Nat) ∈
      (servedPage iso b.device_id 0 b.last_seq db).envelopes.map (·.mailbox_seq) := by
    rw [hseqs]
    refine List.mem_map.mpr ⟨b.last_seq, ?_, rfl⟩
    rw [List.mem_range'_1]
    omega
  obtain ⟨x, hx, hseq⟩ := List.mem_map.mp hmem
  obtain ⟨entry, rfl, hentry⟩ := servedPage_mem hx
  exact ⟨_, ⟨entry, hentry, agrees_mailboxEnvelope iso entry⟩, by rw [hseq, hlast]⟩

/-- `ingest` accepts the sequence of an envelope of the server. -/
theorem liveSeq_mirrors (hi : Line.Inv ref s) {x : MailboxEnvelope}
    (h : Mirrors ref.scope.deviceId s.server x) {seq : ℤ} (hseq : x.mailbox_seq = .integer seq) :
    Client.liveSeq ref.scope x = .ok seq := by
  have hbounds := h.le hi.server.wf hseq
  have hsafe := hi.safe
  have hint : (JsNumber.integer seq).isSafeInteger = true := by
    simp only [JsNumber.isSafeInteger, decide_eq_true_eq]
    unfold JsNumber.maxSafeInteger at hsafe ⊢
    omega
  have hnot : ¬((JsNumber.integer seq).isSafeInteger = false ∨ seq < 1) := by
    rw [hint]
    simpa using hbounds.1
  unfold Client.liveSeq
  rw [if_neg (not_not.mpr h.device), hseq]
  simp only [hnot, if_false]

/-- A synchronization catches up with what the server had when it was called. -/
theorem safe_synchronizeQueued_line (hi : Line.Inv ref s) {q : Nat} (ht : s.Turn q t) :
    (lineDiscipline ref).Safe (Line.exec ref iso) t (Client.synchronizeQueued ref)
      (fun _ s' => s'.Turn q t ∧
        (Server.lastSeq ref.scope.deviceId (s.began t) : ℤ) ≤ s'.cursor ref)
      (fun _ _ => False) s := by
  have hearlier := hi.began t
  -- the last envelope the server had then
  have hlives : ∃ lives : List MailboxEnvelope,
      (∀ e ∈ lives, Mirrors ref.scope.deviceId s.server e) ∧
      ∀ n : ℤ, 0 ≤ n → (∀ e ∈ lives, ∀ seq, Client.liveSeq ref.scope e = .ok seq → seq ≤ n) →
        (Server.lastSeq ref.scope.deviceId (s.began t) : ℤ) ≤ n := by
    rcases Nat.eq_zero_or_pos (Server.lastSeq ref.scope.deviceId (s.began t)) with h | h
    · exact ⟨[], by simp, fun n hn _ => by omega⟩
    · obtain ⟨x, hx, hseq⟩ := exists_last iso hearlier.wf hearlier.mailbox h
      have hx' := hx.follows hearlier.follows
      refine ⟨[x], by simpa using hx', fun n _ hn => ?_⟩
      exact hn x (List.mem_singleton_self _) _ (liveSeq_mirrors hi hx' hseq)
  obtain ⟨lives, hserved, hcatch⟩ := hlives
  refine Safe.mono (Z := (lineContract ref iso q t).Fails) ?_ (fun _ _ h => h) fun _ _ h => h.1
  refine ((lineContract ref iso q t).safe_backfillSequences ht).andThen fun ch₁ s₁ h₁ => ?_
  refine ((lineContract ref iso q t).safe_acknowledgePending (M := fun _ => False) h₁.2.1
    (by simp)).andThen fun ch₂ s₂ h₂ => ?_
  have hserved₂ : ∀ e ∈ lives, Mirrors ref.scope.deviceId s₂.server e := fun e he =>
    (hserved e he).follows (h₁.1.trans h₂.grow).server
  refine ((lineContract ref iso q t).safe_pageMailbox lives h₂.tracked hserved₂ h₂.inv).andThen
    fun ch₃ s₃ h₃ => ?_
  obtain ⟨hg₃, htr₃, hi₃, n, hat, hcovers⟩ := h₃
  have hle := hcatch n (hat.2 ▸ hi₃.inStep.nonneg) hcovers
  refine ((lineContract ref iso q t).safe_readCursor htr₃).andThen fun cursor s₄ h₄ => ?_
  exact ⟨h₄.2.2.1, hle.trans (hat.2 ▸ h₄.1.grow.cursor)⟩

theorem safe_ingestQueued_line (hi : Line.Inv ref s) {q : Nat} (ht : s.Turn q t)
    {envelope : MailboxEnvelope} (hserved : Mirrors ref.scope.deviceId s.server envelope) :
    (lineDiscipline ref).Safe (Line.exec ref iso) t (Client.ingestQueued ref envelope)
      (fun _ s' => s'.Turn q t) (fun _ _ => False) s := by
  obtain ⟨k, hseq, -, -⟩ := hserved.seq hi.server.wf
  have hlive := liveSeq_mirrors hi hserved hseq
  refine ((lineContract ref iso q t).safe_ingestQueued ht hserved fun x hx => ?_).mono
    (fun _ _ h => h.1) fun _ _ h => h.1
  rw [hlive] at hx
  cases hx

/-- An operation waits for its turn and leaves the chain when it has ended. -/
theorem safe_enqueue_line {α : Type} {operation : Client.Async α} {op : LineOp}
    (hplace : s.place t = none) (hop : s.op t = some op)
    (h : ∀ q s', (lineDiscipline ref).grow s s' → Line.Inv ref s' → s'.Turn q t →
      (lineDiscipline ref).Safe (Line.exec ref iso) t operation
        (fun _ s'' => s''.Turn q t ∧ (op = .synchronize →
          (Server.lastSeq ref.scope.deviceId (s.began t) : ℤ) ≤ s''.cursor ref))
        (fun _ _ => False) s') :
    (lineDiscipline ref).Safe (Line.exec ref iso) t (Client.enqueue operation)
      (fun _ s' => s'.Done ref t) (fun _ _ => False) s := by
  intro s₁ hd₁ place s₂ hx₁
  obtain ⟨l, ⟨rfl, rfl⟩, rfl⟩ := hx₁
  have hk₁ := keeps_enqueue hd₁.inv (hd₁.own.place.trans hplace)
  refine ⟨hk₁, ?_⟩
  intro s₃ hd₃ u s₄ hx₃
  obtain ⟨l, ⟨hturn, rfl⟩, rfl⟩ := hx₃
  have hplace₃ : s₃.place t = some s₁.tab.chain.next :=
    hd₃.own.place.trans (Function.update_self ..)
  have hg : (lineDiscipline ref).grow s s₃ :=
    (hd₁.grow.trans hk₁.grow).trans hd₃.grow
  refine ⟨Keeps.refl hd₃.inv, Safe.bind (Safe.attempt ?_)⟩
  refine Safe.mono ((h _ s₃ hg hd₃.inv ⟨hplace₃, hturn⟩).frame
    (K := fun s' => s'.op t = some op ∧ s'.began t = s.began t) ?_ (hg.called t op hop)) ?_
    fun _ _ hz => hz.1.elim
  · intro s' s'' h' hg'
    obtain ⟨hop', hbegan'⟩ := hg'.called t op h'.1
    exact ⟨hop', hbegan'.trans h'.2⟩
  · rintro a s₅ ⟨⟨hturn₅, hcaught⟩, hop₅, hbegan₅⟩ s₆ hd₆ u s₇ hx₆
    obtain ⟨l, rfl, rfl⟩ := hx₆
    have hplace₆ := hd₆.own.place.trans hturn₅.1
    refine ⟨keeps_leave hd₆.inv hplace₆, Function.update_self .., fun hsync => ?_⟩
    have hop₆ := (hd₆.grow.called t op hop₅).1
    have hbegan₆ := (hd₆.grow.called t op hop₅).2
    obtain rfl : op = .synchronize := Option.some.inj (hop₆.symm.trans hsync)
    show (Server.lastSeq ref.scope.deviceId (s₆.began t) : ℤ) ≤ s₆.cursor ref
    rw [hbegan₆, hbegan₅]
    exact (hcaught rfl).trans hd₆.grow.cursor

/-- **Each operation ends well.** -/
theorem ends_operation (hplace : s.place t = none) {op : LineOp}
    (hop : s.op t = some op)
    (hserved : ∀ e, op = .ingest e → Mirrors ref.scope.deviceId s.server e) :
    (lineDiscipline ref).Ends (lineSystem ref iso) t op.prog s := by
  have hscope : ∀ {α : Type} {f : ScopeRef → Client.Async α},
      (∀ s', (lineDiscipline ref).grow s s' → s'.place t = none → s'.op t = some op →
        s'.began t = s.began t → (lineDiscipline ref).Safe (Line.exec ref iso) t (f ref)
          (fun _ s'' => s''.Done ref t) (fun _ _ => False) s') →
      (lineDiscipline ref).Safe (Line.exec ref iso) t (Client.currentScope >>= f)
        (fun _ s'' => s''.Done ref t) (fun _ _ => False) s := by
    intro α f hf s₁ hd cur s₂ hx
    obtain ⟨l, ⟨rfl, rfl⟩, rfl⟩ := hx
    refine ⟨keeps_memory hd.inv rfl rfl, ?_⟩
    simp only [hd.inv.current]
    exact hf _ hd.grow (hd.own.place.trans hplace) (hd.grow.called t op hop).1
      (hd.grow.called t op hop).2
  cases op with
  | synchronize =>
      refine Safe.andThen (hscope fun s₁ hg hplace₁ hop₁ hbegan₁ => ?_) fun _ _ h => h
      refine safe_enqueue_line hplace₁ hop₁ fun q s₂ hg₂ hi₂ hturn => ?_
      refine (safe_synchronizeQueued_line hi₂ hturn).mono (fun _ s' h => ⟨h.1, fun _ => ?_⟩)
        fun _ _ h => h
      rw [← (hg₂.called t _ hop₁).2]
      exact h.2
  | ingest envelope =>
      refine Safe.andThen (hscope fun s₁ hg hplace₁ hop₁ hbegan₁ => ?_) fun _ _ h => h
      refine safe_enqueue_line hplace₁ hop₁ fun q s₂ hg₂ hi₂ hturn => ?_
      refine (safe_ingestQueued_line hi₂ hturn
        ((hserved envelope rfl).follows (hg.trans hg₂).server)).mono
          (fun _ s' h => ⟨h, fun hsync => by cases hsync⟩) fun _ _ h => h

/-- The line keeps the discipline. -/
theorem line_respected : (lineDiscipline ref).Respected (lineSystem ref iso) where
  start := by
    rintro t op s s' hi hidle ⟨rfl, hop⟩
    have hcalled : (s.call t op).op t = some op := Function.update_self ..
    have hplace : (s.call t op).place t = none := hidle.1
    refine ⟨keeps_call hi hidle.2 op, ends_operation hplace hcalled ?_⟩
    rintro e rfl
    obtain ⟨db, entry, hw, hf, hentry, rfl⟩ := hop
    exact Mirrors.follows ⟨entry, hentry, agrees_mailboxEnvelope iso entry⟩ hf
  stop := by
    rintro t s s' hi h
    exact h.elim
  env := by
    rintro s s' hi ⟨sec, op, db, heffect, hunique, hsafe, rfl⟩ t
    have hw := heffect.wf hi.server.wf hunique
    exact keeps_server hi (heffect.follows hi.server.wf) hw hsafe

theorem Line.Initial.inv (h : Line.Initial ref s) : Line.Inv ref s := by
  have hearlier : Line.Earlier ref s.server s.server :=
    ⟨h.wf, h.mailbox, Server.Follows.refl _⟩
  refine ⟨hearlier, h.safe, h.valid, h.inStep, h.current, fun t => ?_, fun t => ?_,
    fun t q hq => ?_, fun t u q hq => ?_, fun q hq => ?_, fun q hq => ?_⟩
  · rw [h.asked]
    exact hearlier
  · rw [h.began]
    exact hearlier
  · rw [h.place] at hq
    cases hq
  · rw [h.place] at hq
    cases hq
  · rw [h.chain] at hq
    cases hq
  · rw [h.chain] at hq
    cases hq

end Operations

end EndToEnd
end SecureMessenger

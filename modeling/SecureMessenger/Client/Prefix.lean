import SecureMessenger.Client.CommitPage
import SecureMessenger.Client.Runtime
import SecureMessenger.Client.SyncOperations
import Mathlib.Data.List.Range

/-!
# The inbox is a complete prefix of the mailbox

Several tabs share one durable inbox and one scope.  Each runs `synchronize`,
`ingest` and `acknowledgePending`, calls may fail at any point, and the server
may answer anything as long as an envelope id and a mailbox sequence belong
together for the device.  Whatever the tabs do, the inbox holds exactly the
sequences `1` to the cursor, and the cursor never moves back.
-/

namespace SecureMessenger
namespace Client

open Lib
open Lib.Discipline

/-- Tabs that share an inbox. -/
structure Tabs where
  inbox : Database
  tab : Nat → Tab

section Tabs

variable (scope : InboxScope) (seqOf : String → JsNumber) (tabOf : Tid → Nat)

/-- Envelopes of the device carry the sequence that belongs to their id. -/
def Corresponds (e : MessageEnvelope) : Prop :=
  e.recipient_device_id = scope.deviceId → e.mailbox_seq = seqOf e.id

/-- What the server may answer: anything, up to `Corresponds`. -/
def MayAnswer : (g : Request) → g.Reply → Prop
  | .getMailbox _ _ _, page =>
      ∀ e ∈ page.envelopes, Corresponds scope seqOf e.toMessageEnvelope
  | .acknowledgeEnvelope _ _, receipt => Corresponds scope seqOf receipt
  | .sendMessage _ _, _ => True
  | .findSentMessage _, _ => True
  | .getDestinationDevices _, _ => True
  | .getSentMessages _ _ _, _ => True
  | .getChatStates _ _, _ => True
  | .advanceReadCursor _ _, _ => True

/-- The calls of a thread; it belongs to tab `tabOf t`. -/
def Tabs.exec (t : Tid) : (c : Call) → Tabs → c.Answer → Tabs → Prop
  | .inbox tx, s, r, s' =>
      ∃ db, (Inbox.runs tx s.inbox r db ∨ Inbox.aborts s.inbox r db) ∧
        s' = { s with inbox := db }
  | .request _, s, _, s' => s' = s
  | .response g, s, r, s' => s' = s ∧ ∀ a, r = .ok a → MayAnswer scope seqOf g a
  | .notify _, s, _, s' => s' = s
  | c, s, r, s' =>
      ∃ l, Tab.exec c (s.tab (tabOf t)) r l ∧
        s' = { s with tab := Function.update s.tab (tabOf t) l }

/-- A tab signs in to the scope or signs out. -/
def Tabs.signs (s s' : Tabs) : Prop :=
  ∃ i ref, (∀ r, ref = some r → r.scope = scope) ∧
    s' = { s with tab := Function.update s.tab i (s.tab i |>.signed ref) }

/-- The tabs as a concurrent system. -/
def tabsSystem : System Call Call.Answer JsError Tabs SyncOp where
  exec := Tabs.exec scope seqOf tabOf
  prog := fun _ op => op.prog
  start := fun _ op s s' => s' = s ∧
    match op with
    | .ingest envelope => Corresponds scope seqOf envelope.toMessageEnvelope
    | _ => True
  stop := fun _ s s' => s' = s
  env := Tabs.signs scope

/-- The envelope has its place among the first `n` sequences. -/
def Placed (n : ℤ) (e : MailboxEnvelope) : Prop :=
  e.recipient_device_id = scope.deviceId ∧
    ∃ z, e.mailbox_seq = .integer z ∧ seqOf e.id = .integer z ∧ 1 ≤ z ∧ z ≤ n

/-- The stored envelopes of the scope are a complete prefix of the mailbox. -/
structure Prefix (db : Database) : Prop where
  rows : Rows db.envelopes
  placed : ∀ id e, envelopeAt scope id db.envelopes = some e →
    Placed scope seqOf (cursorAt (scopeKey scope) db) e
  complete : ∀ z, 1 ≤ z → z ≤ cursorAt (scopeKey scope) db →
    ∃ id e, envelopeAt scope id db.envelopes = some e ∧ e.mailbox_seq = .integer z
  nonneg : 0 ≤ cursorAt (scopeKey scope) db

/-- States a run may start in: every tab is signed out or in the scope, and
the inbox is a complete prefix, for instance an empty one. -/
def Tabs.Initial (s : Tabs) : Prop :=
  Prefix scope seqOf s.inbox ∧
    ∀ i ref, (s.tab i).memory.current = some ref → ref.scope = scope

end Tabs

variable {scope : InboxScope} {seqOf : String → JsNumber} {tabOf : Tid → Nat}

/-- A database without records of the scope is a complete prefix. -/
theorem prefix_fresh {db : Database} (hrows : Rows db.envelopes)
    (hnone : storedEnvelopes scope db.envelopes = [])
    (hcursor : cursorAt (scopeKey scope) db = 0) : Prefix scope seqOf db := by
  refine ⟨hrows, fun id e he => ?_, fun z h₁ h₂ => by omega, hcursor.ge⟩
  have hid := envelopeAt_id hrows he
  subst hid
  rw [← mem_storedEnvelopes hrows, hnone] at he
  cases he

section Checks

variable {deviceId : String} {cursor expected : ℤ} {es : List MailboxEnvelope}

/-- The envelopes of a valid page fill the interval after the cursor. -/
theorem checkEnvelopes_mem (h : checkEnvelopes deviceId cursor es = .ok expected) :
    ∀ e ∈ es, e.recipient_device_id = deviceId ∧
      ∃ z, e.mailbox_seq = .integer z ∧ cursor < z ∧ z ≤ expected := by
  induction es generalizing cursor with
  | nil => simp
  | cons e rest ih =>
      rw [checkEnvelopes] at h
      split_ifs at h with hbad
      simp only [not_or, not_ne_iff] at hbad
      have hle := checkEnvelopes_le h
      intro e' he'
      rcases List.mem_cons.mp he' with rfl | he'
      · exact ⟨hbad.1, cursor + 1, hbad.2.2, by omega, by omega⟩
      · obtain ⟨hr, z, hz, h₁, h₂⟩ := ih h e' he'
        exact ⟨hr, z, hz, by omega, h₂⟩

theorem checkEnvelopes_complete (h : checkEnvelopes deviceId cursor es = .ok expected)
    {z : ℤ} (h₁ : cursor < z) (h₂ : z ≤ expected) :
    ∃ e ∈ es, e.mailbox_seq = .integer z := by
  induction es generalizing cursor with
  | nil =>
      simp only [checkEnvelopes, Except.ok.injEq] at h
      omega
  | cons e rest ih =>
      rw [checkEnvelopes] at h
      split_ifs at h with hbad
      simp only [not_or, not_ne_iff] at hbad
      by_cases hz : z = cursor + 1
      · exact ⟨e, List.mem_cons_self, by rw [hbad.2.2, hz]⟩
      · obtain ⟨e', he', hseq⟩ := ih h (by omega)
        exact ⟨e', List.mem_cons_of_mem _ he', hseq⟩

theorem liveSeq_ok {e : MailboxEnvelope} {seq : ℤ} (h : liveSeq scope e = .ok seq) :
    e.recipient_device_id = scope.deviceId ∧ e.mailbox_seq = .integer seq ∧ 1 ≤ seq := by
  unfold liveSeq at h
  split_ifs at h with hrec
  refine ⟨not_not.mp hrec, ?_⟩
  cases hseq : e.mailbox_seq with
  | other => simp [hseq] at h
  | integer z =>
      simp only [hseq] at h
      split_ifs at h with hbad
      simp only [not_or, not_lt] at hbad
      simp only [Except.ok.injEq] at h
      subst h
      exact ⟨rfl, hbad.2⟩

theorem validateReceipt_ok {e : MailboxEnvelope} {receipt : MessageEnvelope}
    (h : validateReceipt scope e receipt = .ok ()) :
    receipt.id = e.id ∧ receipt.message_id = e.message_id ∧
      receipt.recipient_device_id = scope.deviceId ∧ receipt.delivered_at ≠ none := by
  unfold validateReceipt at h
  split_ifs at h with hbad
  simpa only [not_or, not_ne_iff] using hbad

end Checks

section Commit

variable {cursor next : ℤ} {es : List MailboxEnvelope} {db db' : Database}

/-- A commit of placed envelopes that leaves no gap keeps the prefix. -/
theorem Prefix.commit (h : Prefix scope seqOf db)
    (hc : Committing scope cursor es next db db')
    (hplaced : ∀ e ∈ es, Placed scope seqOf next e)
    (hnew : ∀ z, cursor < z → z ≤ next → ∃ e ∈ es, e.mailbox_seq = .integer z) :
    Prefix scope seqOf db' := by
  have hcur := hc.cursor_eq
  have hle := hc.le
  refine ⟨?_, ?_, ?_, ?_⟩
  · rw [hc.envelopes']
    exact rows_foldl h.rows
  · rw [hc.cursor', hc.envelopes']
    refine envelopeAt_foldl_forall (fun _ e => Placed scope seqOf next e)
      (fun id e he => ?_) (fun e he existing _ _ => hplaced e he)
    obtain ⟨hr, z, hz, hs, h₁, h₂⟩ := h.placed id e he
    exact ⟨hr, z, hz, hs, h₁, by omega⟩
  · rw [hc.cursor', hc.envelopes']
    intro z h₁ h₂
    -- what was stored with sequence `z` is overwritten only by the same sequence
    have hsame : ∀ e ∈ es, ∀ id, seqOf id = .integer z → e.id = id →
        e.mailbox_seq = .integer z := by
      intro e he id hs hid
      obtain ⟨-, y, hy, hsy, -, -⟩ := hplaced e he
      rw [hid, hs] at hsy
      rw [hy, ← hsy]
    by_cases hold : z ≤ cursor
    · obtain ⟨id, e, he, hseq⟩ := h.complete z h₁ (by omega)
      have hid := envelopeAt_id h.rows he
      obtain ⟨-, y, hy, hsy, -, -⟩ := h.placed id e he
      rw [hseq] at hy
      rw [hid, ← hy] at hsy
      exact ⟨id, envelopeAt_foldl_keeps ⟨e, he, hseq⟩ fun e' he' x _ hid' _ =>
        hsame e' he' id hsy hid'⟩
    · obtain ⟨e, he, hseq⟩ := hnew z (by omega) h₂
      obtain ⟨-, y, hy, hsy, -, -⟩ := hplaced e he
      rw [hseq] at hy
      rw [← hy] at hsy
      exact ⟨e.id, envelopeAt_foldl_mem he (fun _ _ => hseq) fun e' he' x _ hid' _ =>
        hsame e' he' e.id hsy hid'⟩
  · rw [hc.cursor']
    have := h.nonneg
    omega

end Commit

section Discipline

variable (scope seqOf)

/-- The invariant is the initial condition; the cursor only grows. -/
def tabsDiscipline : Discipline Tabs where
  inv := Tabs.Initial scope seqOf
  grow := fun s s' =>
    cursorAt (scopeKey scope) s.inbox ≤ cursorAt (scopeKey scope) s'.inbox
  own := fun _ _ _ => True
  grow_refl := fun _ => le_rfl
  grow_trans := fun h₁ h₂ => le_trans h₁ h₂
  own_refl := fun _ _ => trivial
  own_trans := fun _ _ => trivial

variable {scope seqOf}

variable {t : Tid} {s s' : Tabs}

theorem keeps_tab (hi : Tabs.Initial scope seqOf s) {i : Nat} {l : Tab}
    (hl : ∀ ref, l.memory.current = some ref → ref.scope = scope) :
    (tabsDiscipline scope seqOf).Keeps t s
      { s with tab := Function.update s.tab i l } := by
  refine ⟨⟨hi.1, fun j ref hj => ?_⟩, le_rfl, fun _ _ => trivial⟩
  by_cases hji : j = i
  · subst hji
    simp only [Function.update_self] at hj
    exact hl ref hj
  · simp only [Function.update_of_ne hji] at hj
    exact hi.2 j ref hj

theorem keeps_inbox (hi : Tabs.Initial scope seqOf s) {db : Database}
    (hdb : Prefix scope seqOf db)
    (hle : cursorAt (scopeKey scope) s.inbox ≤ cursorAt (scopeKey scope) db) :
    (tabsDiscipline scope seqOf).Keeps t s { s with inbox := db } :=
  ⟨⟨hdb, hi.2⟩, hle, fun _ _ => trivial⟩

/-- A transaction that changes neither envelopes nor cursor. -/
theorem keeps_reads {α : Type} {tx : Transaction α} {r : Except JsError α}
    (hi : Tabs.Initial scope seqOf s)
    (htx : ∀ a db, tx s.inbox = .ok (a, db) → db.envelopes = s.inbox.envelopes ∧
      cursorAt (scopeKey scope) db = cursorAt (scopeKey scope) s.inbox)
    (hx : Tabs.exec scope seqOf tabOf t (.inbox tx) s r s') :
    (tabsDiscipline scope seqOf).Keeps t s s' := by
  obtain ⟨db, hrun, rfl⟩ := hx
  have hsame : db.envelopes = s.inbox.envelopes ∧
      cursorAt (scopeKey scope) db = cursorAt (scopeKey scope) s.inbox := by
    rcases hrun with (⟨a, ha, -⟩ | ⟨x, -, -, rfl⟩) | ⟨-, rfl⟩
    · exact htx a db ha
    · exact ⟨rfl, rfl⟩
    · exact ⟨rfl, rfl⟩
  refine keeps_inbox hi ?_ hsame.2.ge
  obtain ⟨h₁, h₂, h₃, h₄⟩ := hi.1
  exact ⟨hsame.1 ▸ h₁, by rw [hsame.1, hsame.2]; exact h₂,
    by rw [hsame.1, hsame.2]; exact h₃, by rw [hsame.2]; exact h₄⟩

/-- A commit in one of the shapes the code uses. -/
theorem keeps_commit {cursor next : ℤ} {es : List MailboxEnvelope}
    {r : Except JsError (List MailboxEnvelope)} (hi : Tabs.Initial scope seqOf s)
    (hplaced : cursor ≤ next → cursorAt (scopeKey scope) s.inbox = cursor →
      (∀ e ∈ es, Placed scope seqOf next e) ∧
        ∀ z, cursor < z → z ≤ next → ∃ e ∈ es, e.mailbox_seq = .integer z)
    (hx : Tabs.exec scope seqOf tabOf t
      (.inbox (commitPage scope cursor es (.integer next))) s r s') :
    (tabsDiscipline scope seqOf).Keeps t s s' ∧
      ∀ cs, r = .ok cs → cursorAt (scopeKey scope) s'.inbox = next := by
  obtain ⟨db, hrun, rfl⟩ := hx
  have hfail : ∀ x, r = .error x → db = s.inbox →
      (tabsDiscipline scope seqOf).Keeps t s { s with inbox := db } ∧
        ∀ cs, r = .ok cs → cursorAt (scopeKey scope) db = next := by
    rintro x rfl rfl
    exact ⟨keeps_inbox hi hi.1 le_rfl, by simp⟩
  rcases hrun with (⟨cs, hok, rfl⟩ | ⟨x, -, rfl, hdb⟩) | ⟨⟨x, rfl⟩, hdb⟩
  · obtain ⟨hc, -⟩ := commitPage_ok hok
    obtain ⟨hp, hnew⟩ := hplaced hc.le hc.cursor_eq
    refine ⟨keeps_inbox hi (hi.1.commit hc hp hnew) ?_, fun _ _ => hc.cursor'⟩
    rw [hc.cursor', hc.cursor_eq]
    exact hc.le
  · exact hfail x rfl hdb
  · exact hfail x rfl hdb

/-- What is committed has its place, in each of the three shapes. -/
theorem commit_placed {cursor next : ℤ} {es : List MailboxEnvelope}
    (h : Commit scope
      (fun e _ => Corresponds scope seqOf e.toMessageEnvelope)
      (fun e s => ∃ z, seqOf e.id = .integer z ∧ 1 ≤ z ∧
        z ≤ cursorAt (scopeKey scope) s.inbox)
      (fun _ r _ => Corresponds scope seqOf r)
      (fun n s => 0 ≤ n ∧ n ≤ cursorAt (scopeKey scope) s.inbox) s cursor es next)
    (hcur : cursorAt (scopeKey scope) s.inbox = cursor) :
    (∀ e ∈ es, Placed scope seqOf next e) ∧
      ∀ z, cursor < z → z ≤ next → ∃ e ∈ es, e.mailbox_seq = .integer z := by
  cases h with
  | @page after _ expected _ hafter hvalid hserved =>
      refine ⟨fun e he => ?_, fun z h₁ h₂ => ?_⟩
      · obtain ⟨hr, z, hz, h₁, h₂⟩ := checkEnvelopes_mem hvalid e he
        have := (hserved e he hr).symm.trans hz
        exact ⟨hr, z, hz, this, by omega, le_trans h₂ (le_max_right _ _)⟩
      · refine checkEnvelopes_complete hvalid (by omega) ?_
        rcases le_max_iff.mp h₂ with h | h
        · omega
        · exact h
  | @live _ seq envelope hlive hseq hserved =>
      obtain ⟨hr, hz, hpos⟩ := liveSeq_ok hlive
      refine ⟨fun e he => ?_, fun z h₁ h₂ => ?_⟩
      · obtain rfl := List.mem_singleton.mp he
        exact ⟨hr, seq, hz, (hserved hr).symm.trans hz, hpos, le_max_right _ _⟩
      · have hzseq : z = seq := by
          rcases le_max_iff.mp h₂ with h | h <;> omega
        exact ⟨envelope, List.mem_singleton_self _, by rw [hz, hzseq]⟩
  | @receipt _ envelope receipt hkept hanswer hvalid =>
      obtain ⟨hid, -, hr, -⟩ := validateReceipt_ok hvalid
      obtain ⟨z, hz, h₁, h₂⟩ := hkept
      refine ⟨fun e he => ?_, fun z h₁ h₂ => by omega⟩
      obtain rfl := List.mem_singleton.mp he
      have hseq : receipt.mailbox_seq = .integer z := by
        rw [hanswer hr, hid, hz]
      exact ⟨hr, z, hseq, by simpa [acknowledgedEnvelope, hid] using hz, h₁, by omega⟩

/-- The calls of `SyncManager` in the shared inbox. -/
def tabsContract (t : Tid) (ref : ScopeRef) (href : ref.scope = scope) :
    SyncContract (tabsDiscipline scope seqOf) (Tabs.exec scope seqOf tabOf) t ref where
  Served := fun e _ => Corresponds scope seqOf e.toMessageEnvelope
  Kept := fun e s => ∃ z, seqOf e.id = .integer z ∧ 1 ≤ z ∧
    z ≤ cursorAt (scopeKey scope) s.inbox
  Answered := fun _ r _ => Corresponds scope seqOf r
  Reached := fun n s => 0 ≤ n ∧ n ≤ cursorAt (scopeKey scope) s.inbox
  At := fun _ _ => True
  Tracked := fun _ _ => True
  Failed := fun _ => True
  Covers := fun _ _ => True
  LackAfter := fun _ _ => True
  LackUpTo := fun _ _ => True
  Asked := fun _ _ _ => True
  Calm := fun _ _ => True
  served_grow := fun h _ => h
  kept_grow := by
    rintro e s s' ⟨z, hz, h₁, h₂⟩ hg
    exact ⟨z, hz, h₁, le_trans h₂ hg⟩
  answered_grow := fun h _ => h
  reached_grow := fun h hg => ⟨h.1, le_trans h.2 hg⟩
  lackAfter_grow := fun _ _ => trivial
  lackUpTo_grow := fun _ _ => trivial
  lackAfter_zero := fun _ => trivial
  calm_drift := fun _ => trivial
  calm_trans := fun _ _ => trivial
  at_calm := fun _ _ => trivial
  tracked_calm := fun _ _ => trivial
  failed_calm := fun _ _ => trivial
  asked_drift := fun _ _ => trivial
  reached_le := fun h h₀ hle => ⟨h₀, le_trans hle h.2⟩
  reached_zero := fun hi => ⟨le_rfl, hi.1.nonneg⟩
  on_current := by
    rintro s b s' hi ⟨l, ⟨-, rfl⟩, rfl⟩
    exact ⟨keeps_tab hi (hi.2 _), trivial, fun _ => trivial⟩
  on_transport := by
    rintro s via s' hi ⟨l, rfl, rfl⟩
    exact ⟨keeps_tab hi (hi.2 _), trivial⟩
  on_cursor := by
    subst href
    intro ch s r s' hi _ hx
    have hk := keeps_reads hi (fun a db ha => by rw [(readCursor_ok ha).2]; simp) hx
    refine ⟨hk, trivial, fun n hr => ⟨?_, trivial, trivial⟩, fun _ _ => trivial⟩
    obtain ⟨db, hrun, rfl⟩ := hx
    rcases hrun with (⟨a, ha, rfl⟩ | ⟨x, -, rfl, -⟩) | ⟨⟨x, rfl⟩, -⟩
    · obtain ⟨rfl, rfl⟩ := readCursor_ok ha
      obtain rfl := Except.ok.inj hr
      exact ⟨hi.1.nonneg, le_rfl⟩
    · cases hr
    · cases hr
  on_pending := by
    subst href
    intro s r s' hi hx
    have hk := keeps_reads hi (fun a db ha => by
      rw [(getPendingAcknowledgments_ok hi.1.rows ha).1]; simp) hx
    refine ⟨hk, trivial, fun es hr e he => ?_, fun _ _ => trivial⟩
    obtain ⟨db, hrun, rfl⟩ := hx
    rcases hrun with (⟨a, ha, rfl⟩ | ⟨x, -, rfl, -⟩) | ⟨⟨x, rfl⟩, -⟩
    · obtain ⟨rfl, hmem⟩ := getPendingAcknowledgments_ok hi.1.rows ha
      obtain rfl := Except.ok.inj hr
      obtain ⟨-, z, -, hz, h₁, h₂⟩ := hi.1.placed e.id e (hmem e he)
      exact ⟨z, hz, h₁, h₂⟩
    · cases hr
    · cases hr
  on_needs := by
    subst href
    intro s r s' hi hx
    exact ⟨keeps_reads hi (fun a db ha => by rw [needsSequenceBackfill_ok ha]; simp) hx,
      trivial, fun _ _ => trivial⟩
  on_finish := by
    subst href
    intro a b s r s' hi _ _ _ hx
    refine ⟨keeps_reads hi (fun a db ha => ?_) hx, trivial, fun _ _ => trivial⟩
    obtain ⟨h₁, h₂, -⟩ := finishSequenceBackfill_ok ha
    exact ⟨h₂, h₁⟩
  on_mailbox_request := by
    rintro s via after es r s' hi - - rfl
    exact ⟨Keeps.refl hi, trivial, trivial⟩
  on_mailbox := by
    rintro s via after es r s' hi - - ⟨rfl, hr⟩
    refine ⟨Keeps.refl hi, trivial, fun page hpage => ⟨hr page hpage, ?_, ?_⟩, ?_⟩
    · exact fun _ _ => trivial
    · exact ⟨fun _ _ _ _ _ _ _ => trivial, fun _ _ _ => trivial⟩
    · exact fun _ _ => trivial
  on_ack_request := by
    rintro s via e r s' hi - - - rfl
    exact ⟨Keeps.refl hi, trivial⟩
  on_ack := by
    rintro s via e r s' hi - ⟨rfl, hr⟩
    exact ⟨Keeps.refl hi, trivial, fun receipt hreceipt =>
      ⟨hr receipt hreceipt, fun _ _ => trivial⟩⟩
  on_commit := by
    subst href
    intro ch s cursor es next r s' hi _ _ hcommit hx
    obtain ⟨hk, hcur⟩ := keeps_commit hi (fun _ => commit_placed hcommit) hx
    refine ⟨hk, fun cs hr => ⟨trivial, ⟨?_, (hcur cs hr).ge⟩, trivial, fun _ _ _ => trivial⟩,
      fun _ _ => ⟨trivial, trivial⟩⟩
    rw [← hcur cs hr]
    exact hk.inv.1.nonneg
  on_fill := fun _ _ _ _ _ _ _ => trivial
  on_gap := fun _ _ _ _ _ => trivial

end Discipline

section Runs

variable {s : Tabs} {t : Tid}

theorem tabCalls : TabCalls (tabsDiscipline scope seqOf) (Tabs.exec scope seqOf tabOf) t scope where
  on_scope := by
    rintro s ref s' hi ⟨l, ⟨rfl, rfl⟩, rfl⟩
    exact ⟨keeps_tab hi (hi.2 _), fun r hr => hi.2 _ r hr⟩
  on_enqueue := by
    rintro s place s' hi ⟨l, ⟨-, rfl⟩, rfl⟩
    exact keeps_tab hi (hi.2 _)
  on_turn := by
    rintro s place u s' hi ⟨l, ⟨-, rfl⟩, rfl⟩
    exact keeps_tab hi (hi.2 _)
  on_leave := by
    rintro s place u s' hi ⟨l, rfl, rfl⟩
    exact keeps_tab hi (hi.2 _)

/-- The tabs keep the discipline. -/
theorem tabs_respected :
    (tabsDiscipline scope seqOf).Respected (tabsSystem scope seqOf tabOf) where
  start := by
    rintro t op s s' hi - ⟨rfl, hop⟩
    refine ⟨Keeps.refl hi, tabCalls.safe_operation (tabsContract t) (fun _ _ _ => trivial)
      (fun _ _ _ => trivial) op ?_⟩
    rintro e rfl _ _
    exact hop
  stop := by
    rintro t s s' hi rfl
    exact ⟨Keeps.refl hi, trivial⟩
  env := by
    rintro s s' hi ⟨i, ref, href, rfl⟩ t
    exact ⟨keeps_tab hi fun r hr => href r hr, trivial⟩

/-- The sequences of a complete prefix, each once. -/
theorem Prefix.perm {db : Database} (h : Prefix scope seqOf db)
    (hinj : ∀ id id' z, seqOf id = .integer z → seqOf id' = .integer z → id = id') :
    ((storedEnvelopes scope db.envelopes).map (·.mailbox_seq)).Perm
      ((List.range (cursorAt (scopeKey scope) db).toNat).map
        fun i : Nat => JsNumber.integer (i + 1)) := by
  have hplaced : ∀ e ∈ storedEnvelopes scope db.envelopes,
      Placed scope seqOf (cursorAt (scopeKey scope) db) e :=
    fun e he => h.placed e.id e ((mem_storedEnvelopes h.rows).mp he)
  refine (List.perm_ext_iff_of_nodup ?_ ?_).mpr fun q => ?_
  · -- distinct ids have distinct sequences
    refine List.Nodup.map_on ?_ (List.Nodup.of_map _ (nodup_storedEnvelopes h.rows))
    intro e he e' he' hseq
    obtain ⟨-, z, hz, hs, -, -⟩ := hplaced e he
    obtain ⟨-, z', hz', hs', -, -⟩ := hplaced e' he'
    rw [hz, hz', JsNumber.integer.injEq] at hseq
    subst hseq
    have hid := hinj e.id e'.id z hs hs'
    rw [mem_storedEnvelopes h.rows] at he he'
    rw [hid, he'] at he
    exact (Option.some.inj he).symm
  · refine List.Nodup.map_on ?_ List.nodup_range
    intro i _ j _ hij
    simpa using hij
  · simp only [List.mem_map, List.mem_range]
    constructor
    · rintro ⟨e, he, rfl⟩
      obtain ⟨-, z, hz, -, h₁, h₂⟩ := hplaced e he
      exact ⟨(z - 1).toNat, by omega, by rw [hz]; congr 1; omega⟩
    · rintro ⟨i, hi, rfl⟩
      obtain ⟨id, e, he, hseq⟩ := h.complete (i + 1) (by omega) (by omega)
      have hid := envelopeAt_id h.rows he
      subst hid
      exact ⟨e, (mem_storedEnvelopes h.rows).mpr he, hseq⟩

/-- **Main result.**  In every reachable state the stored envelopes of the
scope carry exactly the sequences `1` to the cursor, each once, all are
addressed to the device, and along every run the cursor never decreases. -/
theorem inbox_complete_up_to_cursor
    (hinj : ∀ id id' z, seqOf id = .integer z → seqOf id' = .integer z → id = id')
    {p : Pool Call Call.Answer JsError Tabs}
    (hp : System.Reachable (tabsSystem scope seqOf tabOf)
      (Tabs.Initial scope seqOf) p) :
    ((storedEnvelopes scope p.shared.inbox.envelopes).map (·.mailbox_seq)).Perm
        ((List.range (cursorAt (scopeKey scope) p.shared.inbox).toNat).map
          fun i : Nat => JsNumber.integer (i + 1)) ∧
      (∀ e ∈ storedEnvelopes scope p.shared.inbox.envelopes,
        e.recipient_device_id = scope.deviceId) ∧
      0 ≤ cursorAt (scopeKey scope) p.shared.inbox ∧
      ∀ p', System.Reaches (tabsSystem scope seqOf tabOf) p p' →
        cursorAt (scopeKey scope) p.shared.inbox ≤
          cursorAt (scopeKey scope) p'.shared.inbox := by
  have hinv := (Discipline.sound tabs_respected (fun _ h => ⟨h, fun _ => trivial⟩) hp).inv
  refine ⟨hinv.1.perm hinj, fun e he => ?_, hinv.1.nonneg, fun p' hrun => ?_⟩
  · exact (hinv.1.placed e.id e ((mem_storedEnvelopes hinv.1.rows).mp he)).1
  · exact Discipline.grows tabs_respected (fun _ h => ⟨h, fun _ => trivial⟩) hp hrun

section FirstEnvelope

/-- Sequences of a mailbox with one envelope. -/
def firstSeqOf (id : String) : JsNumber :=
  if id = "e1" then .integer 1 else .other

theorem firstSeqOf_inj (id id' : String) (z : ℤ) (h : firstSeqOf id = .integer z)
    (h' : firstSeqOf id' = .integer z) : id = id' := by
  unfold firstSeqOf at h h'
  split_ifs at h h' with h₁ h₂
  rw [h₁, h₂]

/-- The tabs of a device that is signed in. -/
def emptyTabs : Tabs :=
  ⟨emptyInbox, fun _ => { memory := { current := some ⟨phoneScope, 0⟩ } }⟩

theorem emptyTabs_initial : Tabs.Initial phoneScope firstSeqOf emptyTabs := by
  refine ⟨prefix_fresh rows_nil rfl rfl, ?_⟩
  rintro i ref h
  obtain rfl := Option.some.inj h
  rfl

/-- A live envelope has been committed, and its acknowledgment comes next. -/
theorem reachable_committed :
    ∃ p : Pool Call Call.Answer JsError Tabs,
      System.Reachable (tabsSystem phoneScope firstSeqOf id)
        (Tabs.Initial phoneScope firstSeqOf) p ∧
        p.shared.inbox = phoneInbox := by
  have h : System.Reachable (tabsSystem phoneScope firstSeqOf id)
      (Tabs.Initial phoneScope firstSeqOf) (System.idle emptyTabs) := .idle emptyTabs_initial
  have h := h.starts 0 (.ingest phoneEnvelope) rfl ⟨rfl, fun _ => rfl⟩
  have h := h.acts 0 rfl (some ⟨phoneScope, 0⟩) ⟨_, ⟨rfl, rfl⟩, rfl⟩
  have h := h.acts 0 rfl (0 : Nat) ⟨_, ⟨rfl, rfl⟩, rfl⟩
  have h := h.acts 0 rfl () ⟨_, ⟨fun q hq => absurd hq (Nat.not_lt_zero q), rfl⟩, rfl⟩
  have h := h.acts 0 rfl true ⟨_, ⟨rfl, rfl⟩, rfl⟩
  have h := h.acts 0 rfl (.ok 0) ⟨_, .inl (.inl ⟨_, readCursor_emptyInbox, rfl⟩), rfl⟩
  have h := h.acts 0 rfl true ⟨_, ⟨rfl, rfl⟩, rfl⟩
  obtain ⟨cs, hcommit⟩ := commitPage_phoneEnvelope
  have h := h.acts 0 rfl (.ok cs) ⟨_, .inl (.inl ⟨_, hcommit, rfl⟩), rfl⟩
  exact ⟨_, h, rfl⟩

theorem inbox_complete_up_to_cursor_committed :
    ∃ p : Pool Call Call.Answer JsError Tabs,
      System.Reachable (tabsSystem phoneScope firstSeqOf id)
        (Tabs.Initial phoneScope firstSeqOf) p ∧
        ((storedEnvelopes phoneScope p.shared.inbox.envelopes).map (·.mailbox_seq)).Perm
          [.integer 1] ∧
        ∀ p', System.Reaches (tabsSystem phoneScope firstSeqOf id) p p' →
          1 ≤ cursorAt (scopeKey phoneScope) p'.shared.inbox := by
  obtain ⟨p, hp, hinbox⟩ := reachable_committed
  obtain ⟨hperm, -, -, hgrows⟩ := inbox_complete_up_to_cursor firstSeqOf_inj hp
  have hcursor : cursorAt (scopeKey phoneScope) p.shared.inbox = 1 := by
    rw [hinbox]
    exact cursorAt_putCursor _ _ _
  rw [hcursor] at hperm hgrows
  exact ⟨p, hp, hperm, hgrows⟩

end FirstEnvelope

end Runs

end Client
end SecureMessenger

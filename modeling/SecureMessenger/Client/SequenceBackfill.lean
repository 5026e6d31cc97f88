import SecureMessenger.Client.Prefix
import SecureMessenger.Lib.Total

/-!
# The sequence backfill

An inbox filled before envelopes carried chat sequences may hold envelopes
without one.  `backfillSequences` reads the mailbox again from its start and
sets a flag when it is through.  The tabs of `Prefix` run against a server whose
envelopes all carry a chat sequence, and whose pages without more to come reach
the end of the mailbox.

It may stop anywhere and start again: its loop ends, and the flag is set only
when no stored envelope lacks a chat sequence.
-/

namespace SecureMessenger
namespace Client
namespace Backfill

open Lib
open Lib.Discipline

/-- Tabs that share an inbox, and the mailbox of the server. -/
structure Mail where
  tabs : Tabs
  /-- The last sequence of the mailbox. -/
  last : ℤ
  /-- What it was when a thread last asked for something. -/
  asked : Tid → ℤ

namespace Mail

variable (scope : InboxScope) (seqOf : String → JsNumber) (payloads : String → String → Prop)
  (tabOf : Tid → Nat)

/-- An envelope as the server serves it: it has a chat sequence, its place in
the mailbox, and one of its payloads if any. -/
structure Whole (last : ℤ) (e : MailboxEnvelope) : Prop where
  corresponds : Corresponds scope seqOf e.toMessageEnvelope
  sequenced : e.chat_seq ≠ none
  within : ∀ z, e.mailbox_seq = .integer z → z ≤ last
  payload : ∀ p, e.payload = some p → payloads e.id p

/-- What the server may answer.  Pages may have gaps, which the client finds;
but one without more to come reaches at least the end the mailbox had when the
page was asked for. -/
def MayServe (s : Mail) (t : Tid) : (g : Request) → g.Reply → Prop
  | .getMailbox _ _ _, page =>
      (∀ e ∈ page.envelopes, Whole scope seqOf payloads s.last e) ∧
        (page.hasMore = false → ∀ n, page.nextSeq = .integer n → s.asked t ≤ n)
  | .acknowledgeEnvelope _ _, receipt => Corresponds scope seqOf receipt
  | _, _ => True

/-- The calls of a thread. -/
def exec (t : Tid) : (c : Call) → Mail → c.Answer → Mail → Prop
  | .request _, s, _, s' => s' = { s with asked := Function.update s.asked t s.last }
  | .response g, s, r, s' => s' = s ∧ ∀ a, r = .ok a → MayServe scope seqOf payloads s t g a
  | c, s, r, s' =>
      ∃ tabs, Tabs.exec scope seqOf tabOf t c s.tabs r tabs ∧ s' = { s with tabs := tabs }

/-- A tab signs in or out, or the mailbox becomes longer. -/
inductive Outside (s : Mail) : Mail → Prop
  | signs {tabs : Tabs} (h : Tabs.signs scope s.tabs tabs) : Outside s { s with tabs := tabs }
  | arrives {last : ℤ} (h : s.last ≤ last) : Outside s { s with last := last }

/-- The backfill flag is set. -/
def backfilled (db : Database) : Bool :=
  (Store.get Stored.key (recordKey (scopeKey scope) backfillId) db.cursors).isSome

/-- The inbox is a prefix of the mailbox, and if the flag is set all its
envelopes have a chat sequence. -/
structure Initial (s : Mail) : Prop where
  tabs : Tabs.Initial scope seqOf s.tabs
  last : cursorAt (scopeKey scope) s.tabs.inbox ≤ s.last
  filled : backfilled scope s.tabs.inbox = true →
    ∀ id e, envelopeAt scope id s.tabs.inbox.envelopes = some e → e.chat_seq ≠ none
  payload : ∀ id e p, envelopeAt scope id s.tabs.inbox.envelopes = some e →
    e.payload = some p → payloads id p

/-- What only grows. -/
structure Grows (s s' : Mail) : Prop where
  cursor : cursorAt (scopeKey scope) s.tabs.inbox ≤ cursorAt (scopeKey scope) s'.tabs.inbox
  last : s.last ≤ s'.last
  lacking : ∀ id e', envelopeAt scope id s'.tabs.inbox.envelopes = some e' → e'.chat_seq = none →
    ∃ e, envelopeAt scope id s.tabs.inbox.envelopes = some e ∧ e.chat_seq = none
  kept : ∀ id e, envelopeAt scope id s.tabs.inbox.envelopes = some e →
    ∃ e', envelopeAt scope id s'.tabs.inbox.envelopes = some e' ∧
      (e.payload ≠ none → e'.payload ≠ none)

end Mail

/-- The tabs and the server as a concurrent system. -/
def backfillSystem (scope : InboxScope) (seqOf : String → JsNumber)
    (payloads : String → String → Prop) (tabOf : Tid → Nat) :
    System Call Call.Answer JsError Mail SyncOp where
  exec := Mail.exec scope seqOf payloads tabOf
  prog := fun _ op => op.prog
  start := fun _ op s s' => s' = s ∧
    match op with
    | .ingest envelope => Mail.Whole scope seqOf payloads s.last envelope
    | _ => True
  stop := fun _ s s' => s' = s
  env := Mail.Outside scope

variable {scope : InboxScope} {seqOf : String → JsNumber} {payloads : String → String → Prop}
  {tabOf : Tid → Nat}

open Mail

theorem Mail.Grows.refl (s : Mail) : Grows scope s s :=
  ⟨le_rfl, le_rfl, fun _ e he hnone => ⟨e, he, hnone⟩, fun _ e he => ⟨e, he, fun hp => hp⟩⟩

theorem Mail.Grows.trans {s₁ s₂ s₃ : Mail} (h : Grows scope s₁ s₂) (h' : Grows scope s₂ s₃) :
    Grows scope s₁ s₃ := by
  constructor
  case cursor => exact le_trans h.cursor h'.cursor
  case last => exact le_trans h.last h'.last
  case lacking =>
    intro id e₃ he₃ hnone₃
    obtain ⟨e₂, he₂, hnone₂⟩ := h'.lacking id e₃ he₃ hnone₃
    exact h.lacking id e₂ he₂ hnone₂
  case kept =>
    intro id e₁ he₁
    obtain ⟨e₂, he₂, hp₂⟩ := h.kept id e₁ he₁
    obtain ⟨e₃, he₃, hp₃⟩ := h'.kept id e₂ he₂
    exact ⟨e₃, he₃, fun hp => hp₃ (hp₂ hp)⟩

/-- The invariant is the initial condition. -/
def backfillDiscipline (scope : InboxScope) (seqOf : String → JsNumber)
    (payloads : String → String → Prop) : Discipline Mail where
  inv := Initial scope seqOf payloads
  grow := Grows scope
  own := fun t s s' => s'.asked t = s.asked t
  grow_refl := Grows.refl
  grow_trans := Grows.trans
  own_refl := fun _ _ => rfl
  own_trans := fun h h' => h'.trans h

/-! ## What a commit leaves -/

section Store

variable {store : List (Stored MailboxEnvelope)} {es : List MailboxEnvelope}

/-- What a commit leaves without a chat sequence was stored without one, and is
not among what it wrote with one. -/
theorem lacking_foldl
    (hes : ∀ e ∈ es, e.chat_seq = none → ∃ x, envelopeAt scope e.id store = some x)
    {id : String} {e' : MailboxEnvelope}
    (he' : envelopeAt scope id (es.foldl (storeEnvelope scope) store) = some e')
    (hnone : e'.chat_seq = none) :
    (∃ e, envelopeAt scope id store = some e ∧ e.chat_seq = none) ∧
      ∀ e ∈ es, e.id = id → e.chat_seq = none := by
  have hmerge : ∀ (x e : MailboxEnvelope) (l : List EnvelopeProperty), x.chat_seq ≠ none →
      ((mergeEnvelope (some x) e).arrange l).chat_seq ≠ none := by
    intro x e l hx
    cases hc : e.chat_seq <;> simp [mergeEnvelope, MailboxEnvelope.arrange, hc, hx]
  have hwritten : ∀ e ∈ es, e.id = id → e.chat_seq = none := by
    rintro e he rfl
    by_contra hsome
    have hfirst : ∀ existing l, ((mergeEnvelope existing e).arrange l).chat_seq ≠ none := by
      intro existing l
      cases hc : e.chat_seq with
      | none => exact absurd hc hsome
      | some c => simp [mergeEnvelope, MailboxEnvelope.arrange, hc]
    obtain ⟨x, hx, hxs⟩ : ∃ x, envelopeAt scope e.id (es.foldl (storeEnvelope scope) store) =
        some x ∧ x.chat_seq ≠ none :=
      envelopeAt_foldl_mem he hfirst fun e₁ _ x l _ hx => hmerge x e₁ l hx
    rw [he', Option.some.injEq] at hx
    exact hxs (hx ▸ hnone)
  refine ⟨?_, hwritten⟩
  cases hstored : envelopeAt scope id store with
  | some e =>
      refine ⟨e, rfl, ?_⟩
      by_contra hsome
      obtain ⟨x, hx, hxs⟩ : ∃ x, envelopeAt scope id (es.foldl (storeEnvelope scope) store) =
          some x ∧ x.chat_seq ≠ none :=
        envelopeAt_foldl_keeps ⟨e, hstored, hsome⟩ fun e₁ _ x l _ hx => hmerge x e₁ l hx
      rw [he', Option.some.injEq] at hx
      exact hxs (hx ▸ hnone)
  | none =>
      -- a new record is written from an envelope with a chat sequence
      have hnew : (∃ x, envelopeAt scope id store = some x) ∨
          ∃ e ∈ es, e.id = id ∧ e.chat_seq ≠ none := by
        refine envelopeAt_foldl_forall (fun id' _ => (∃ x, envelopeAt scope id' store = some x) ∨
          ∃ e ∈ es, e.id = id' ∧ e.chat_seq ≠ none) (fun id' x hx => Or.inl ⟨x, hx⟩)
          (fun e he existing _ _ => ?_) id e' he'
        by_cases hc : e.chat_seq = none
        · exact Or.inl (hes e he hc)
        · exact Or.inr ⟨e, he, rfl, hc⟩
      rcases hnew with ⟨x, hx⟩ | ⟨e, he, hid, hc⟩
      · rw [hstored] at hx
        cases hx
      · exact absurd (hwritten e he hid) hc

theorem kept_foldl {id : String} {e : MailboxEnvelope}
    (he : envelopeAt scope id store = some e) :
    ∃ e', envelopeAt scope id (es.foldl (storeEnvelope scope) store) = some e' ∧
      (e.payload ≠ none → e'.payload ≠ none) := by
  refine envelopeAt_foldl_keeps (P := fun e' => e.payload ≠ none → e'.payload ≠ none)
    ⟨e, he, fun hp => hp⟩ fun e₁ _ x _ _ hx hp => ?_
  cases hq : e₁.payload <;> simp [mergeEnvelope, MailboxEnvelope.arrange, hq, hx hp]

theorem payload_foldl
    (hstore : ∀ id e p, envelopeAt scope id store = some e → e.payload = some p → payloads id p)
    (hes : ∀ e ∈ es, ∀ p, e.payload = some p → payloads e.id p) :
    ∀ id e p, envelopeAt scope id (es.foldl (storeEnvelope scope) store) = some e →
      e.payload = some p → payloads id p := by
  intro id e p he
  refine envelopeAt_foldl_forall (fun id e => ∀ p, e.payload = some p → payloads id p)
    (fun id e he p => hstore id e p he) (fun e he existing _ hexisting p hp => ?_) id e he p
  cases hq : e.payload with
  | some q =>
      have hpq : q = p := by simpa [mergeEnvelope, MailboxEnvelope.arrange, hq] using hp
      exact hes e he p (hpq ▸ hq)
  | none =>
      cases existing with
      | none => simp [mergeEnvelope, MailboxEnvelope.arrange, hq] at hp
      | some x =>
          exact hexisting x rfl p (by simpa [mergeEnvelope, MailboxEnvelope.arrange, hq] using hp)

end Store

/-! ## The discipline -/

section Discipline

variable {t : Tid} {s s' : Mail}

/-- The sequences of the stored envelopes without a chat sequence satisfy
`P`. -/
def Lacking (scope : InboxScope) (seqOf : String → JsNumber) (P : ℤ → Prop) (s : Mail) : Prop :=
  ∀ id e, envelopeAt scope id s.tabs.inbox.envelopes = some e → e.chat_seq = none →
    ∀ z, seqOf id = .integer z → P z

theorem Lacking.grow {P : ℤ → Prop} (h : Lacking scope seqOf P s) (hg : Grows scope s s') :
    Lacking scope seqOf P s' := by
  intro id e he hnone z hz
  obtain ⟨e₀, he₀, hnone₀⟩ := hg.lacking id e he hnone
  exact h id e₀ he₀ hnone₀ z hz

/-- The place of a stored envelope. -/
theorem Mail.Initial.placed (hi : Initial scope seqOf payloads s) {id : String}
    {e : MailboxEnvelope} (he : envelopeAt scope id s.tabs.inbox.envelopes = some e) :
    ∃ z, seqOf id = .integer z ∧ 1 ≤ z ∧ z ≤ cursorAt (scopeKey scope) s.tabs.inbox := by
  obtain ⟨-, z, -, hz, h₁, h₂⟩ := hi.tabs.1.placed id e he
  rw [envelopeAt_id hi.tabs.1.rows he] at hz
  exact ⟨z, hz, h₁, h₂⟩

theorem Mail.Initial.lacking_upto (hi : Initial scope seqOf payloads s) :
    Lacking scope seqOf (· ≤ cursorAt (scopeKey scope) s.tabs.inbox) s := by
  intro id e he _ z hz
  obtain ⟨y, hy, -, hle⟩ := hi.placed he
  rw [hz, JsNumber.integer.injEq] at hy
  omega

/-- A step that leaves the inbox as it is. -/
theorem keeps_still (hi : Initial scope seqOf payloads s) {tabs : Tabs}
    (htabs : Tabs.Initial scope seqOf tabs) (hinbox : tabs.inbox = s.tabs.inbox) :
    (backfillDiscipline scope seqOf payloads).Keeps t s { s with tabs := tabs } := by
  refine ⟨⟨htabs, ?_, ?_, ?_⟩, ⟨?_, le_rfl, ?_, ?_⟩, fun _ _ => rfl⟩ <;> rw [hinbox]
  · exact hi.last
  · exact hi.filled
  · exact hi.payload
  · exact fun id e he hnone => ⟨e, he, hnone⟩
  · exact fun id e he => ⟨e, he, fun hp => hp⟩

/-- A step of the tab alone. -/
theorem keeps_tabStep (hi : Initial scope seqOf payloads s) {i : Nat} {l : Tab}
    (hl : ∀ ref, l.memory.current = some ref → ref.scope = scope) :
    (backfillDiscipline scope seqOf payloads).Keeps t s
      { s with tabs := { s.tabs with tab := Function.update s.tabs.tab i l } } :=
  keeps_still hi (keeps_tab (t := t) hi.tabs hl).inv rfl

/-- A transaction that only reads. -/
theorem keeps_reading {α : Type} {tx : Transaction α} {r : Except JsError α}
    (hi : Initial scope seqOf payloads s)
    (htx : ∀ a db, tx s.tabs.inbox = .ok (a, db) → db = s.tabs.inbox)
    (hx : Mail.exec scope seqOf payloads tabOf t (.inbox tx) s r s') :
    (backfillDiscipline scope seqOf payloads).Keeps t s s' ∧
      s'.tabs.inbox = s.tabs.inbox ∧
      ∀ a, r = .ok a → ∃ db, tx s.tabs.inbox = .ok (a, db) := by
  obtain ⟨tabs, ⟨db, hrun, rfl⟩, rfl⟩ := hx
  have hsame : db = s.tabs.inbox ∧ ∀ a, r = .ok a → ∃ db, tx s.tabs.inbox = .ok (a, db) := by
    rcases hrun with (⟨a, ha, rfl⟩ | ⟨x, -, rfl, rfl⟩) | ⟨⟨x, rfl⟩, rfl⟩
    · exact ⟨htx a db ha, fun a' ha' => Except.ok.inj ha' ▸ ⟨db, ha⟩⟩
    · exact ⟨rfl, fun a ha => by cases ha⟩
    · exact ⟨rfl, fun a ha => by cases ha⟩
  obtain ⟨rfl, hr⟩ := hsame
  exact ⟨keeps_still hi hi.tabs rfl, rfl, hr⟩

/-- What the contract knows, in the terms of the tabs. -/
theorem commit_tabs {cursor next : ℤ} {es : List MailboxEnvelope}
    (h : Commit scope (fun e s => Whole scope seqOf payloads s.last e)
      (fun e s => (∃ x, envelopeAt scope e.id s.tabs.inbox.envelopes = some x) ∧
        (∀ p, e.payload = some p → payloads e.id p))
      (fun _ r _ => Corresponds scope seqOf r)
      (fun n s => 0 ≤ n ∧ n ≤ cursorAt (scopeKey scope) s.tabs.inbox) s cursor es next)
    (hi : Initial scope seqOf payloads s)
    (hcur : cursorAt (scopeKey scope) s.tabs.inbox = cursor) :
    ((∀ e ∈ es, Placed scope seqOf next e) ∧
      ∀ z, cursor < z → z ≤ next → ∃ e ∈ es, e.mailbox_seq = .integer z) ∧
    next ≤ s.last ∧
    (∀ e ∈ es, e.chat_seq = none →
      ∃ x, envelopeAt scope e.id s.tabs.inbox.envelopes = some x) ∧
    ∀ e ∈ es, ∀ p, e.payload = some p → payloads e.id p := by
  have htabs : Commit scope (fun e _ => Corresponds scope seqOf e.toMessageEnvelope)
      (fun e s => ∃ z, seqOf e.id = .integer z ∧ 1 ≤ z ∧
        z ≤ cursorAt (scopeKey scope) s.inbox) (fun _ r _ => Corresponds scope seqOf r)
      (fun n s => 0 ≤ n ∧ n ≤ cursorAt (scopeKey scope) s.inbox) s.tabs cursor es next := by
    cases h with
    | page hafter hvalid hserved =>
        exact .page hafter hvalid fun e he => (hserved e he).corresponds
    | live hlive hseq hserved => exact .live hlive hseq hserved.corresponds
    | receipt hkept hanswer hvalid =>
        obtain ⟨⟨x, hx⟩, -⟩ := hkept
        exact .receipt (hi.placed hx) hanswer hvalid
  have hplaced := commit_placed htabs hcur
  refine ⟨hplaced, ?_⟩
  have hlast := hi.last
  -- the envelope that carries the new cursor has been served
  have hreach : ∀ e ∈ es, Whole scope seqOf payloads s.last e →
      e.mailbox_seq = .integer next → next ≤ s.last := fun e _ hw hseq => hw.within next hseq
  cases h with
  | @page after _ expected _ hafter hvalid hserved =>
      refine ⟨?_, fun e he hnone => absurd hnone (hserved e he).sequenced,
        fun e he => (hserved e he).payload⟩
      by_cases hnew : cursor < max cursor expected
      · obtain ⟨e, he, hseq⟩ := hplaced.2 _ hnew le_rfl
        exact hreach e he (hserved e he) hseq
      · omega
  | @live _ seq envelope hlive hseq hserved =>
      refine ⟨?_, fun e he hnone => ?_, fun e he => ?_⟩
      · by_cases hnew : cursor < max cursor seq
        · obtain ⟨e, he, hseq⟩ := hplaced.2 _ hnew le_rfl
          obtain rfl := List.mem_singleton.mp he
          exact hreach e he hserved hseq
        · omega
      · obtain rfl := List.mem_singleton.mp he
        exact absurd hnone hserved.sequenced
      · obtain rfl := List.mem_singleton.mp he
        exact hserved.payload
  | @receipt _ envelope receipt hkept hanswer hvalid =>
      obtain ⟨hid, -, -, -⟩ := validateReceipt_ok hvalid
      obtain ⟨hstored, hpayload⟩ := hkept
      refine ⟨by omega, fun e he _ => ?_, fun e he => ?_⟩
      · obtain rfl := List.mem_singleton.mp he
        simpa [acknowledgedEnvelope, hid] using hstored
      · obtain rfl := List.mem_singleton.mp he
        simpa [acknowledgedEnvelope, hid] using hpayload

/-- A commit of the code keeps the discipline. -/
theorem keeps_committing {cursor next : ℤ} {es : List MailboxEnvelope}
    {r : Except JsError (List MailboxEnvelope)} (hi : Initial scope seqOf payloads s)
    (h : Commit scope (fun e s => Whole scope seqOf payloads s.last e)
      (fun e s => (∃ x, envelopeAt scope e.id s.tabs.inbox.envelopes = some x) ∧
        (∀ p, e.payload = some p → payloads e.id p))
      (fun _ r _ => Corresponds scope seqOf r)
      (fun n s => 0 ≤ n ∧ n ≤ cursorAt (scopeKey scope) s.tabs.inbox) s cursor es next)
    (hx : Mail.exec scope seqOf payloads tabOf t
      (.inbox (commitPage scope cursor es (.integer next))) s r s') :
    (backfillDiscipline scope seqOf payloads).Keeps t s s' ∧
      ∀ cs, r = .ok cs → cursorAt (scopeKey scope) s'.tabs.inbox = next := by
  obtain ⟨tabs, ⟨db, hrun, rfl⟩, rfl⟩ := hx
  have hfail : ∀ x, r = .error x → db = s.tabs.inbox →
      (backfillDiscipline scope seqOf payloads).Keeps t s
          { s with tabs := { s.tabs with inbox := db } } ∧
        ∀ cs, r = .ok cs → cursorAt (scopeKey scope) db = next := by
    rintro x rfl rfl
    exact ⟨keeps_still hi hi.tabs rfl, by simp⟩
  rcases hrun with (⟨cs, hok, rfl⟩ | ⟨x, -, rfl, hdb⟩) | ⟨⟨x, rfl⟩, hdb⟩
  · obtain ⟨hc, -⟩ := commitPage_ok hok
    obtain ⟨⟨hplaced, hnew⟩, hlast, hstored, hpayload⟩ := commit_tabs h hi hc.cursor_eq
    have henvelopes := hc.envelopes'
    have hflag : backfilled scope db = backfilled scope s.tabs.inbox := by
      unfold backfilled
      rw [hc.db_eq]
      show (Store.get Stored.key _ (Store.put Stored.key _ _)).isSome = _
      rw [Store.get_put_of_ne]
      exact fun hkey => recordKey_ne_scopeKey scope _ _ hkey.symm
    refine ⟨⟨⟨⟨hi.tabs.1.commit hc hplaced hnew, hi.tabs.2⟩, ?_, ?_, ?_⟩, ⟨?_, le_rfl, ?_, ?_⟩,
      fun _ _ => rfl⟩, fun _ _ => hc.cursor'⟩
    · exact hc.cursor'.le.trans hlast
    · intro hset id e he hnone
      rw [henvelopes] at he
      obtain ⟨⟨x, hx, hxs⟩, -⟩ := lacking_foldl hstored he hnone
      exact hi.filled (hflag ▸ hset) id x hx hxs
    · show ∀ id e p, envelopeAt scope id db.envelopes = some e → _
      rw [henvelopes]
      exact payload_foldl hi.payload hpayload
    · show cursorAt (scopeKey scope) s.tabs.inbox ≤ cursorAt (scopeKey scope) db
      rw [hc.cursor', hc.cursor_eq]
      exact hc.le
    · intro id e he hnone
      rw [henvelopes] at he
      exact (lacking_foldl hstored he hnone).1
    · intro id e he
      rw [henvelopes]
      exact kept_foldl he
  · exact hfail x rfl hdb
  · exact hfail x rfl hdb

/-- A page fills the envelopes it covers. -/
theorem lacking_fill (hinj : ∀ id id' z, seqOf id = .integer z → seqOf id' = .integer z → id = id')
    {after expected cursor next : ℤ} {es cs : List MailboxEnvelope}
    (hlack : Lacking scope seqOf (after < ·) s)
    (hcheck : checkEnvelopes scope.deviceId after es = .ok expected)
    (hserved : ∀ e ∈ es, Whole scope seqOf payloads s.last e)
    (hx : Mail.exec scope seqOf payloads tabOf t
      (.inbox (commitPage scope cursor es (.integer next))) s (.ok cs) s') :
    Lacking scope seqOf (expected < ·) s' := by
  obtain ⟨tabs, ⟨db, hrun, rfl⟩, rfl⟩ := hx
  rcases hrun with (⟨cs', hok, -⟩ | ⟨x, -, hr, -⟩) | ⟨⟨x, hr⟩, -⟩
  · obtain ⟨hc, -⟩ := commitPage_ok hok
    intro id e he hnone z hz
    have he : envelopeAt scope id db.envelopes = some e := he
    rw [hc.envelopes'] at he
    obtain ⟨⟨x, hx, hxs⟩, hwritten⟩ :=
      lacking_foldl (fun e he hnone => absurd hnone (hserved e he).sequenced) he hnone
    have hafter := hlack id x hx hxs z hz
    by_contra hle
    obtain ⟨e₁, he₁, hseq⟩ := checkEnvelopes_complete hcheck hafter (not_lt.mp hle)
    have hrec := (checkEnvelopes_mem hcheck e₁ he₁).1
    have hid : e₁.id = id := by
      refine hinj _ _ z ?_ hz
      rw [← (hserved e₁ he₁).corresponds hrec]
      exact hseq
    exact (hserved e₁ he₁).sequenced (hwritten e₁ he₁ hid)
  · cases hr
  · cases hr

/-- The calls of `SyncManager` against the server. -/
def backfillContract (hinj : ∀ id id' z, seqOf id = .integer z → seqOf id' = .integer z → id = id')
    (t : Tid) (ref : ScopeRef) (href : ref.scope = scope) :
    SyncContract (backfillDiscipline scope seqOf payloads)
      (Mail.exec scope seqOf payloads tabOf) t ref where
  Served := fun e s => Whole scope seqOf payloads s.last e
  Kept := fun e s => (∃ x, envelopeAt scope e.id s.tabs.inbox.envelopes = some x) ∧
    (∀ p, e.payload = some p → payloads e.id p)
  Answered := fun _ r _ => Corresponds scope seqOf r
  Reached := fun n s => 0 ≤ n ∧ n ≤ cursorAt (scopeKey scope) s.tabs.inbox
  At := fun _ _ => True
  Tracked := fun _ _ => True
  Failed := fun _ => True
  Covers := fun _ _ => True
  LackAfter := fun n s => Lacking scope seqOf (n < ·) s
  LackUpTo := fun n s => Lacking scope seqOf (· ≤ n) s
  Asked := fun _ _ s => Lacking scope seqOf (· ≤ s.asked t) s
  Calm := fun _ _ => True
  served_grow := fun h hg =>
    ⟨h.corresponds, h.sequenced, fun z hz => le_trans (h.within z hz) hg.last, h.payload⟩
  kept_grow := by
    rintro e s s' ⟨⟨x, hx⟩, hp⟩ hg
    obtain ⟨x', hx', -⟩ := hg.kept e.id x hx
    exact ⟨⟨x', hx'⟩, hp⟩
  answered_grow := fun h _ => h
  reached_grow := fun h hg => ⟨h.1, le_trans h.2 hg.cursor⟩
  lackAfter_grow := fun h hg => h.grow hg
  lackUpTo_grow := fun h hg => h.grow hg
  lackAfter_zero := by
    intro s hi id e he _ z hz
    obtain ⟨y, hy, hpos, -⟩ := hi.placed he
    rw [hz, JsNumber.integer.injEq] at hy
    omega
  calm_drift := fun _ => trivial
  calm_trans := fun _ _ => trivial
  at_calm := fun _ _ => trivial
  tracked_calm := fun _ _ => trivial
  failed_calm := fun _ _ => trivial
  asked_drift := by
    intro after es s s' h hd
    have hsame : s'.asked t = s.asked t := hd.own
    rw [hsame]
    exact h.grow hd.grow
  reached_le := fun h h₀ hle => ⟨h₀, le_trans hle h.2⟩
  reached_zero := fun hi => ⟨le_rfl, hi.tabs.1.nonneg⟩
  on_current := by
    rintro s b s' hi ⟨tabs, ⟨l, ⟨-, rfl⟩, rfl⟩, rfl⟩
    exact ⟨keeps_tabStep hi (hi.tabs.2 _), trivial, fun _ => trivial⟩
  on_transport := by
    rintro s via s' hi ⟨tabs, ⟨l, rfl, rfl⟩, rfl⟩
    exact ⟨keeps_tabStep hi (hi.tabs.2 _), trivial⟩
  on_cursor := by
    subst href
    intro ch s r s' hi _ hx
    obtain ⟨hk, hinbox, hr⟩ := keeps_reading hi (fun a db ha => (readCursor_ok ha).2) hx
    refine ⟨hk, trivial, fun n hn => ?_, fun _ _ => trivial⟩
    obtain ⟨db, hok⟩ := hr n hn
    obtain ⟨rfl, -⟩ := readCursor_ok hok
    rw [← hinbox]
    exact ⟨⟨hk.inv.tabs.1.nonneg, le_rfl⟩, trivial, hk.inv.lacking_upto⟩
  on_pending := by
    subst href
    intro s r s' hi hx
    obtain ⟨hk, hinbox, hr⟩ := keeps_reading hi
      (fun a db ha => (getPendingAcknowledgments_ok hi.tabs.1.rows ha).1) hx
    refine ⟨hk, trivial, fun es hes e he => ?_, fun _ _ => trivial⟩
    obtain ⟨db, hok⟩ := hr es hes
    have hstored := (getPendingAcknowledgments_ok hi.tabs.1.rows hok).2 e he
    rw [hinbox]
    exact ⟨⟨e, hstored⟩, fun p hp => hi.payload e.id e p hstored hp⟩
  on_needs := by
    intro s r s' hi hx
    exact ⟨(keeps_reading hi (fun a db ha => needsSequenceBackfill_ok ha) hx).1, trivial,
      fun _ _ => trivial⟩
  on_finish := by
    subst href
    rintro a b s r s' hi ha hb hle ⟨tabs, ⟨db, hrun, rfl⟩, rfl⟩
    refine ⟨?_, trivial, fun _ _ => trivial⟩
    -- nothing stored lacks a chat sequence any more
    have hfull : ∀ id e, envelopeAt ref.scope id s.tabs.inbox.envelopes = some e →
        e.chat_seq ≠ none := by
      intro id e he hnone
      obtain ⟨z, hz, -, -⟩ := hi.placed he
      have h₁ := ha id e he hnone z hz
      have h₂ := hb id e he hnone z hz
      omega
    rcases hrun with (⟨u, hok, -⟩ | ⟨x, -, -, rfl⟩) | ⟨-, rfl⟩
    · obtain ⟨hcur, henvelopes, -⟩ := finishSequenceBackfill_ok hok
      obtain ⟨h₁, h₂, h₃, h₄⟩ := hi.tabs.1
      refine ⟨⟨⟨⟨?_, ?_, ?_, ?_⟩, hi.tabs.2⟩, ?_, ?_, ?_⟩, ⟨?_, le_rfl, ?_, ?_⟩, fun _ _ => rfl⟩ <;>
        simp only [henvelopes, hcur]
      · exact h₁
      · exact h₂
      · exact h₃
      · exact h₄
      · exact hi.last
      · exact fun _ => hfull
      · exact hi.payload
      · exact le_rfl
      · exact fun id e he hnone => ⟨e, he, hnone⟩
      · exact fun id e he => ⟨e, he, fun hp => hp⟩
    · exact keeps_still hi hi.tabs rfl
    · exact keeps_still hi hi.tabs rfl
  on_mailbox_request := by
    rintro s via after es r s' hi - - rfl
    refine ⟨⟨⟨hi.tabs, hi.last, hi.filled, hi.payload⟩,
      ⟨le_rfl, le_rfl, fun id e he hnone => ⟨e, he, hnone⟩, fun id e he => ⟨e, he, fun hp => hp⟩⟩,
      fun u hu => Function.update_of_ne hu _ _⟩, trivial, ?_⟩
    intro id e he hnone z hz
    have hle := hi.lacking_upto id e he hnone z hz
    have hlast := hi.last
    simp only [Function.update_self]
    omega
  on_mailbox := by
    rintro s via after es r s' hi - hasked ⟨rfl, hr⟩
    refine ⟨Keeps.refl hi, trivial, fun page hpage => ?_, fun _ _ => trivial⟩
    obtain ⟨hserved, hend⟩ := hr page hpage
    refine ⟨hserved, fun _ _ => trivial, fun _ _ _ _ _ _ _ => trivial, fun hmore n hn => ?_⟩
    have hle := hend hmore n hn
    intro id e he hnone z hz
    have hz' := hasked id e he hnone z hz
    omega
  on_ack_request := by
    rintro s via e r s' hi - - - rfl
    exact ⟨⟨⟨hi.tabs, hi.last, hi.filled, hi.payload⟩,
      ⟨le_rfl, le_rfl, fun id e he hnone => ⟨e, he, hnone⟩, fun id e he => ⟨e, he, fun hp => hp⟩⟩,
      fun u hu => Function.update_of_ne hu _ _⟩, trivial⟩
  on_ack := by
    rintro s via e r s' hi - ⟨rfl, hr⟩
    exact ⟨Keeps.refl hi, trivial, fun receipt hreceipt =>
      ⟨hr receipt hreceipt, fun _ _ => trivial⟩⟩
  on_commit := by
    subst href
    intro ch s cursor es next r s' hi _ _ hcommit hx
    obtain ⟨hk, hcur⟩ := keeps_committing hi hcommit hx
    refine ⟨hk, fun cs hr => ⟨trivial, ⟨?_, (hcur cs hr).ge⟩, trivial, fun _ _ _ => trivial⟩,
      fun _ _ => ⟨trivial, trivial⟩⟩
    rw [← hcur cs hr]
    exact hk.inv.tabs.1.nonneg
  on_fill := by
    subst href
    rintro after expected cursor es next r s s' - hlack hcheck hserved hx cs rfl
    exact lacking_fill hinj hlack hcheck hserved hx
  on_gap := fun _ _ _ _ _ => trivial

theorem backfillCalls : TabCalls (backfillDiscipline scope seqOf payloads)
    (Mail.exec scope seqOf payloads tabOf) t scope where
  on_scope := by
    rintro s ref s' hi ⟨tabs, ⟨l, ⟨rfl, rfl⟩, rfl⟩, rfl⟩
    exact ⟨keeps_tabStep hi (hi.tabs.2 _), fun r hr => hi.tabs.2 _ r hr⟩
  on_enqueue := by
    rintro s place s' hi ⟨tabs, ⟨l, ⟨-, rfl⟩, rfl⟩, rfl⟩
    exact keeps_tabStep hi (hi.tabs.2 _)
  on_turn := by
    rintro s place u s' hi ⟨tabs, ⟨l, ⟨-, rfl⟩, rfl⟩, rfl⟩
    exact keeps_tabStep hi (hi.tabs.2 _)
  on_leave := by
    rintro s place u s' hi ⟨tabs, ⟨l, rfl, rfl⟩, rfl⟩
    exact keeps_tabStep hi (hi.tabs.2 _)

/-- The tabs and the server keep the discipline. -/
theorem backfill_respected
    (hinj : ∀ id id' z, seqOf id = .integer z → seqOf id' = .integer z → id = id') :
    (backfillDiscipline scope seqOf payloads).Respected
      (backfillSystem scope seqOf payloads tabOf) where
  start := by
    rintro t op s s' hi - ⟨rfl, hop⟩
    refine ⟨Keeps.refl hi, backfillCalls.safe_operation (backfillContract hinj t)
      (fun _ _ _ => trivial) (fun _ _ _ => trivial) op ?_⟩
    rintro e rfl _ _
    exact hop
  stop := by
    rintro t s s' hi rfl
    exact ⟨Keeps.refl hi, trivial⟩
  env := by
    intro s s' hi h t
    cases h with
    | signs h =>
        obtain ⟨i, ref, href, rfl⟩ := h
        exact ⟨keeps_tabStep hi fun r hr => href r hr, rfl⟩
    | arrives h =>
        exact ⟨⟨⟨hi.tabs, le_trans hi.last h, hi.filled, hi.payload⟩,
          ⟨le_rfl, h, fun id e he hnone => ⟨e, he, hnone⟩,
            fun id e he => ⟨e, he, fun hp => hp⟩⟩, fun _ _ => rfl⟩, rfl⟩

end Discipline

/-! ## The backfill ends -/

section Ends

variable (scope seqOf payloads tabOf)

/-- The program comes to an end, whatever the others do. -/
def Ends (t : Tid) {α : Type} (p : Async α) : Prop :=
  ∀ s, Total (Mail.exec scope seqOf payloads tabOf) (fun _ _ => True) t p (fun _ _ => True)
    (fun _ _ => True) s

variable {scope seqOf payloads tabOf} {t : Tid} {α β : Type}

theorem ends_ofExcept (r : Except JsError α) :
    Ends scope seqOf payloads tabOf t (Prog.ofExcept r) := by
  intro s
  cases r with
  | ok a => exact .ret trivial
  | error x => exact .throw trivial

theorem Ends.bind {p : Async α} {f : α → Async β} (hp : Ends scope seqOf payloads tabOf t p)
    (hf : ∀ a, Ends scope seqOf payloads tabOf t (f a)) :
    Ends scope seqOf payloads tabOf t (p >>= f) :=
  fun s => (hp s).andThen fun a s' _ => hf a s'

/-- A transaction can always end, for it may be aborted. -/
theorem ends_awaitInbox (tx : Transaction α) :
    Ends scope seqOf payloads tabOf t (awaitInbox tx) := by
  intro s
  refine .eff (fun s₁ _ => ?_) fun _ r s₂ _ _ => ends_ofExcept r s₂
  exact ⟨.error (.error "aborted"), s₁, s₁.tabs, ⟨s₁.tabs.inbox, Or.inr ⟨⟨_, rfl⟩, rfl⟩, rfl⟩, rfl⟩

/-- A request can always fail. -/
theorem ends_awaitGateway (g : Request) :
    Ends scope seqOf payloads tabOf t (awaitGateway g) := by
  intro s
  refine .eff (fun s₁ _ => ⟨(), _, rfl⟩) fun _ _ s₂ _ _ => ?_
  refine .eff (fun s₃ _ => ?_) fun _ r s₄ _ _ => ends_ofExcept r s₄
  exact ⟨.error (.error "failed"), s₃, rfl, fun a ha => by cases ha⟩

theorem ends_assertCurrent (ref : ScopeRef) :
    Ends scope seqOf payloads tabOf t (assertCurrent ref) := by
  intro s
  refine .eff (fun s₁ _ => ⟨_, _, _, ⟨_, ⟨rfl, rfl⟩, rfl⟩, rfl⟩) fun _ b s₂ _ _ => ?_
  cases b with
  | true => exact .ret trivial
  | false => exact .throw trivial

/-- Each round of the loop comes closer to where the backfill ends. -/
theorem ends_backfillPages (ref : ScopeRef) (through : ℤ) (ch : Changes) :
    Ends scope seqOf payloads tabOf t (backfillPages ref through ch) := by
  intro s
  refine Total.iterate (fun _ _ => True) (fun l _ => (through - l.1).toNat)
    (fun _ _ _ _ _ => ⟨trivial, le_rfl⟩) ?_ trivial
  rintro ⟨after, ch₁⟩ s₁ -
  simp only
  split_ifs with hdone
  · exact .ret trivial
  · refine (ends_assertCurrent ref s₁).andThen fun _ s₂ _ => ?_
    refine (ends_awaitGateway (.getMailbox .http after 100) s₂).andThen fun page s₃ _ => ?_
    refine (ends_assertCurrent ref s₃).andThen fun _ s₄ _ => ?_
    cases hv : validatePage ref.scope after page with
    | error x => exact .throw trivial
    | ok u =>
        obtain ⟨expected, hcheck, hnext, hmoves⟩ := validatePage_ok hv
        refine (ends_awaitInbox (readCursor ref.scope) s₄).andThen fun cursor s₅ _ => ?_
        simp only [hnext]
        refine (ends_awaitInbox (commitPage ref.scope cursor page.envelopes
          (.integer (max cursor expected))) s₅).andThen fun cs s₆ _ => ?_
        have hle := checkEnvelopes_le hcheck
        cases hmore : page.hasMore with
        | false => exact .ret trivial
        | true =>
            have hne : expected ≠ after := fun heq => hmoves ⟨hmore, heq⟩
            refine .ret ⟨trivial, ?_⟩
            simp only
            omega

theorem ends_backfillSequences (ref : ScopeRef) (ch : Changes) :
    Ends scope seqOf payloads tabOf t (backfillSequences ref ch) := by
  refine (ends_awaitInbox _).bind fun needed => ?_
  cases needed with
  | false => exact fun s => .ret trivial
  | true =>
      refine (ends_awaitInbox _).bind fun through => (ends_backfillPages ref through ch).bind
        fun ch' => (ends_assertCurrent ref).bind fun _ => (ends_awaitInbox _).bind
          fun _ s => .ret trivial

end Ends

/-! ## Main result -/

/-- **Main result.**  The backfill ends, whatever happens meanwhile.  In every
reachable state in which its flag is set, all stored envelopes of the scope have
a chat sequence; and along every run the cursor never moves back, and an
envelope stored with a payload keeps one of its payloads. -/
theorem sequence_backfill_complete_and_restartable
    (hinj : ∀ id id' z, seqOf id = .integer z → seqOf id' = .integer z → id = id') :
    (∀ t ref ch, Ends scope seqOf payloads tabOf t (backfillSequences ref ch)) ∧
      ∀ p, System.Reachable (backfillSystem scope seqOf payloads tabOf)
          (Mail.Initial scope seqOf payloads) p →
        (backfilled scope p.shared.tabs.inbox = true →
          ∀ e ∈ storedEnvelopes scope p.shared.tabs.inbox.envelopes, e.chat_seq ≠ none) ∧
        ∀ p', System.Reaches (backfillSystem scope seqOf payloads tabOf) p p' →
          cursorAt (scopeKey scope) p.shared.tabs.inbox ≤
              cursorAt (scopeKey scope) p'.shared.tabs.inbox ∧
            ∀ e ∈ storedEnvelopes scope p.shared.tabs.inbox.envelopes, e.payload ≠ none →
              ∃ e' ∈ storedEnvelopes scope p'.shared.tabs.inbox.envelopes, e'.id = e.id ∧
                ∃ q, e'.payload = some q ∧ payloads e.id q := by
  refine ⟨fun t ref ch => ends_backfillSequences ref ch, fun p hp => ?_⟩
  have hidle : ∀ s, Mail.Initial scope seqOf payloads s →
      (backfillDiscipline scope seqOf payloads).inv s ∧
        ∀ t, (backfillDiscipline scope seqOf payloads).idle t s := fun _ h => ⟨h, fun _ => trivial⟩
  have hinv := (Discipline.sound (backfill_respected hinj) hidle hp).inv
  refine ⟨fun hset e he => ?_, fun p' hrun => ?_⟩
  · exact hinv.filled hset e.id e ((mem_storedEnvelopes hinv.tabs.1.rows).mp he)
  · have hgrow := Discipline.grows (backfill_respected hinj) hidle hp hrun
    have hinv' := (Discipline.sound (backfill_respected hinj) hidle (hp.trans hrun)).inv
    refine ⟨hgrow.cursor, fun e he hpayload => ?_⟩
    obtain ⟨e', he', hkept⟩ := hgrow.kept e.id e ((mem_storedEnvelopes hinv.tabs.1.rows).mp he)
    obtain ⟨q, hq⟩ := Option.ne_none_iff_exists'.mp (hkept hpayload)
    have hid := envelopeAt_id hinv'.tabs.1.rows he'
    refine ⟨e', (mem_storedEnvelopes hinv'.tabs.1.rows).mpr (hid.symm ▸ he'), hid, q, hq, ?_⟩
    exact hinv'.payload e.id e' q he' hq

namespace Example

/-- An inbox that was filled before envelopes carried chat sequences, and the
server has purged the payload since. -/
def olderInbox : Database :=
  putCursor (scopeKey phoneScope) 1
    { emptyInbox with envelopes := [unnumbered].foldl (storeEnvelope phoneScope) [] }

def olderMail : Mail :=
  ⟨⟨olderInbox, fun _ => { memory := { current := some ⟨phoneScope, 0⟩ } }⟩, 1, fun _ => 0⟩

/-- The inbox after the page has been committed over an inbox. -/
def refilled (db : Database) : Database :=
  putCursor (scopeKey phoneScope) 1
    { db with envelopes := [tombstone].foldl (storeEnvelope phoneScope) db.envelopes }

theorem valid_refilled {db : Database} (h : valid phoneScope db = true) :
    valid phoneScope (refilled db) = true := by
  have hidentity : (refilled db).identity = db.identity := rfl
  rw [valid_congr hidentity, h]

theorem unnumbered_of_olderInbox {id : String} {e : MailboxEnvelope}
    (he : envelopeAt phoneScope id olderInbox.envelopes = some e) : e.payload = some "aGk=" := by
  have hrows : Rows olderInbox.envelopes := rows_storeEnvelope rows_nil unnumbered
  have hmem : e ∈ storedEnvelopes phoneScope olderInbox.envelopes :=
    (mem_storedEnvelopes hrows).mpr ((envelopeAt_id hrows he).symm ▸ he)
  have hall : ∀ e ∈ storedEnvelopes phoneScope olderInbox.envelopes,
      e.payload = some "aGk=" := by
    decide
  exact hall e hmem

theorem olderMail_initial :
    Mail.Initial phoneScope firstSeqOf (fun _ p => p = "aGk=") olderMail where
  tabs := by
    refine ⟨?_, ?_⟩
    · have hc : Committing phoneScope 0 [unnumbered] 1 emptyInbox olderInbox :=
        ⟨by decide, by decide, rfl, by decide, rfl⟩
      refine Prefix.commit (prefix_fresh rows_nil rfl rfl) hc ?_ ?_
      · intro e he
        obtain rfl := List.mem_singleton.mp he
        exact ⟨rfl, 1, rfl, rfl, le_rfl, le_rfl⟩
      · intro z h₁ h₂
        obtain rfl : z = 1 := by omega
        exact ⟨unnumbered, List.mem_singleton_self _, rfl⟩
    · rintro i ref h
      obtain rfl := Option.some.inj h
      rfl
  last := (cursorAt_putCursor _ _ _).le
  filled := by
    intro hset
    have hunset : backfilled phoneScope olderMail.tabs.inbox = false := by decide
    rw [hunset] at hset
    cases hset
  payload := by
    intro id e p he hp
    rw [unnumbered_of_olderInbox he] at hp
    exact (Option.some.inj hp).symm

theorem backfilled_finished (db : Database) :
    backfilled phoneScope { db with
      cursors := Store.put Stored.key (record (scopeKey phoneScope) backfillId .done)
        db.cursors } = true := by
  let flag : Stored CursorValue := record (scopeKey phoneScope) backfillId .done
  have hget : Store.get Stored.key flag.key (Store.put Stored.key flag db.cursors) = some flag :=
    Store.get_put_self flag db.cursors
  exact Option.isSome_of_eq_some hget

/-- The page of the backfill goes through. -/
theorem commitPage_tombstone {db : Database} (hvalid : valid phoneScope db = true)
    (hcursor : cursorAt (scopeKey phoneScope) db = 1) :
    ∃ cs, commitPage phoneScope 1 [tombstone] (.integer 1) db = .ok (cs, refilled db) := by
  have hdevice : ∀ e ∈ [tombstone], e.recipient_device_id = phoneScope.deviceId := by decide
  obtain ⟨⟨cs, db'⟩, hcommit⟩ :=
    commitPage_total hvalid hcursor le_rfl rfl hdevice
  obtain rfl : db' = refilled db := (commitPage_ok hcommit).1.db_eq
  exact ⟨cs, hcommit⟩

theorem mem_refilled :
    ∃ e ∈ storedEnvelopes phoneScope (refilled olderInbox).envelopes,
      e.id = "e1" ∧ e.payload ≠ none := by
  decide

/-- The page the server answers the backfill with. -/
theorem mayServe_tombstone {s : Mail} {t : Tid} (hlast : s.last = 1) (hasked : s.asked t = 1)
    (page : MailboxPage)
    (h : (Except.ok ⟨[tombstone], .integer 1, false⟩ : Except JsError MailboxPage) = .ok page) :
    MayServe phoneScope firstSeqOf (fun _ p => p = "aGk=") s t (.getMailbox .http 0 100) page := by
  obtain rfl := Except.ok.inj h
  refine ⟨fun e he => ?_, fun _ n hn => ?_⟩
  · obtain rfl := List.mem_singleton.mp he
    rw [hlast]
    exact ⟨fun _ => rfl, by decide, fun z hz => (JsNumber.integer.inj hz).ge,
      fun p hp => by cases hp⟩
  · rw [hasked]
    exact (JsNumber.integer.inj hn).le

/-- A tab dies after it has committed the page of the backfill, and another one
repeats the backfill. -/
theorem reaches_backfilled :
    ∃ p₁ p₂ : Pool Call Call.Answer JsError Mail,
      System.Reachable (backfillSystem phoneScope firstSeqOf (fun _ p => p = "aGk=") id)
          (Mail.Initial phoneScope firstSeqOf (fun _ p => p = "aGk=")) p₁ ∧
        p₁.threads 0 = some (.ret ()) ∧ p₁.shared.tabs.inbox = refilled olderInbox ∧
        System.Reaches (backfillSystem phoneScope firstSeqOf (fun _ p => p = "aGk=") id) p₁ p₂ ∧
        backfilled phoneScope p₂.shared.tabs.inbox = true := by
  have hvalid : valid phoneScope olderInbox = true := (valid_congr rfl).trans valid_emptyInbox
  have hcursor : cursorAt (scopeKey phoneScope) olderInbox = 1 := cursorAt_putCursor _ _ _
  have hvalid₁ : valid phoneScope (refilled olderInbox) = true := valid_refilled hvalid
  have hcursor₁ : cursorAt (scopeKey phoneScope) (refilled olderInbox) = 1 :=
    cursorAt_putCursor _ _ _
  obtain ⟨cs, hcommit⟩ := commitPage_tombstone hvalid hcursor
  obtain ⟨cs₁, hcommit₁⟩ := commitPage_tombstone hvalid₁ hcursor₁
  have hneeds : needsSequenceBackfill phoneScope olderInbox = .ok (true, olderInbox) := by
    rw [needsSequenceBackfill_valid hvalid]
    rfl
  have hread : readCursor phoneScope olderInbox = .ok (1, olderInbox) := by
    rw [readCursor_valid hvalid, hcursor]
  have hneeds₁ : needsSequenceBackfill phoneScope (refilled olderInbox) =
      .ok (true, refilled olderInbox) := by
    rw [needsSequenceBackfill_valid hvalid₁]
    rfl
  have hread₁ : readCursor phoneScope (refilled olderInbox) = .ok (1, refilled olderInbox) := by
    rw [readCursor_valid hvalid₁, hcursor₁]
  have hvalid₂ := valid_refilled hvalid₁
  have hfinish := finishSequenceBackfill_valid hvalid₂
  have h : System.Reachable (backfillSystem phoneScope firstSeqOf (fun _ p => p = "aGk=") id)
      (Mail.Initial phoneScope firstSeqOf (fun _ p => p = "aGk=")) (System.idle olderMail) :=
    .idle olderMail_initial
  have h := h.starts 0 .synchronize rfl ⟨rfl, trivial⟩
  have h := h.acts 0 rfl (some ⟨phoneScope, 0⟩) ⟨_, ⟨_, ⟨rfl, rfl⟩, rfl⟩, rfl⟩
  have h := h.acts 0 rfl (0 : Nat) ⟨_, ⟨_, ⟨rfl, rfl⟩, rfl⟩, rfl⟩
  have h := h.acts 0 rfl ()
    ⟨_, ⟨_, ⟨fun q hq => absurd hq (Nat.not_lt_zero q), rfl⟩, rfl⟩, rfl⟩
  have h := h.acts 0 rfl (.ok true) ⟨_, ⟨_, .inl (.inl ⟨_, hneeds, rfl⟩), rfl⟩, rfl⟩
  have h := h.acts 0 rfl (.ok 1) ⟨_, ⟨_, .inl (.inl ⟨_, hread, rfl⟩), rfl⟩, rfl⟩
  have h := h.step (.unfold (t := 0) rfl)
  have h := h.acts 0 rfl true ⟨_, ⟨_, ⟨rfl, rfl⟩, rfl⟩, rfl⟩
  have h := h.acts 0 rfl () rfl
  have h := h.acts 0 rfl (.ok ⟨[tombstone], .integer 1, false⟩)
    ⟨rfl, mayServe_tombstone rfl rfl⟩
  have h := h.acts 0 rfl true ⟨_, ⟨_, ⟨rfl, rfl⟩, rfl⟩, rfl⟩
  have h := h.acts 0 rfl (.ok 1) ⟨_, ⟨_, .inl (.inl ⟨_, hread, rfl⟩), rfl⟩, rfl⟩
  have h := h.acts 0 rfl (.ok cs) ⟨_, ⟨_, .inl (.inl ⟨_, hcommit, rfl⟩), rfl⟩, rfl⟩
  have h := h.step (.stop (t := 0) rfl rfl)
  -- the second tab
  have hr := h.onward.starts 1 .synchronize rfl ⟨rfl, trivial⟩
  have hr := hr.acts 1 rfl (some ⟨phoneScope, 0⟩) ⟨_, ⟨_, ⟨rfl, rfl⟩, rfl⟩, rfl⟩
  have hr := hr.acts 1 rfl (0 : Nat) ⟨_, ⟨_, ⟨rfl, rfl⟩, rfl⟩, rfl⟩
  have hr := hr.acts 1 rfl ()
    ⟨_, ⟨_, ⟨fun q hq => absurd hq (Nat.not_lt_zero q), rfl⟩, rfl⟩, rfl⟩
  have hr := hr.acts 1 rfl (.ok true) ⟨_, ⟨_, .inl (.inl ⟨_, hneeds₁, rfl⟩), rfl⟩, rfl⟩
  have hr := hr.acts 1 rfl (.ok 1) ⟨_, ⟨_, .inl (.inl ⟨_, hread₁, rfl⟩), rfl⟩, rfl⟩
  have hr := hr.step (.unfold (t := 1) rfl)
  have hr := hr.acts 1 rfl true ⟨_, ⟨_, ⟨rfl, rfl⟩, rfl⟩, rfl⟩
  have hr := hr.acts 1 rfl () rfl
  have hr := hr.acts 1 rfl (.ok ⟨[tombstone], .integer 1, false⟩)
    ⟨rfl, mayServe_tombstone rfl rfl⟩
  have hr := hr.acts 1 rfl true ⟨_, ⟨_, ⟨rfl, rfl⟩, rfl⟩, rfl⟩
  have hr := hr.acts 1 rfl (.ok 1) ⟨_, ⟨_, .inl (.inl ⟨_, hread₁, rfl⟩), rfl⟩, rfl⟩
  have hr := hr.acts 1 rfl (.ok cs₁) ⟨_, ⟨_, .inl (.inl ⟨_, hcommit₁, rfl⟩), rfl⟩, rfl⟩
  have hr := hr.acts 1 rfl true ⟨_, ⟨_, ⟨rfl, rfl⟩, rfl⟩, rfl⟩
  have hr := hr.acts 1 rfl (.ok ()) ⟨_, ⟨_, .inl (.inl ⟨_, hfinish, rfl⟩), rfl⟩, rfl⟩
  exact ⟨_, _, h, rfl, rfl, hr, backfilled_finished _⟩

end Example

theorem sequence_backfill_complete_and_restartable_older :
    ∃ p₁ p₂ : Pool Call Call.Answer JsError Mail,
      p₁.threads 0 = some (.ret ()) ∧
        backfilled phoneScope p₁.shared.tabs.inbox = false ∧
        System.Reaches (backfillSystem phoneScope firstSeqOf (fun _ p => p = "aGk=") id) p₁ p₂ ∧
        backfilled phoneScope p₂.shared.tabs.inbox = true ∧
        (∀ e ∈ storedEnvelopes phoneScope p₂.shared.tabs.inbox.envelopes, e.chat_seq ≠ none) ∧
        ∃ e ∈ storedEnvelopes phoneScope p₂.shared.tabs.inbox.envelopes,
          e.id = "e1" ∧ e.payload = some "aGk=" := by
  obtain ⟨p₁, p₂, hp₁, hstopped, hinbox, hr, hset⟩ := Example.reaches_backfilled
  obtain ⟨-, hmain⟩ := @sequence_backfill_complete_and_restartable phoneScope firstSeqOf
    (fun _ p => p = "aGk=") id firstSeqOf_inj
  have hunset : backfilled phoneScope p₁.shared.tabs.inbox = false := by
    rw [hinbox]
    decide
  obtain ⟨-, hkept⟩ := (hmain p₁ hp₁).2 p₂ hr
  obtain ⟨e, he, hid, hpayload⟩ := Example.mem_refilled
  obtain ⟨e', he', hid', q, hq, rfl⟩ := hkept e (hinbox ▸ he) hpayload
  exact ⟨p₁, p₂, hstopped, hunset, hr, hset, (hmain p₂ (hp₁.trans hr)).1 hset, e', he',
    hid'.trans hid, hq⟩

end Backfill
end Client
end SecureMessenger

import SecureMessenger.EndToEnd.NoLoss
import SecureMessenger.EndToEnd.Synchronization
import SecureMessenger.Lib.Halting

/-!
# Synchronization comes to an end

Each round of a paging loop takes the cursor further, and nobody takes it back;
so every operation comes to rest, even while the mailbox grows.  Nor can the
operations block each other: the first one in the promise chain can always go
on.
-/

namespace SecureMessenger
namespace EndToEnd

open Lib
open Lib.Discipline
open Client (ScopeRef Call Request JsError JsNumber Inbox.runs cursorAt scopeKey MailboxEnvelope
  Changes Async phoneScope emptyInbox)

section Halting

variable {ref : ScopeRef} {iso : Server.Instant → Client.Timestamp} {t : Tid} {α β : Type}

/-- The calls, read so that none has to wait. -/
def Line.loose (ref : ScopeRef) (iso : Server.Instant → Client.Timestamp) (t : Tid) :
    (c : Call) → Line → c.Answer → Line → Prop
  | .turn _, s, _, s' => s' = s
  | .recovery _, s, _, s' => s' = s
  | .response _, s, _, s' => s' = s
  | c, s, r, s' => Line.exec ref iso t c s r s'

/-- The others do not take the cursor back, and the session stays. -/
structure Line.Ahead (ref : ScopeRef) (s s' : Line) : Prop where
  cursor : s.cursor ref ≤ s'.cursor ref
  current : s'.tab.memory.current = s.tab.memory.current

theorem exec_loose {c : Call} {s s' : Line} {r : c.Answer} (h : Line.exec ref iso t c s r s') :
    Line.loose ref iso t c s r s' := by
  cases c with
  | turn place =>
      obtain ⟨l, ⟨-, rfl⟩, rfl⟩ := h
      rfl
  | recovery n =>
      obtain ⟨l, ⟨-, rfl⟩, rfl⟩ := h
      rfl
  | response g => exact h.1
  | _ => exact h

/-- Each call can be performed. -/
theorem loose_enabled (c : Call) (s : Line) : ∃ r s', Line.loose ref iso t c s r s' := by
  cases c with
  | inbox tx =>
      cases htx : tx s.inbox with
      | ok a => exact ⟨.ok a.1, _, a.2, .inl ⟨a.1, htx, rfl⟩, rfl⟩
      | error x => exact ⟨.error x, _, s.inbox, .inr ⟨x, htx, rfl, rfl⟩, rfl⟩
  | request g => exact ⟨(), _, rfl⟩
  | response g => exact ⟨.error (.error ""), s, rfl⟩
  | transport => exact ⟨.http, _, _, rfl, rfl⟩
  | enqueue => exact ⟨s.tab.chain.next, _, _, ⟨rfl, rfl⟩, rfl⟩
  | turn place => exact ⟨(), s, rfl⟩
  | leave place => exact ⟨(), _, _, rfl, rfl⟩
  | memory f => exact ⟨_, _, _, ⟨rfl, rfl⟩, rfl⟩
  | recovery n => exact ⟨.ok (), s, rfl⟩
  | sleep => exact ⟨(), _, _, rfl, rfl⟩
  | clock => exact ⟨"", _, _, rfl, rfl⟩
  | freshId => exact ⟨"", _, _, rfl, rfl⟩
  | notify n => exact ⟨(), _, rfl⟩

/-- The program comes to an end with the cursor at `n` at least, and returns
only with `Q`. -/
abbrev Comes (ref : ScopeRef) (iso : Server.Instant → Client.Timestamp) (t : Tid) {α : Type}
    (n : ℤ) (p : Async α) (Q : α → Line → Prop) (s : Line) : Prop :=
  Total (Line.loose ref iso) (Line.Ahead ref) t p (fun a s' => n ≤ s'.cursor ref ∧ Q a s')
    (fun _ s' => n ≤ s'.cursor ref) s

/-- The program comes to an end and does not take the cursor back. -/
def Climbs (ref : ScopeRef) (iso : Server.Instant → Client.Timestamp) (t : Tid) {α : Type}
    (p : Async α) : Prop :=
  ∀ n s, n ≤ s.cursor ref → Comes ref iso t n p (fun _ _ => True) s

theorem comes_eff {n : ℤ} {c : Call} {k : c.Answer → Async α} {Q : α → Line → Prop} {s : Line}
    (h : ∀ s₁ r s₂, s.cursor ref ≤ s₁.cursor ref → Line.loose ref iso t c s₁ r s₂ →
      Comes ref iso t n (k r) Q s₂) : Comes ref iso t n (.eff c k) Q s :=
  .eff (fun s₁ _ => loose_enabled c s₁) fun s₁ r s₂ hr hx => h s₁ r s₂ hr.cursor hx

theorem comes_ofExcept {n : ℤ} {r : Except JsError α} {Q : α → Line → Prop} {s : Line}
    (hle : n ≤ s.cursor ref) (h : ∀ a, r = .ok a → Q a s) :
    Comes ref iso t n (Prog.ofExcept r) Q s := by
  cases r with
  | ok a => exact .ret ⟨hle, h a rfl⟩
  | error x => exact .throw hle

theorem Climbs.ret (a : α) : Climbs ref iso t (.ret a) :=
  fun _ _ hle => .ret ⟨hle, trivial⟩

theorem Climbs.throw (x : JsError) : Climbs ref iso t (.throw x : Async α) :=
  fun _ _ hle => .throw hle

theorem Climbs.ofExcept (r : Except JsError α) : Climbs ref iso t (Prog.ofExcept r) :=
  fun _ _ hle => comes_ofExcept hle fun _ _ => trivial

/-- A call that leaves the inbox alone. -/
theorem Climbs.eff {c : Call} {k : c.Answer → Async α}
    (hc : ∀ s r s', Line.loose ref iso t c s r s' → s'.inbox = s.inbox)
    (hk : ∀ r, Climbs ref iso t (k r)) : Climbs ref iso t (.eff c k) := by
  intro n s hle
  refine comes_eff fun s₁ r s₂ hle₁ hx => hk r n s₂ ?_
  have hsame : s₂.cursor ref = s₁.cursor ref := by
    unfold Line.cursor
    rw [hc s₁ r s₂ hx]
  omega

theorem Climbs.bind {p : Async α} {f : α → Async β} (hp : Climbs ref iso t p)
    (hf : ∀ a, Climbs ref iso t (f a)) : Climbs ref iso t (p >>= f) :=
  fun n s hle => (hp n s hle).andThen fun a s₁ h₁ => hf a n s₁ h₁.1

theorem Climbs.attempt {p : Async α} (hp : Climbs ref iso t p) :
    Climbs ref iso t (Prog.attempt p) :=
  fun n s hle => (hp n s hle).attempt (fun _ _ h => h) fun _ _ h => ⟨h, trivial⟩

/-- A transaction that does not take the cursor back. -/
theorem comes_awaitInbox {n : ℤ} {tx : Client.Transaction α} {Q : α → Line → Prop} {s : Line}
    (hle : n ≤ s.cursor ref)
    (htx : ∀ (s₁ : Line) a db, s.cursor ref ≤ s₁.cursor ref → tx s₁.inbox = .ok (a, db) →
      s₁.cursor ref ≤ cursorAt (scopeKey ref.scope) db ∧ Q a { s₁ with inbox := db }) :
    Comes ref iso t n (Client.awaitInbox tx) Q s := by
  refine comes_eff fun s₁ r s₂ hle₁ hx => ?_
  obtain ⟨db, (⟨a, ha, rfl⟩ | ⟨x, -, rfl, rfl⟩), rfl⟩ := hx
  · obtain ⟨hclimb, hQ⟩ := htx s₁ a db hle₁ ha
    refine comes_ofExcept ?_ fun a' ha' => ?_
    · have hcursor : n ≤ cursorAt (scopeKey ref.scope) db := by omega
      exact hcursor
    · cases ha'
      exact hQ
  · refine .throw ?_
    have hcursor : n ≤ s₁.cursor ref := by omega
    exact hcursor

theorem Climbs.awaitInbox {tx : Client.Transaction α}
    (htx : ∀ db a db', tx db = .ok (a, db') →
      cursorAt (scopeKey ref.scope) db ≤ cursorAt (scopeKey ref.scope) db') :
    Climbs ref iso t (Client.awaitInbox tx) :=
  fun _ _ hle => comes_awaitInbox hle fun s₁ a db _ ha => ⟨htx s₁.inbox a db ha, trivial⟩

theorem climbs_awaitGateway (g : Request) : Climbs ref iso t (Client.awaitGateway g) := by
  refine Climbs.eff (fun s r s' hx => ?_) fun _ => Climbs.eff (fun s r s' hx => ?_) fun r =>
    Climbs.ofExcept r
  · obtain rfl := hx
    rfl
  · obtain rfl := hx
    rfl

theorem climbs_assertCurrent : Climbs ref iso t (Client.assertCurrent ref) := by
  refine Climbs.bind (Climbs.eff (fun s r s' hx => ?_) fun r => Climbs.ret r) fun b => ?_
  · obtain ⟨l, -, rfl⟩ := hx
    rfl
  · cases b with
    | true => exact Climbs.ret ()
    | false => exact Climbs.throw _

theorem climbs_transport : Climbs ref iso t Client.transport := by
  refine Climbs.eff (fun s r s' hx => ?_) fun r => Climbs.ret r
  obtain ⟨l, -, rfl⟩ := hx
  rfl

/-- The cursor that is read lies between what it was and what it will be. -/
theorem comes_readCursor {n : ℤ} {s : Line} (hle : n ≤ s.cursor ref) :
    Comes ref iso t n (Client.awaitInbox (Client.readCursor ref.scope))
      (fun c s' => s.cursor ref ≤ c ∧ c ≤ s'.cursor ref) s := by
  refine comes_awaitInbox hle fun s₁ c db hle₁ hc => ?_
  obtain ⟨rfl, rfl⟩ := Client.readCursor_ok hc
  exact ⟨le_rfl, hle₁, le_rfl⟩

theorem climbs_readCursor :
    Climbs ref iso t (Client.awaitInbox (Client.readCursor ref.scope)) :=
  Climbs.awaitInbox fun db c db' hc => by rw [(Client.readCursor_ok hc).2]

theorem comes_commitPage {n c next : ℤ} {es : List MailboxEnvelope} {s : Line}
    (hle : n ≤ s.cursor ref) :
    Comes ref iso t n (Client.awaitInbox (Client.commitPage ref.scope c es (.integer next)))
      (fun _ s' => next ≤ JsNumber.maxSafeInteger ∧ s'.cursor ref = next) s := by
  refine comes_awaitInbox hle fun s₁ cs db _ hok => ?_
  obtain ⟨hc, -⟩ := Client.commitPage_ok hok
  have hcursor := hc.cursor'
  have hclimb := hc.le
  have hcur := hc.cursor_eq
  refine ⟨?_, hc.safe.2, hcursor⟩
  show cursorAt (scopeKey ref.scope) s₁.inbox ≤ _
  omega

theorem climbs_commitPage {c next : ℤ} {es : List MailboxEnvelope} :
    Climbs ref iso t (Client.awaitInbox (Client.commitPage ref.scope c es (.integer next))) :=
  fun _ _ hle => (comes_commitPage hle).mono (fun _ _ h => ⟨h.1, trivial⟩) fun _ _ h => h

end Halting

section Operations

variable {ref : ScopeRef} {iso : Server.Instant → Client.Timestamp} {t : Tid}

theorem climbs_acknowledgeOne (via : Client.Transport) (e : MailboxEnvelope) (ch : Changes) :
    Climbs ref iso t (Client.acknowledgeOne ref via e ch) := by
  unfold Client.acknowledgeOne
  split_ifs
  · exact Climbs.ret ch
  · refine climbs_assertCurrent.bind fun _ => (climbs_awaitGateway _).attempt.bind fun r => ?_
    cases r with
    | error x => exact climbs_assertCurrent.bind fun _ => Climbs.ret ch
    | ok receipt =>
        refine climbs_assertCurrent.bind fun _ => (Climbs.ofExcept _).bind fun _ =>
          climbs_readCursor.bind fun c => climbs_commitPage.attempt.bind fun r => ?_
        cases r with
        | ok cs => exact Climbs.ret _
        | error x => exact climbs_assertCurrent.bind fun _ => Climbs.ret ch

theorem climbs_acknowledgeAll (via : Client.Transport) (es : List MailboxEnvelope) :
    ∀ ch : Changes, Climbs ref iso t (Client.acknowledgeAll ref via es ch) := by
  induction es with
  | nil => exact fun ch => Climbs.ret ch
  | cons e rest ih => exact fun ch => (climbs_acknowledgeOne via e ch).bind ih

theorem climbs_acknowledgePending (ch : Changes) :
    Climbs ref iso t (Client.acknowledgePending ref ch) := by
  refine climbs_transport.bind fun via => (Climbs.awaitInbox fun db es db' h => ?_).bind
    fun es => climbs_acknowledgeAll via es ch
  obtain ⟨u, -, h⟩ := Client.ok_of_bind h
  simp only [pure, Except.pure, Except.ok.injEq, Prod.mk.injEq] at h
  rw [h.2]

/-- Each round of the backfill asks from further on. -/
theorem climbs_backfillPages (through : ℤ) (ch : Changes) :
    Climbs ref iso t (Client.backfillPages ref through ch) := by
  intro n s hle
  refine Total.iterate (fun _ s' => n ≤ s'.cursor ref) (fun l _ => (through - l.1).toNat)
    (fun _ s₁ s₂ h hr => ⟨h.trans hr.cursor, le_rfl⟩) ?_ hle
  rintro ⟨after, ch₁⟩ s₁ h₁
  simp only
  split_ifs with hdone
  · exact .ret ⟨h₁, trivial⟩
  · refine (climbs_assertCurrent n s₁ h₁).andThen fun _ s₂ h₂ => ?_
    refine (climbs_awaitGateway _ n s₂ h₂.1).andThen fun (page : Client.MailboxPage) s₃ h₃ => ?_
    refine (climbs_assertCurrent n s₃ h₃.1).andThen fun _ s₄ h₄ => ?_
    cases hv : Client.validatePage ref.scope after page with
    | error x => exact .throw h₄.1
    | ok u =>
        obtain ⟨expected, hcheck, hnext, hmoves⟩ := Client.validatePage_ok hv
        refine (climbs_readCursor n s₄ h₄.1).andThen fun c s₅ h₅ => ?_
        simp only [hnext]
        refine (climbs_commitPage n s₅ h₅.1).andThen fun cs s₆ h₆ => ?_
        have hfurther := Client.checkEnvelopes_le hcheck
        cases hmore : page.hasMore with
        | false => exact .ret ⟨h₆.1, trivial⟩
        | true =>
            have hne : expected ≠ after := fun heq => hmoves ⟨hmore, heq⟩
            refine .ret ⟨h₆.1, ?_⟩
            simp only
            omega

theorem climbs_backfillSequences (ch : Changes) :
    Climbs ref iso t (Client.backfillSequences ref ch) := by
  refine (Climbs.awaitInbox fun db b db' h => by
    rw [Client.needsSequenceBackfill_ok h]).bind fun needed => ?_
  cases needed with
  | false => exact Climbs.ret ch
  | true =>
      refine climbs_readCursor.bind fun through => (climbs_backfillPages through ch).bind
        fun ch' => climbs_assertCurrent.bind fun _ => (Climbs.awaitInbox fun db u db' h => ?_).bind
          fun _ => Climbs.ret ch'
      exact (Client.finishSequenceBackfill_ok h).1.ge

/-- Each round of paging moves the cursor, which never exceeds the safe
integers. -/
theorem climbs_pageMailbox (ch : Changes) : Climbs ref iso t (Client.pageMailbox ref ch) := by
  intro n s hle
  refine Total.iterate (fun _ s' => n ≤ s'.cursor ref)
    (fun _ s' => (JsNumber.maxSafeInteger - s'.cursor ref).toNat)
    (fun _ s₁ s₂ h hr => ⟨h.trans hr.cursor, ?_⟩) ?_ hle
  · have hcursor := hr.cursor
    omega
  · intro ch₁ s₁ h₁
    -- the round begins with the cursor at `m`
    generalize hm : s₁.cursor ref = m at h₁
    refine Total.mono (Q := fun r s' => m ≤ s'.cursor ref ∧
      ∀ ch', r = .inl ch' → m < s'.cursor ref ∧ m < JsNumber.maxSafeInteger)
      (Z := fun _ s' => m ≤ s'.cursor ref) ?_ ?_ fun _ _ h => h₁.trans h
    · refine (climbs_assertCurrent m s₁ hm.ge).andThen fun _ s₂ h₂ => ?_
      refine (comes_readCursor h₂.1).andThen fun c s₃ h₃ => ?_
      refine (climbs_transport m s₃ h₃.1).andThen fun via s₄ h₄ => ?_
      refine (climbs_awaitGateway _ m s₄ h₄.1).andThen fun (page : Client.MailboxPage) s₅ h₅ => ?_
      refine (climbs_assertCurrent m s₅ h₅.1).andThen fun _ s₆ h₆ => ?_
      cases hv : Client.validatePage ref.scope c page with
      | error x => exact .throw h₆.1
      | ok u =>
          obtain ⟨expected, hcheck, hnext, hmoves⟩ := Client.validatePage_ok hv
          simp only [hnext]
          refine (comes_commitPage h₆.1).andThen fun cs s₇ h₇ => ?_
          have hreached : expected ≤ s₇.cursor ref := h₇.2.2.ge
          have hread : m ≤ c := h₂.1.trans h₃.2.1
          have hfurther := Client.checkEnvelopes_le hcheck
          have hsafe := h₇.2.1
          refine ((climbs_acknowledgePending _ expected s₇ hreached).mono (fun _ _ h => h)
            fun _ _ h => (hread.trans hfurther).trans h).andThen fun ch' s₈ h₈ => ?_
          have hend := h₈.1
          cases hmore : page.hasMore with
          | false => exact .ret ⟨by omega, fun ch'' h => by cases h⟩
          | true =>
              have hne : expected ≠ c := fun heq => hmoves ⟨hmore, heq⟩
              exact .ret ⟨by omega, fun ch'' _ => ⟨by omega, by omega⟩⟩
    · rintro (ch' | ch') s' ⟨hle', hlt⟩
      · obtain ⟨hlt, hsafe⟩ := hlt ch' rfl
        refine ⟨h₁.trans hle', ?_⟩
        omega
      · exact ⟨h₁.trans hle', trivial⟩

theorem climbs_synchronizeQueued : Climbs ref iso t (Client.synchronizeQueued ref) :=
  (climbs_backfillSequences _).bind fun ch₁ => (climbs_acknowledgePending ch₁).bind
    fun ch₂ => (climbs_pageMailbox ch₂).bind fun _ => climbs_readCursor.bind fun _ => Climbs.ret _

theorem climbs_catchUp (seq : ℤ) : Climbs ref iso t (Client.catchUp ref seq) := by
  refine climbs_readCursor.bind fun c => ?_
  split_ifs
  · exact (climbs_pageMailbox _).bind fun _ => climbs_readCursor.bind fun _ => Climbs.ret _
  · exact Climbs.ret _

theorem climbs_ingestQueued (e : MailboxEnvelope) :
    Climbs ref iso t (Client.ingestQueued ref e) := by
  refine climbs_assertCurrent.bind fun _ => (Climbs.ofExcept _).bind fun seq =>
    (climbs_catchUp seq).bind fun r => ?_
  simp only
  split_ifs
  · exact Climbs.throw _
  · exact climbs_assertCurrent.bind fun _ => climbs_commitPage.bind fun _ =>
      (climbs_acknowledgePending _).bind fun _ => climbs_readCursor.bind fun _ => Climbs.ret _

theorem climbs_enqueue {α : Type} {operation : Async α} (h : Climbs ref iso t operation) :
    Climbs ref iso t (Client.enqueue operation) := by
  refine Climbs.eff (fun s r s' hx => ?_) fun place => Climbs.eff (fun s r s' hx => ?_) fun _ =>
    h.attempt.bind fun r => Climbs.eff (fun s r s' hx => ?_) fun _ => Climbs.ofExcept r
  · obtain ⟨l, -, rfl⟩ := hx
    rfl
  · obtain rfl := hx
    rfl
  · obtain ⟨l, -, rfl⟩ := hx
    rfl

/-- **Each operation comes to an end.** -/
theorem halts_operation {s : Line} (hcurrent : s.tab.memory.current = some ref) (op : LineOp) :
    Halts (Line.loose ref iso) (Line.Ahead ref) t op.prog s := by
  have hscope : ∀ {f : ScopeRef → Async Client.SyncChanges}, Climbs ref iso t (f ref) →
      Halts (Line.loose ref iso) (Line.Ahead ref) t (do
        let _ ← Client.currentScope >>= f
        return ()) s := by
    intro f hf
    refine .eff (fun s₁ _ => loose_enabled _ s₁) fun s₁ cur s₂ hr hx => ?_
    obtain ⟨l, ⟨rfl, rfl⟩, rfl⟩ := hx
    simp only [hr.current, hcurrent]
    refine ((hf _ _ le_rfl).mono (fun _ _ h => h) fun _ _ _ => trivial).andThen
      fun _ s₃ _ => .ret trivial
  cases op with
  | synchronize => exact hscope (climbs_enqueue climbs_synchronizeQueued)
  | ingest e => exact hscope (climbs_enqueue (climbs_ingestQueued e))

end Operations

section Progress

variable {ref : ScopeRef} {iso : Server.Instant → Client.Timestamp}
  {p p' : Pool Call Call.Answer JsError Line}

theorem holds_line (hp : System.Reachable (lineSystem ref iso) (Line.Initial ref) p) :
    (lineDiscipline ref).Holds (lineSystem ref iso) p :=
  Discipline.sound line_respected (fun s h => ⟨h.inv, fun t => ⟨h.place t, h.op t⟩⟩) hp

theorem loose_line : Loose (lineSystem ref iso) (Line.Initial ref) (Line.loose ref iso)
    (Line.Ahead ref) where
  calls := exec_loose
  refl := fun s => ⟨le_rfl, rfl⟩
  trans := fun h₁ h₂ => ⟨h₁.cursor.trans h₂.cursor, h₂.current.trans h₁.current⟩
  step := by
    rintro p p' hp ⟨m, hs⟩
    obtain ⟨hholds, hgrow⟩ := (holds_line hp).step line_respected hs
    exact ⟨hgrow.cursor, hholds.inv.current.trans (holds_line hp).inv.current.symm⟩
  halts := by
    rintro p t op s' hp ⟨rfl, -⟩
    have hcurrent : (p.shared.call t op).tab.memory.current = some ref :=
      (holds_line hp).inv.current
    exact halts_operation hcurrent op

/-- Calls that wait for nobody. -/
def Unhindered : Call → Prop
  | .turn _ => False
  | .recovery _ => False
  | _ => True

/-- The thread waits only at its own place. -/
inductive InLine (t : Tid) (s : Line) : Async Unit → Prop
  | free {q : Async Unit} (h : Prog.Calls Unhindered q) : InLine t s q
  | waits {place : Nat} {k : Unit → Async Unit} (hplace : s.place t = some place)
      (h : ∀ u, Prog.Calls Unhindered (k u)) : InLine t s (.eff (.turn place) k)
  | enters {k : Nat → Async Unit}
      (h : ∀ place : Nat, ∃ k', k place = .eff (.turn place) k' ∧
        ∀ u, Prog.Calls Unhindered (k' u)) : InLine t s (.eff .enqueue k)
  | begins {α : Type} {f : Client.Memory → α × Client.Memory} {k : α → Async Unit}
      (h : ∀ a, InLine t s (k a)) : InLine t s (.eff (.memory f) k)

theorem InLine.of_place {t : Tid} {s s' : Line} {q : Async Unit} (h : InLine t s q)
    (hplace : s'.place t = s.place t) : InLine t s' q := by
  induction h with
  | free h => exact .free h
  | waits hq h => exact .waits (hplace.trans hq) h
  | enters h => exact .enters h
  | begins _ ih => exact .begins ih

end Progress

section Free

variable {ref : ScopeRef} {α : Type}

theorem free_ofExcept (r : Except JsError α) :
    Prog.Calls Unhindered (Prog.ofExcept r : Async α) := by
  cases r with
  | ok a => trivial
  | error x => trivial

theorem free_awaitInbox (tx : Client.Transaction α) :
    Prog.Calls Unhindered (Client.awaitInbox tx) :=
  ⟨trivial, fun r => free_ofExcept r⟩

theorem free_awaitGateway (g : Request) : Prog.Calls Unhindered (Client.awaitGateway g) :=
  ⟨trivial, fun _ => ⟨trivial, fun r => free_ofExcept r⟩⟩

theorem free_transport : Prog.Calls Unhindered Client.transport :=
  ⟨trivial, fun _ => trivial⟩

theorem free_assertCurrent : Prog.Calls Unhindered (Client.assertCurrent ref) := by
  refine ⟨trivial, fun (b : Bool) => ?_⟩
  cases b <;> trivial

theorem free_acknowledgeOne (via : Client.Transport) (e : MailboxEnvelope) (ch : Changes) :
    Prog.Calls Unhindered (Client.acknowledgeOne ref via e ch) := by
  unfold Client.acknowledgeOne
  split_ifs
  · trivial
  · refine free_assertCurrent.bind fun _ => (free_awaitGateway _).attempt.bind fun r => ?_
    cases r with
    | error x => exact free_assertCurrent.bind fun _ => trivial
    | ok receipt =>
        refine free_assertCurrent.bind fun _ => (free_ofExcept _).bind fun _ =>
          (free_awaitInbox _).bind fun c => (free_awaitInbox _).attempt.bind fun r => ?_
        cases r with
        | ok cs => trivial
        | error x => exact free_assertCurrent.bind fun _ => trivial

theorem free_acknowledgeAll (via : Client.Transport) (es : List MailboxEnvelope) :
    ∀ ch : Changes, Prog.Calls Unhindered (Client.acknowledgeAll ref via es ch) := by
  induction es with
  | nil => exact fun _ => trivial
  | cons e rest ih => exact fun ch => (free_acknowledgeOne via e ch).bind ih

theorem free_acknowledgePending (ch : Changes) :
    Prog.Calls Unhindered (Client.acknowledgePending ref ch) :=
  free_transport.bind fun via => (free_awaitInbox _).bind fun es => free_acknowledgeAll via es ch

theorem free_backfillPages (through : ℤ) (ch : Changes) :
    Prog.Calls Unhindered (Client.backfillPages ref through ch) := by
  refine ⟨fun l => ?_, fun r => free_ofExcept r⟩
  obtain ⟨after, ch₁⟩ := l
  simp only
  split_ifs
  · trivial
  · refine free_assertCurrent.bind fun _ => (free_awaitGateway _).bind
      fun (page : Client.MailboxPage) => free_assertCurrent.bind fun _ => (free_ofExcept _).bind
        fun _ => (free_awaitInbox _).bind fun c => ?_
    cases page.nextSeq with
    | other => trivial
    | integer next =>
        refine (free_awaitInbox _).bind fun cs => ?_
        split_ifs <;> trivial

theorem free_backfillSequences (ch : Changes) :
    Prog.Calls Unhindered (Client.backfillSequences ref ch) := by
  refine (free_awaitInbox _).bind fun needed => ?_
  cases needed with
  | false => trivial
  | true =>
      exact (free_awaitInbox _).bind fun through => (free_backfillPages through ch).bind
        fun ch' => free_assertCurrent.bind fun _ => (free_awaitInbox _).bind fun _ => trivial

theorem free_pageMailbox (ch : Changes) :
    Prog.Calls Unhindered (Client.pageMailbox ref ch) := by
  refine ⟨fun ch₁ => ?_, fun r => free_ofExcept r⟩
  refine free_assertCurrent.bind fun _ => (free_awaitInbox _).bind fun c =>
    free_transport.bind fun via => (free_awaitGateway _).bind fun (page : Client.MailboxPage) =>
      free_assertCurrent.bind fun _ => (free_ofExcept _).bind fun _ => (free_awaitInbox _).bind
        fun cs => (free_acknowledgePending _).bind fun ch' => ?_
  split_ifs <;> trivial

theorem free_synchronizeQueued : Prog.Calls Unhindered (Client.synchronizeQueued ref) :=
  (free_backfillSequences _).bind fun _ => (free_acknowledgePending _).bind fun _ =>
    (free_pageMailbox _).bind fun _ => (free_awaitInbox _).bind fun _ => trivial

theorem free_catchUp (seq : ℤ) : Prog.Calls Unhindered (Client.catchUp ref seq) := by
  refine (free_awaitInbox _).bind fun c => ?_
  split_ifs
  · exact (free_pageMailbox _).bind fun _ => (free_awaitInbox _).bind fun _ => trivial
  · trivial

theorem free_ingestQueued (e : MailboxEnvelope) :
    Prog.Calls Unhindered (Client.ingestQueued ref e) := by
  refine free_assertCurrent.bind fun _ => (free_ofExcept _).bind fun seq =>
    (free_catchUp seq).bind fun r => ?_
  simp only
  split_ifs
  · trivial
  · exact free_assertCurrent.bind fun _ => (free_awaitInbox _).bind fun _ =>
      (free_acknowledgePending _).bind fun _ => (free_awaitInbox _).bind fun _ => trivial

end Free

section Progress

variable {ref : ScopeRef} {iso : Server.Instant → Client.Timestamp} {t u : Tid} {s s' : Line}
  {p p' : Pool Call Call.Answer JsError Line}

theorem inLine_enqueue {operation : ScopeRef → Async Client.SyncChanges}
    (h : ∀ scope, Prog.Calls Unhindered (operation scope)) :
    InLine t s (do
      let _ ← Client.currentScope >>= fun scope => Client.enqueue (operation scope)
      return ()) := by
  refine .begins fun (cur : Option ScopeRef) => ?_
  cases cur with
  | none => exact .free trivial
  | some scope =>
      refine .enters fun place => ⟨_, rfl, fun _ => ?_⟩
      have hleave : ∀ r : Except JsError Client.SyncChanges, Prog.Calls Unhindered
          (Prog.eff (.leave place) fun _ => Prog.ofExcept r : Async Client.SyncChanges) :=
        fun r => ⟨trivial, fun _ => free_ofExcept r⟩
      exact ((h scope).attempt.bind hleave).bind fun _ => trivial

theorem inLine_operation (op : LineOp) : InLine t s op.prog := by
  cases op with
  | synchronize => exact inLine_enqueue fun scope => free_synchronizeQueued
  | ingest e => exact inLine_enqueue fun scope => free_ingestQueued e

/-- The places of the others stay as they are. -/
theorem exec_place {c : Call} {r : c.Answer} (h : Line.exec ref iso t c s r s') (hu : u ≠ t) :
    s'.place u = s.place u := by
  cases c with
  | inbox tx =>
      obtain ⟨db, -, rfl⟩ := h
      rfl
  | response g =>
      obtain ⟨rfl, -⟩ := h
      rfl
  | enqueue =>
      obtain ⟨l, -, rfl⟩ := h
      exact Function.update_of_ne hu _ _
  | leave place =>
      obtain ⟨l, -, rfl⟩ := h
      exact Function.update_of_ne hu _ _
  | request g =>
      obtain rfl := h
      rfl
  | notify n =>
      obtain rfl := h
      rfl
  | _ =>
      obtain ⟨l, -, rfl⟩ := h
      rfl

/-- A step of the thread keeps it in line. -/
theorem InLine.act {c : Call} {k : c.Answer → Async Unit} {r : c.Answer}
    (h : InLine t s (.eff c k)) (hx : Line.exec ref iso t c s r s') : InLine t s' (k r) := by
  cases h with
  | free h => exact .free (h.2 r)
  | waits hplace h => exact .free (h r)
  | enters h =>
      obtain ⟨k', hk', hfree⟩ := h r
      obtain ⟨l, -, rfl⟩ := hx
      rw [hk']
      exact .waits (Function.update_self ..) hfree
  | begins h =>
      obtain ⟨l, -, rfl⟩ := hx
      exact (h r).of_place rfl

/-- Every thread of a reachable pool is in line. -/
theorem reachable_inLine (hp : System.Reachable (lineSystem ref iso) (Line.Initial ref) p) :
    ∀ t q, p.threads t = some q → InLine t p.shared q := by
  refine hp.induct (P := fun p => ∀ t q, p.threads t = some q → InLine t p.shared q) ?_ ?_
  · intro s _ t q ht
    cases ht
  · intro p p' m _ ih hs
    have hupdate : ∀ {t : Tid} {s' : Line} {q' : Async Unit},
        (∀ u, u ≠ t → s'.place u = p.shared.place u) → InLine t s' q' →
        ∀ u q, Function.update p.threads t (some q') u = some q → InLine u s' q := by
      intro t s' q' hplace hq' u q hu
      by_cases hut : u = t
      · subst hut
        simp only [Function.update_self, Option.some.injEq] at hu
        rw [← hu]
        exact hq'
      · simp only [Function.update_of_ne hut] at hu
        exact (ih u q hu).of_place (hplace u hut)
    cases hs with
    | act ht hx => exact hupdate (fun u hu => exec_place hx hu) ((ih _ _ ht).act hx)
    | unfold ht =>
        refine hupdate (fun _ _ => rfl) ?_
        cases ih _ _ ht with
        | free h => exact .free (Prog.Calls.unroll h)
    | start ht hst =>
        obtain ⟨rfl, -⟩ := hst
        exact hupdate (fun _ _ => rfl) (inLine_operation _)
    | stop ht hst => exact hst.elim
    | env hst =>
        obtain ⟨sec, op, db, -, -, -, heq⟩ := hst
        intro u q hu
        exact (ih u q hu).of_place (by rw [heq])

/-- A call that waits for nobody can be performed. -/
theorem exec_enabled (hi : Line.Inv ref s) {c : Call} (hc : Unhindered c) :
    ∃ r s', Line.exec ref iso t c s r s' := by
  cases c with
  | inbox tx =>
      cases htx : tx s.inbox with
      | ok a => exact ⟨.ok a.1, _, a.2, .inl ⟨a.1, htx, rfl⟩, rfl⟩
      | error x => exact ⟨.error x, _, s.inbox, .inr ⟨x, htx, rfl, rfl⟩, rfl⟩
  | request g => exact ⟨(), _, rfl⟩
  | response g =>
      cases g with
      | getMailbox via after limit =>
          exact ⟨_, s, rfl, s.server, ⟨hi.server.wf, (hi.asked t).follows, Server.Follows.refl _⟩,
            rfl⟩
      | acknowledgeEnvelope via id =>
          exact ⟨.error (.error ""), s, rfl, fun receipt h => by cases h⟩
      | _ => exact ⟨.error (.error ""), s, rfl, trivial⟩
  | transport => exact ⟨.http, _, _, rfl, rfl⟩
  | enqueue => exact ⟨s.tab.chain.next, _, _, ⟨rfl, rfl⟩, rfl⟩
  | turn place => exact hc.elim
  | leave place => exact ⟨(), _, _, rfl, rfl⟩
  | memory f => exact ⟨_, _, _, ⟨rfl, rfl⟩, rfl⟩
  | recovery n => exact hc.elim
  | sleep => exact ⟨(), _, _, rfl, rfl⟩
  | clock => exact ⟨"", _, _, rfl, rfl⟩
  | freshId => exact ⟨"", _, _, rfl, rfl⟩
  | notify n => exact ⟨(), _, rfl⟩

/-- The thread can take a step. -/
def CanStep (ref : ScopeRef) (iso : Server.Instant → Client.Timestamp)
    (p : Pool Call Call.Answer JsError Line) (t : Tid) : Prop :=
  ∃ m p', (m = .act t ∨ m = .unfold t) ∧ System.Step (lineSystem ref iso) m p p'

theorem canStep_eff {c : Call} {k : c.Answer → Async Unit} (ht : p.threads t = some (.eff c k))
    (h : ∃ r s', Line.exec ref iso t c p.shared r s') : CanStep ref iso p t := by
  obtain ⟨r, s', hx⟩ := h
  exact ⟨_, _, .inl rfl, .act ht hx⟩

/-- A thread in line goes on unless it waits for an earlier one. -/
theorem InLine.canStep (hi : Line.Inv ref p.shared) {q : Async Unit} (h : InLine t p.shared q)
    (ht : p.threads t = some q) (hret : q ≠ .ret ()) (hthrow : ∀ x, q ≠ .throw x) :
    CanStep ref iso p t ∨ ∃ place, p.shared.place t = some place ∧
      ¬∀ q' < place, q' ∈ p.shared.tab.chain.settled := by
  cases h with
  | free h =>
      refine .inl ?_
      cases q with
      | ret a => exact absurd rfl hret
      | throw x => exact absurd rfl (hthrow x)
      | eff c k => exact canStep_eff ht (exec_enabled hi h.1)
      | loop l body k => exact ⟨_, _, .inr rfl, .unfold ht⟩
  | @waits place k hplace h =>
      by_cases hall : ∀ q' < place, q' ∈ p.shared.tab.chain.settled
      · exact .inl (canStep_eff ht ⟨(), _, _, ⟨hall, rfl⟩, rfl⟩)
      · exact .inr ⟨place, hplace, hall⟩
  | enters h => exact .inl (canStep_eff ht (exec_enabled hi trivial))
  | begins h => exact .inl (canStep_eff ht (exec_enabled hi trivial))

/-- **No deadlock.**  While an operation has not ended, some operation can go on. -/
theorem exists_canStep (hp : System.Reachable (lineSystem ref iso) (Line.Initial ref) p)
    {q : Async Unit} (ht : p.threads t = some q) (hret : q ≠ .ret ()) :
    ∃ u, CanStep ref iso p u := by
  have hholds := holds_line hp
  have hthrow : ∀ u x, p.threads u ≠ some (.throw x) := fun u x hu => hholds.safe u _ hu
  have hstep : ∀ u q, p.threads u = some q → q ≠ .ret () → CanStep ref iso p u ∨
      ∃ place, p.shared.place u = some place ∧
        ¬∀ q' < place, q' ∈ p.shared.tab.chain.settled := fun u q hu hq =>
    (reachable_inLine hp u q hu).canStep hholds.inv hu hq fun x hx => hthrow u x (hx ▸ hu)
  rcases hstep t q ht hret with h | ⟨place, hplace, hnot⟩
  · exact ⟨t, h⟩
  · -- the first place that has not been left
    classical
    have hex : ∃ q', q' ∉ p.shared.tab.chain.settled := by
      by_contra hall
      exact hnot fun q' _ => by_contra fun h => hall ⟨q', h⟩
    have hfirst := Nat.find_spec hex
    have hearlier : ∀ q' < Nat.find hex, q' ∈ p.shared.tab.chain.settled := fun q' h =>
      not_not.mp (Nat.find_min hex h)
    have hlt : Nat.find hex < p.shared.tab.chain.next := by
      refine lt_of_le_of_lt (Nat.find_min' hex (hholds.inv.places t place hplace).2)
        (hholds.inv.places t place hplace).1
    rcases hholds.inv.holders _ hlt with h | ⟨u, hu⟩
    · exact absurd h hfirst
    · cases hthread : p.threads u with
      | none =>
          rw [(hholds.idle u hthread).1] at hu
          cases hu
      | some q' =>
          have hne : q' ≠ .ret () := by
            rintro rfl
            have hdone : p.shared.Done ref u := hholds.safe u _ hthread
            rw [hdone.1] at hu
            cases hu
          rcases hstep u q' hthread hne with h | ⟨place', hplace', hnot'⟩
          · exact ⟨u, h⟩
          · rw [hu, Option.some.injEq] at hplace'
            exact absurd (hplace' ▸ hearlier) hnot'

/-- **Main result.**  At every moment of every run no operation has failed, the
inbox is in step with the server, a synchronization that has ended has caught
up with what the server had when it was called, and unless all operations have
ended one of them can go on; and each of them comes to rest. -/
theorem synchronization_never_gets_stuck
    (T : Timeline (lineSystem ref iso) (Line.Initial ref)) :
    (∀ n, (∀ t x, (T.pool n).threads t ≠ some (.throw x)) ∧
      InStep ref (T.pool n).shared.server (T.pool n).shared.inbox ∧
      (∀ t, (T.pool n).threads t = some (.ret ()) →
        (T.pool n).shared.op t = some .synchronize →
          (Server.lastSeq ref.scope.deviceId ((T.pool n).shared.began t) : ℤ) ≤
            (T.pool n).shared.cursor ref) ∧
      ∀ t q, (T.pool n).threads t = some q → q = .ret () ∨ ∃ u, CanStep ref iso (T.pool n) u) ∧
    ∀ t, ∃ N, ∀ n, N ≤ n → ¬T.Acts t n := by
  refine ⟨fun n => ?_, fun t => loose_line.rests (fun _ _ _ h => h) T t⟩
  have hp := T.reachable n
  have hholds := holds_line hp
  refine ⟨fun t x ht => hholds.safe t _ ht, hholds.inv.inStep, fun t ht hop => ?_,
    fun t q ht => ?_⟩
  · have hdone : (T.pool n).shared.Done ref t := hholds.safe t _ ht
    exact hdone.2 hop
  · by_cases hret : q = .ret ()
    · exact .inl hret
    · exact .inr (exists_canStep hp ht hret)

end Progress

section FirstPage

/-! A device that synchronizes with a server that has one envelope for it. -/

def phoneRef : ScopeRef :=
  ⟨phoneScope, 0⟩

def firstServer : Server.Db where
  users := [⟨"alice", "alice", "secret", "active"⟩, ⟨"bob", "bob", "secret", "active"⟩]
  devices := [⟨phoneScope.deviceId, "alice", "phone", 0, 0, none⟩,
    ⟨laptopScope.deviceId, "bob", "laptop", 0, 0, none⟩]
  mailboxes := [⟨phoneScope.deviceId, 1⟩, ⟨laptopScope.deviceId, 0⟩]
  chats := [⟨"c1", 1, "DIRECT"⟩]
  pairs := [⟨"c1", "alice", "bob"⟩]
  members := [⟨"c1", "alice"⟩, ⟨"c1", "bob"⟩]
  messages := [firstMessage]
  envelopes := [firstEnvelope]

/-- An inbox without envelopes whose backfill has been done. -/
def newInbox : Client.Database :=
  { emptyInbox with
    cursors := [Client.record (scopeKey phoneScope) Client.backfillId .done] }

def firstLine : Line where
  server := firstServer
  inbox := newInbox
  tab := { memory := { current := some phoneRef } }
  asked := fun _ => firstServer
  began := fun _ => firstServer
  op := fun _ => none
  place := fun _ => none

/-- An empty inbox is in step with every server. -/
theorem inStep_newInbox (server : Server.Db) : InStep phoneRef server newInbox := by
  have hcursor : cursorAt (scopeKey phoneScope) newInbox = 0 := by decide
  refine ⟨Client.rows_nil, fun id x hx => ?_, ?_, ?_, fun k h₁ h₂ => ?_⟩
  · cases hx
  · exact hcursor.ge
  · exact hcursor.le.trans (Int.natCast_nonneg _)
  · have hle : k ≤ 0 := h₂.trans hcursor.le
    omega

theorem firstLine_initial : Line.Initial phoneRef firstLine where
  wf := by
    constructor <;> decide
  mailbox := List.mem_cons_self
  safe := by decide
  valid := by decide
  inStep := inStep_newInbox firstServer
  current := rfl
  chain := rfl
  asked := fun _ => rfl
  began := fun _ => rfl
  op := fun _ => rfl
  place := fun _ => rfl

/-- The inbox after the first page. -/
def filledInbox : Client.Database :=
  Client.putCursor (scopeKey phoneScope) 1
    { newInbox with envelopes := [firstLive].foldl (Client.storeEnvelope phoneScope) [] }

theorem servedPage_first :
    servedPage newYear phoneScope.deviceId 0 100 firstServer =
      ⟨[firstLive], .integer 1, false⟩ := by
  decide

/-- The device synchronizes. -/
theorem reachable_synchronized :
    ∃ p : Pool Call Call.Answer JsError Line,
      System.Reachable (lineSystem phoneRef newYear) (Line.Initial phoneRef) p ∧
        p.threads 0 = some (.ret ()) ∧ p.shared.op 0 = some .synchronize ∧
          p.shared.began 0 = firstServer ∧ p.shared.server = firstServer ∧
          ∀ t, t ≠ 0 → p.threads t = none := by
  have h : System.Reachable (lineSystem phoneRef newYear) (Line.Initial phoneRef)
      (System.idle firstLine) := .idle firstLine_initial
  have hvalid : Client.valid phoneScope newInbox = true := by decide
  have hcursor : cursorAt (scopeKey phoneScope) newInbox = 0 := by decide
  have hvalid' : Client.valid phoneScope filledInbox = true := by decide
  have hcursor' : cursorAt (scopeKey phoneScope) filledInbox = 1 := by decide
  have h := h.starts 0 .synchronize rfl ⟨rfl, trivial⟩
  have h := h.acts 0 rfl (some phoneRef) ⟨_, ⟨rfl, rfl⟩, rfl⟩
  have h := h.acts 0 rfl (0 : Nat) ⟨_, ⟨rfl, rfl⟩, rfl⟩
  have h := h.acts 0 rfl () ⟨_, ⟨fun q hq => absurd hq (Nat.not_lt_zero q), rfl⟩, rfl⟩
  have hneeds : Client.needsSequenceBackfill phoneScope newInbox = .ok (false, newInbox) := by
    rw [Client.needsSequenceBackfill_valid hvalid]
    rfl
  have h := h.acts 0 rfl (.ok false) ⟨_, .inl ⟨_, hneeds, rfl⟩, rfl⟩
  have h := h.acts 0 rfl Client.Transport.http ⟨_, rfl, rfl⟩
  have hpending : Client.getPendingAcknowledgments phoneScope newInbox = .ok ([], newInbox) := by
    rw [Client.getPendingAcknowledgments_valid hvalid]
    rfl
  have h := h.acts 0 rfl (.ok []) ⟨_, .inl ⟨_, hpending, rfl⟩, rfl⟩
  have h := h.step (.unfold (t := 0) rfl)
  have h := h.acts 0 rfl true ⟨_, ⟨rfl, rfl⟩, rfl⟩
  have hread : Client.readCursor phoneScope newInbox = .ok (0, newInbox) := by
    rw [Client.readCursor_valid hvalid, hcursor]
  have h := h.acts 0 rfl (.ok 0) ⟨_, .inl ⟨_, hread, rfl⟩, rfl⟩
  have h := h.acts 0 rfl Client.Transport.http ⟨_, rfl, rfl⟩
  have h := h.acts 0 rfl () rfl
  have h := h.acts 0 rfl (.ok ⟨[firstLive], .integer 1, false⟩) ⟨rfl, firstServer,
    ⟨firstLine_initial.wf, Server.Follows.refl _, Server.Follows.refl _⟩,
    congrArg Except.ok servedPage_first.symm⟩
  have h := h.acts 0 rfl true ⟨_, ⟨rfl, rfl⟩, rfl⟩
  obtain ⟨⟨cs, db⟩, hcommit⟩ := @Client.commitPage_total phoneScope 0 1 [firstLive] newInbox hvalid
    hcursor (by decide) rfl (by decide)
  obtain rfl : db = filledInbox := (Client.commitPage_ok hcommit).1.db_eq
  have h := h.acts 0 rfl (.ok cs) ⟨_, .inl ⟨_, hcommit, rfl⟩, rfl⟩
  have h := h.acts 0 rfl Client.Transport.http ⟨_, rfl, rfl⟩
  have hpending' : Client.getPendingAcknowledgments phoneScope filledInbox =
      .ok ([firstLive], filledInbox) := by
    rw [Client.getPendingAcknowledgments_valid hvalid']
    rfl
  have h := h.acts 0 rfl (.ok [firstLive]) ⟨_, .inl ⟨_, hpending', rfl⟩, rfl⟩
  have h := h.acts 0 rfl true ⟨_, ⟨rfl, rfl⟩, rfl⟩
  have h := h.acts 0 rfl () rfl
  -- the acknowledgment is lost
  have h := h.acts 0 rfl (.error (.error "offline")) ⟨rfl, fun receipt heq => by cases heq⟩
  have h := h.acts 0 rfl true ⟨_, ⟨rfl, rfl⟩, rfl⟩
  have hread' : Client.readCursor phoneScope filledInbox = .ok (1, filledInbox) := by
    rw [Client.readCursor_valid hvalid', hcursor']
  have h := h.acts 0 rfl (.ok 1) ⟨_, .inl ⟨_, hread', rfl⟩, rfl⟩
  have h := h.acts 0 rfl () ⟨_, rfl, rfl⟩
  refine ⟨_, h, rfl, rfl, rfl, rfl, fun t ht => ?_⟩
  simp only [↓Function.update_idem]
  exact Function.update_of_ne ht _ _

/-- It has caught up. -/
theorem synchronization_never_gets_stuck_first :
    ∃ p : Pool Call Call.Answer JsError Line,
      p.threads 0 = some (.ret ()) ∧ 1 ≤ p.shared.cursor phoneRef ∧
        InStep phoneRef p.shared.server p.shared.inbox := by
  obtain ⟨p, hp, hret, hop, hbegan, -⟩ := reachable_synchronized
  obtain ⟨hmoments, -⟩ := synchronization_never_gets_stuck (Timeline.resting hp)
  obtain ⟨-, hstep, hcaught, -⟩ := hmoments 0
  have hpool : (Timeline.resting hp).pool 0 = p := rfl
  rw [hpool] at hstep hcaught
  have hlast : Server.lastSeq phoneRef.scope.deviceId (p.shared.began 0) = 1 := by
    rw [hbegan]
    decide
  have hle := hcaught 0 hret hop
  rw [hlast] at hle
  exact ⟨p, hret, hle, hstep⟩

end FirstPage

end EndToEnd
end SecureMessenger

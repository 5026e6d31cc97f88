import SecureMessenger.EndToEnd.Line

/-!
# The invariant of the line

The inbox stays in step with the server.  Only the thread whose turn it is in
the promise chain commits pages and envelopes, so nobody else moves the cursor
while it is at work: the cursor it has read is the one its commit expects.
-/

namespace SecureMessenger
namespace EndToEnd

open Lib
open Lib.Discipline
open Client (ScopeRef Call JsError JsNumber envelopeAt Rows cursorAt scopeKey MailboxEnvelope)

section Mirrors

variable {d : Server.UUID} {db db' : Server.Db} {x y : MailboxEnvelope}

theorem agrees_mailboxEnvelope (iso : Server.Instant → Client.Timestamp)
    (entry : Server.MailboxEntry) : Agrees (mailboxEnvelope iso entry) entry :=
  ⟨rfl, rfl, rfl, rfl, rfl⟩

theorem EntryOf.follows {entry : Server.MailboxEntry} (h : EntryOf db d entry)
    (hf : Server.Follows db db') :
    ∃ entry', EntryOf db' d entry' ∧ entry'.message = entry.message ∧
      Server.SameEnvelope entry.envelope entry'.envelope := by
  obtain ⟨e', he', hs⟩ := hf.envelopes _ h.envelope
  exact ⟨⟨e', entry.message⟩, ⟨he', hs.device.trans h.device, hf.messages _ h.message,
    h.message_id.trans hs.message_id.symm⟩, rfl, hs⟩

theorem Mirrors.follows (h : Mirrors d db x) (hf : Server.Follows db db') : Mirrors d db' x := by
  obtain ⟨entry, he, ha⟩ := h
  obtain ⟨entry', he', hm, hs⟩ := he.follows hf
  refine ⟨entry', he', ha.id.trans hs.id.symm, ha.message_id.trans hs.message_id.symm,
    ha.device.trans hs.device.symm, ?_, ?_⟩
  · rw [ha.seq, hs.seq]
  · rw [ha.chat_id, hm]

theorem Mirrors.device (h : Mirrors d db x) : x.recipient_device_id = d := by
  obtain ⟨entry, he, ha⟩ := h
  exact ha.device.trans he.device

/-- The number of a mirrored envelope. -/
theorem Mirrors.seq (h : Mirrors d db x) (hw : Server.Wf db) :
    ∃ k : Nat, x.mailbox_seq = .integer k ∧ 1 ≤ k ∧ k ≤ Server.lastSeq d db := by
  obtain ⟨entry, he, ha⟩ := h
  exact ⟨_, ha.seq, Server.seq_bounds hw he.envelope he.device⟩

/-- Two copies of one row have one number. -/
theorem Mirrors.same (hw : Server.Wf db) (hx : Mirrors d db x) (hy : Mirrors d db y)
    (hid : x.id = y.id) : x.mailbox_seq = y.mailbox_seq := by
  obtain ⟨entry, he, ha⟩ := hx
  obtain ⟨entry', he', ha'⟩ := hy
  have henv : entry.envelope = entry'.envelope :=
    eq_of_key hw.unique.envelopes he.envelope he'.envelope
      (ha.id.symm.trans (hid.trans ha'.id))
  rw [ha.seq, ha'.seq, henv]

/-- Merging keeps the copy. -/
theorem Mirrors.merge (h : Mirrors d db x) (existing : Option MailboxEnvelope)
    (l : List Client.EnvelopeProperty) :
    Mirrors d db ((Client.mergeEnvelope existing x).arrange l) := by
  obtain ⟨entry, he, ha⟩ := h
  exact ⟨entry, he, ha.id, ha.message_id, ha.device, ha.seq, ha.chat_id⟩

/-- The answer to an acknowledgment of the envelope: a version of its row. -/
def Receipt (server : Server.Db) (e : MailboxEnvelope) (receipt : Client.MessageEnvelope) : Prop :=
  ∃ (iso : Server.Instant → Client.Timestamp) (row row' : Server.Envelope) (now : Server.Instant),
    row' ∈ server.envelopes ∧ Server.SameEnvelope row row' ∧ row.id = e.id ∧
      receipt = messageEnvelope iso (Server.Db.acknowledged now row)

theorem Receipt.follows {receipt : Client.MessageEnvelope} (h : Receipt db x receipt)
    (hf : Server.Follows db db') : Receipt db' x receipt := by
  obtain ⟨iso, row, row', now, hrow, hs, hid, hr⟩ := h
  obtain ⟨row'', hrow'', hs'⟩ := hf.envelopes row' hrow
  exact ⟨iso, row, row'', now, hrow'', hs.trans hs', hid, hr⟩

/-- The receipt of a row, put on a copy of it, is a copy again. -/
theorem Mirrors.acknowledged {receipt : Client.MessageEnvelope} (hw : Server.Wf db)
    (h : Mirrors d db x) (hr : Receipt db x receipt) :
    Mirrors d db (Client.acknowledgedEnvelope x receipt) := by
  obtain ⟨entry, he, ha⟩ := h
  obtain ⟨iso, row, row', now, hrow, hs, hid, rfl⟩ := hr
  have henv : row' = entry.envelope :=
    eq_of_key hw.unique.envelopes hrow he.envelope (hs.id.trans (hid.trans ha.id))
  subst henv
  refine ⟨entry, he, hs.id.symm, hs.message_id.symm, hs.device.symm, ?_, ha.chat_id⟩
  rw [hs.seq]
  rfl

/-- The client accepts the receipt. -/
theorem Mirrors.validateReceipt {scope : Client.InboxScope} {receipt : Client.MessageEnvelope}
    (hw : Server.Wf db) (h : Mirrors scope.deviceId db x) (hr : Receipt db x receipt) :
    Client.validateReceipt scope x receipt = .ok () := by
  obtain ⟨entry, he, ha⟩ := h
  obtain ⟨iso, row, row', now, hrow, hs, hid, rfl⟩ := hr
  have henv : row' = entry.envelope :=
    eq_of_key hw.unique.envelopes hrow he.envelope (hs.id.trans (hid.trans ha.id))
  subst henv
  unfold Client.validateReceipt
  rw [if_neg]
  rintro (h | h | h | h)
  · exact h hid
  · exact h (hs.message_id.symm.trans ha.message_id.symm)
  · exact h (hs.device.symm.trans he.device)
  · simp [messageEnvelope, Server.Db.acknowledged] at h

end Mirrors

theorem InStep.follows {ref : ScopeRef} {server server' : Server.Db} {inbox : Client.Database}
    (h : InStep ref server inbox) (hf : Server.Follows server server')
    (hle : Server.lastSeq ref.scope.deviceId server ≤
      Server.lastSeq ref.scope.deviceId server') : InStep ref server' inbox where
  rows := h.rows
  stored := fun id x hx => (h.stored id x hx).follows hf
  nonneg := h.nonneg
  behind := h.behind.trans (by exact_mod_cast hle)
  complete := h.complete

/-- A transaction that changes neither envelopes nor cursor. -/
theorem InStep.reading {ref : ScopeRef} {server : Server.Db} {inbox inbox' : Client.Database}
    (h : InStep ref server inbox) (henv : inbox'.envelopes = inbox.envelopes)
    (hcur : cursorAt (scopeKey ref.scope) inbox' = cursorAt (scopeKey ref.scope) inbox) :
    InStep ref server inbox' := by
  obtain ⟨hrows, hstored, hnonneg, hbehind, hcomplete⟩ := h
  rw [← henv] at hrows hstored hcomplete
  rw [← hcur] at hnonneg hbehind hcomplete
  exact ⟨hrows, hstored, hnonneg, hbehind, hcomplete⟩

/-- A commit of copies that leaves no gap. -/
theorem InStep.commit {ref : ScopeRef} {server : Server.Db} {inbox inbox' : Client.Database}
    {cursor next : ℤ} {es : List MailboxEnvelope} (h : InStep ref server inbox)
    (hw : Server.Wf server) (hc : Client.Committing ref.scope cursor es next inbox inbox')
    (hes : ∀ e ∈ es, Mirrors ref.scope.deviceId server e)
    (hnext : next ≤ Server.lastSeq ref.scope.deviceId server)
    (hcover : ∀ k : ℤ, cursor < k → k ≤ next → ∃ e ∈ es, e.mailbox_seq = .integer k) :
    InStep ref server inbox' := by
  have hcursor := hc.cursor_eq
  have hle := hc.le
  have hnonneg := h.nonneg
  refine ⟨?_, ?_, ?_, ?_, ?_⟩
  · rw [hc.envelopes']
    exact Client.rows_foldl h.rows
  · rw [hc.envelopes']
    exact Client.envelopeAt_foldl_forall (fun _ x => Mirrors ref.scope.deviceId server x)
      h.stored fun e he existing l _ => (hes e he).merge existing l
  · rw [hc.cursor']
    omega
  · rw [hc.cursor']
    exact hnext
  · rw [hc.cursor', hc.envelopes']
    intro k hk hkn
    by_cases hold : k ≤ cursor
    · obtain ⟨id, x, hx, hseq⟩ := h.complete k hk (by omega)
      have hid := Client.envelopeAt_id h.rows hx
      refine ⟨id, Client.envelopeAt_foldl_keeps ⟨x, hx, hseq⟩ fun e he y _ hide _ => ?_⟩
      exact ((hes e he).same hw (h.stored id x hx) (hide.trans hid.symm)).trans hseq
    · obtain ⟨e, he, hseq⟩ := hcover k (by omega) hkn
      refine ⟨e.id, Client.envelopeAt_foldl_mem he (fun _ _ => hseq) fun e' he' x _ hid _ => ?_⟩
      exact ((hes e' he').same hw (hes e he) hid).trans hseq

namespace Line

/-- It is the turn of the thread at this place. -/
def Turn (q : Nat) (t : Tid) (s : Line) : Prop :=
  s.place t = some q ∧ ∀ q' < q, q' ∈ s.tab.chain.settled

/-- The thread has left the chain; a synchronization has caught up with what
the server had when it was called. -/
def Done (ref : ScopeRef) (t : Tid) (s : Line) : Prop :=
  s.place t = none ∧ (s.op t = some .synchronize →
    (Server.lastSeq ref.scope.deviceId (s.began t) : ℤ) ≤ s.cursor ref)

section Invariant

variable (ref : ScopeRef)

/-- An earlier state of the server. -/
structure Earlier (db server : Server.Db) : Prop where
  wf : Server.Wf db
  mailbox : Server.HasMailbox ref.scope.deviceId db
  follows : Server.Follows db server

/-- The invariant. -/
structure Inv (s : Line) : Prop where
  server : Earlier ref s.server s.server
  safe : (Server.lastSeq ref.scope.deviceId s.server : ℤ) ≤ JsNumber.maxSafeInteger
  valid : Client.valid ref.scope s.inbox = true
  inStep : InStep ref s.server s.inbox
  current : s.tab.memory.current = some ref
  asked : ∀ t, Earlier ref (s.asked t) s.server
  began : ∀ t, Earlier ref (s.began t) s.server
  places : ∀ t q, s.place t = some q → q < s.tab.chain.next ∧ q ∉ s.tab.chain.settled
  distinct : ∀ t u q, s.place t = some q → s.place u = some q → t = u
  holders : ∀ q < s.tab.chain.next, q ∈ s.tab.chain.settled ∨ ∃ t, s.place t = some q
  settled : ∀ q ∈ s.tab.chain.settled, q < s.tab.chain.next

/-- What every step respects. -/
structure Grows (s s' : Line) : Prop where
  server : Server.Follows s.server s'.server
  cursor : s.cursor ref ≤ s'.cursor ref
  settled : ∀ q ∈ s.tab.chain.settled, q ∈ s'.tab.chain.settled
  called : ∀ t op, s.op t = some op → s'.op t = some op ∧ s'.began t = s.began t

/-- What a thread relies on. -/
structure Own (t : Tid) (s s' : Line) : Prop where
  grow : Grows ref s s'
  place : s'.place t = s.place t
  asked : s'.asked t = s.asked t
  op : s'.op t = s.op t
  frozen : ∀ q, s.Turn q t → s'.cursor ref = s.cursor ref

variable {ref}

theorem Grows.refl (s : Line) : Grows ref s s :=
  ⟨Server.Follows.refl _, le_rfl, fun _ h => h, fun _ _ h => ⟨h, rfl⟩⟩

theorem Grows.trans {s₁ s₂ s₃ : Line} (h : Grows ref s₁ s₂) (h' : Grows ref s₂ s₃) :
    Grows ref s₁ s₃ :=
  ⟨h.server.trans h'.server, h.cursor.trans h'.cursor,
    fun q hq => h'.settled q (h.settled q hq), fun t op hop =>
      ⟨(h'.called t op (h.called t op hop).1).1,
        (h'.called t op (h.called t op hop).1).2.trans (h.called t op hop).2⟩⟩

theorem Own.refl (t : Tid) (s : Line) : Own ref t s s :=
  ⟨Grows.refl s, rfl, rfl, rfl, fun _ _ => rfl⟩

theorem Turn.own {q : Nat} {t : Tid} {s s' : Line} (h : s.Turn q t) (ho : Own ref t s s') :
    s'.Turn q t :=
  ⟨ho.place.trans h.1, fun q' hq' => ho.grow.settled q' (h.2 q' hq')⟩

theorem Own.trans {t : Tid} {s₁ s₂ s₃ : Line} (h : Own ref t s₁ s₂) (h' : Own ref t s₂ s₃) :
    Own ref t s₁ s₃ where
  grow := h.grow.trans h'.grow
  place := h'.place.trans h.place
  asked := h'.asked.trans h.asked
  op := h'.op.trans h.op
  frozen := fun q ht => (h'.frozen q (ht.own h)).trans (h.frozen q ht)

theorem Done.own {t : Tid} {s s' : Line} (h : s.Done ref t) (ho : Own ref t s s') :
    s'.Done ref t := by
  refine ⟨ho.place.trans h.1, fun hop => ?_⟩
  have hsync := ho.op.symm.trans hop
  rw [(ho.grow.called t _ hsync).2]
  exact (h.2 hsync).trans ho.grow.cursor

/-- One thread at a time has its turn. -/
theorem Turn.unique {q q' : Nat} {t u : Tid} {s : Line} (hi : Inv ref s) (ht : s.Turn q t)
    (hu : s.Turn q' u) : t = u := by
  obtain ⟨hq, hset⟩ := ht
  obtain ⟨hq', hset'⟩ := hu
  rcases lt_trichotomy q q' with h | h | h
  · exact absurd (hset' q h) (hi.places t q hq).2
  · exact hi.distinct t u q hq (h ▸ hq')
  · exact absurd (hset q' h) (hi.places u q' hq').2

theorem Earlier.later {db server server' : Server.Db} (h : Earlier ref db server)
    (hf : Server.Follows server server') : Earlier ref db server' :=
  ⟨h.wf, h.mailbox, h.follows.trans hf⟩

end Invariant

end Line

/-- The discipline of the line.  No thread fails. -/
def lineDiscipline (ref : ScopeRef) : Discipline Line where
  inv := Line.Inv ref
  grow := Line.Grows ref
  own := Line.Own ref
  idle := fun t s => s.place t = none ∧ s.op t = none
  done := Line.Done ref
  failed := fun _ _ => False
  grow_refl := Line.Grows.refl
  grow_trans := Line.Grows.trans
  own_refl := Line.Own.refl
  own_trans := Line.Own.trans
  idle_drift := fun h _ ho => ⟨ho.place.trans h.1, ho.op.trans h.2⟩
  done_drift := fun h _ ho => h.own ho
  failed_drift := fun h _ _ => h

section Steps

variable {ref : ScopeRef} {s : Line} {t : Tid}

/-- A step that changes only the memory of the tab. -/
theorem keeps_memory (hi : Line.Inv ref s) {tab : Client.Tab}
    (hcurrent : tab.memory.current = s.tab.memory.current) (hchain : tab.chain = s.tab.chain) :
    (lineDiscipline ref).Keeps t s { s with tab := tab } := by
  have hg : Line.Grows ref s { s with tab := tab } :=
    ⟨Server.Follows.refl _, le_rfl, fun q hq => hchain ▸ hq, fun _ _ h => ⟨h, rfl⟩⟩
  have hplaces := hi.places
  have hholders := hi.holders
  have hsettled := hi.settled
  rw [← hchain] at hplaces hholders hsettled
  exact ⟨⟨hi.server, hi.safe, hi.valid, hi.inStep, hcurrent.trans hi.current, hi.asked, hi.began,
    hplaces, hi.distinct, hholders, hsettled⟩, hg, fun u _ => ⟨hg, rfl, rfl, rfl, fun _ _ => rfl⟩⟩

/-- A request leaves: the server answers from the present state or a later
one. -/
theorem keeps_request (hi : Line.Inv ref s) :
    (lineDiscipline ref).Keeps t s
      { s with asked := Function.update s.asked t s.server } := by
  have hg : Line.Grows ref s { s with asked := Function.update s.asked t s.server } :=
    ⟨Server.Follows.refl _, le_rfl, fun _ h => h, fun _ _ h => ⟨h, rfl⟩⟩
  refine ⟨⟨hi.server, hi.safe, hi.valid, hi.inStep, hi.current, fun u => ?_, hi.began, hi.places,
    hi.distinct, hi.holders, hi.settled⟩, hg, fun u hu => ⟨hg, rfl, ?_, rfl, fun _ _ => rfl⟩⟩
  · by_cases hut : u = t
    · subst hut
      simpa using hi.server
    · simpa [hut] using hi.asked u
  · simp [hu]

/-- An operation is called. -/
theorem keeps_call (hi : Line.Inv ref s) (hidle : s.op t = none) (op : LineOp) :
    (lineDiscipline ref).Keeps t s (s.call t op) := by
  have hg : Line.Grows ref s (s.call t op) := by
    refine ⟨Server.Follows.refl _, le_rfl, fun _ h => h, fun u op' hop => ?_⟩
    have hut : u ≠ t := by
      rintro rfl
      rw [hidle] at hop
      cases hop
    simpa [Line.call, hut] using hop
  refine ⟨⟨hi.server, hi.safe, hi.valid, hi.inStep, hi.current, hi.asked, fun u => ?_, hi.places,
    hi.distinct, hi.holders, hi.settled⟩, hg, fun u hu => ⟨hg, rfl, rfl, ?_, fun _ _ => rfl⟩⟩
  · by_cases hut : u = t
    · subst hut
      simpa [Line.call] using hi.server
    · simpa [Line.call, hut] using hi.began u
  · simp [Line.call, hu]

/-- The thread takes the next place in the chain. -/
theorem keeps_enqueue (hi : Line.Inv ref s) (hidle : s.place t = none) :
    (lineDiscipline ref).Keeps t s
      { s with
        tab := { s.tab with chain := { s.tab.chain with next := s.tab.chain.next + 1 } }
        place := Function.update s.place t (some s.tab.chain.next) } := by
  have hg : Line.Grows ref s
      { s with
        tab := { s.tab with chain := { s.tab.chain with next := s.tab.chain.next + 1 } }
        place := Function.update s.place t (some s.tab.chain.next) } :=
    ⟨Server.Follows.refl _, le_rfl, fun _ h => h, fun _ _ h => ⟨h, rfl⟩⟩
  -- the new place is nobody else's
  have hnew : ∀ u, s.place u ≠ some s.tab.chain.next := fun u hu =>
    absurd (hi.places u _ hu).1 (Nat.lt_irrefl _)
  refine ⟨⟨hi.server, hi.safe, hi.valid, hi.inStep, hi.current, hi.asked, hi.began, ?_, ?_, ?_, ?_⟩,
    hg, fun u hu => ⟨hg, Function.update_of_ne hu _ _, rfl, rfl, fun _ _ => rfl⟩⟩
  · intro u q hq
    by_cases hut : u = t
    · subst hut
      simp only [Function.update_self, Option.some.injEq] at hq
      subst hq
      exact ⟨Nat.lt_succ_self _, fun h => absurd (hi.settled _ h) (Nat.lt_irrefl _)⟩
    · simp only [Function.update_of_ne hut] at hq
      exact ⟨Nat.lt_succ_of_lt (hi.places u q hq).1, (hi.places u q hq).2⟩
  · intro u v q hu hv
    simp only [Function.update_apply] at hu hv
    split_ifs at hu hv with h₁ h₂ h₂
    · exact h₁.trans h₂.symm
    · exact absurd (hv.trans hu.symm) (hnew v)
    · exact absurd (hu.trans hv.symm) (hnew u)
    · exact hi.distinct u v q hu hv
  · intro q hq
    rcases Nat.lt_succ_iff_lt_or_eq.mp hq with hq | rfl
    · rcases hi.holders q hq with h | ⟨u, hu⟩
      · exact .inl h
      · refine .inr ⟨u, ?_⟩
        have hut : u ≠ t := by
          rintro rfl
          rw [hidle] at hu
          cases hu
        simp only [Function.update_of_ne hut]
        exact hu
    · exact .inr ⟨t, Function.update_self ..⟩
  · exact fun q hq => Nat.lt_succ_of_lt (hi.settled q hq)

/-- The thread leaves the chain. -/
theorem keeps_leave (hi : Line.Inv ref s) {q : Nat} (hplace : s.place t = some q) :
    (lineDiscipline ref).Keeps t s
      { s with
        tab := { s.tab with chain := { s.tab.chain with settled := q :: s.tab.chain.settled } }
        place := Function.update s.place t none } := by
  have hg : Line.Grows ref s
      { s with
        tab := { s.tab with chain := { s.tab.chain with settled := q :: s.tab.chain.settled } }
        place := Function.update s.place t none } :=
    ⟨Server.Follows.refl _, le_rfl, fun _ h => List.mem_cons_of_mem _ h, fun _ _ h => ⟨h, rfl⟩⟩
  refine ⟨⟨hi.server, hi.safe, hi.valid, hi.inStep, hi.current, hi.asked, hi.began, ?_, ?_, ?_, ?_⟩,
    hg, fun u hu => ⟨hg, Function.update_of_ne hu _ _, rfl, rfl, fun _ _ => rfl⟩⟩
  · intro u q' hq'
    simp only [Function.update_apply] at hq'
    split_ifs at hq' with hut
    refine ⟨(hi.places u q' hq').1, fun h => ?_⟩
    rcases List.mem_cons.mp h with rfl | h
    · exact hut (hi.distinct u t _ hq' hplace)
    · exact (hi.places u q' hq').2 h
  · intro u v q' hu hv
    simp only [Function.update_apply] at hu hv
    split_ifs at hu hv
    exact hi.distinct u v q' hu hv
  · intro q' hq'
    rcases hi.holders q' hq' with h | ⟨u, hu⟩
    · exact .inl (List.mem_cons_of_mem _ h)
    · by_cases hut : u = t
      · subst hut
        rw [hplace, Option.some.injEq] at hu
        exact .inl (hu ▸ List.mem_cons_self)
      · refine .inr ⟨u, ?_⟩
        simp only [Function.update_of_ne hut]
        exact hu
  · intro q' hq'
    rcases List.mem_cons.mp hq' with rfl | h
    · exact (hi.places t _ hplace).1
    · exact hi.settled q' h

/-- A transaction of the server commits. -/
theorem keeps_server (hi : Line.Inv ref s) {db : Server.Db} (hf : Server.Follows s.server db)
    (hw : Server.Wf db)
    (hsafe : (Server.lastSeq ref.scope.deviceId db : ℤ) ≤ JsNumber.maxSafeInteger) :
    (lineDiscipline ref).Keeps t s { s with server := db } ∧
      Line.Own ref t s { s with server := db } := by
  have hg : Line.Grows ref s { s with server := db } :=
    ⟨hf, le_rfl, fun _ h => h, fun _ _ h => ⟨h, rfl⟩⟩
  have hown : ∀ u, Line.Own ref u s { s with server := db } :=
    fun u => ⟨hg, rfl, rfl, rfl, fun _ _ => rfl⟩
  refine ⟨⟨⟨⟨hw, hf.hasMailbox hi.server.mailbox, Server.Follows.refl _⟩, hsafe, hi.valid, ?_,
    hi.current, fun u => (hi.asked u).later hf, fun u => (hi.began u).later hf, hi.places,
    hi.distinct, hi.holders, hi.settled⟩, hg, fun u _ => hown u⟩, hown t⟩
  exact hi.inStep.follows hf (hf.lastSeq_le hi.server.wf hw hi.server.mailbox)

/-- A transaction of the inbox that keeps it in step and does not take the
cursor back; only the thread whose turn it is moves the cursor. -/
theorem keeps_inbox_line (hi : Line.Inv ref s) {db : Client.Database}
    (hid : db.identity = s.inbox.identity) (hdb : InStep ref s.server db)
    (hle : s.cursor ref ≤ cursorAt (scopeKey ref.scope) db)
    (hturn : cursorAt (scopeKey ref.scope) db = s.cursor ref ∨ ∃ q, s.Turn q t) :
    (lineDiscipline ref).Keeps t s { s with inbox := db } := by
  have hg : Line.Grows ref s { s with inbox := db } :=
    ⟨Server.Follows.refl _, hle, fun _ h => h, fun _ _ h => ⟨h, rfl⟩⟩
  refine ⟨⟨hi.server, hi.safe, ?_, hdb, hi.current, hi.asked, hi.began, hi.places, hi.distinct,
    hi.holders, hi.settled⟩, hg, fun u hu => ⟨hg, rfl, rfl, rfl, fun q hut => ?_⟩⟩
  · have hvalid := hi.valid
    unfold Client.valid Client.identity at hvalid ⊢
    rw [hid]
    exact hvalid
  · rcases hturn with h | ⟨q', h⟩
    · exact h
    · exact absurd (hut.unique hi h) hu

end Steps

end EndToEnd
end SecureMessenger

import SecureMessenger.Server.Alone

/-!
# The life of an envelope

A row is inserted with a payload, without a receipt and without a purge time.
After that only three columns ever change, each at most once: an
acknowledgement or an expiry takes the payload and sets the purge time, an
acknowledgement sets the receipt.
-/

namespace SecureMessenger
namespace Server

open Lib

/-- Two versions of one row, the later one second. -/
structure Later (e e' : Envelope) : Prop where
  columns : e' = { e with
    payload := e'.payload
    delivered_at := e'.delivered_at
    payload_purged_at := e'.payload_purged_at }
  payload : e'.payload = e.payload ∨ e'.payload = none
  delivered : e.delivered_at ≠ none → e'.delivered_at = e.delivered_at
  purged : e.payload_purged_at ≠ none → e'.payload_purged_at = e.payload_purged_at

theorem Later.refl (e : Envelope) : Later e e :=
  ⟨rfl, .inl rfl, fun _ => rfl, fun _ => rfl⟩

theorem Later.trans {e₁ e₂ e₃ : Envelope} (h : Later e₁ e₂) (h' : Later e₂ e₃) : Later e₁ e₃ where
  columns := by
    have hcolumns := h'.columns
    rw [h.columns] at hcolumns
    exact hcolumns
  payload := by
    rcases h'.payload with hp | hp
    · rw [hp]
      exact h.payload
    · exact .inr hp
  delivered := by
    intro hd
    have hd' := h.delivered hd
    rw [h'.delivered (by rwa [hd']), hd']
  purged := by
    intro hd
    have hd' := h.purged hd
    rw [h'.purged (by rwa [hd']), hd']

/-- The check constraint of the table, and what the receipt says. -/
structure Envelope.Paired (e : Envelope) : Prop where
  payload : e.payload = none ↔ e.payload_purged_at ≠ none
  delivered : e.delivered_at ≠ none → e.payload = none

/-- All rows are paired. -/
def Paired (db : Db) : Prop :=
  ∀ e ∈ db.envelopes, e.Paired

/-- The request acknowledges the envelope for the device it is addressed to. -/
def Acknowledges (op : Op) (e : Envelope) : Prop :=
  ∃ principal, op = .acknowledge principal e.id ∧ e.recipient_device_id = principal.device_id

/-- What a transaction may do to a row. -/
structure RowStep (op : Op) (e e' : Envelope) : Prop where
  later : Later e e'
  /-- A payload is lost to an acknowledgement or to an expiry. -/
  lost : e.payload ≠ none → e'.payload = none →
    Acknowledges op e ∨ ∃ now, e'.payload_purged_at = some now ∧ e.expires_at ≤ now
  /-- An acknowledgement changes the row it is for. -/
  others : ∀ principal id, op = .acknowledge principal id → ¬Acknowledges op e → e' = e

/-- What a transaction may do to the table. -/
structure LifecycleStep (op : Op) (before after : Db) : Prop where
  rows : ∀ e ∈ before.envelopes, ∃ e' ∈ after.envelopes, RowStep op e e'
  /-- Every row comes from a row or has just been inserted. -/
  origin : ∀ e' ∈ after.envelopes, (∃ e ∈ before.envelopes, RowStep op e e') ∨
    (e'.payload.isSome ∧ e'.delivered_at = none ∧ e'.payload_purged_at = none)

theorem RowStep.refl (op : Op) (e : Envelope) : RowStep op e e :=
  ⟨.refl e, fun h h' => absurd h' h, fun _ _ _ _ => rfl⟩

theorem rowStep_purged {op : Op} (hop : op.purges = true)
    {now : Instant} {e : Envelope} (hexpired : Db.expired now e = true) (hpaired : e.Paired) :
    RowStep op e (Db.purged now e) := by
  obtain ⟨hsome, hle⟩ := Bool.and_eq_true_iff.mp hexpired
  have hpayload : e.payload ≠ none := Option.isSome_iff_ne_none.mp hsome
  refine ⟨⟨rfl, .inr rfl, fun _ => rfl, fun hpurged => ?_⟩, fun _ _ => ?_, fun p id h => ?_⟩
  · exact absurd (hpaired.payload.mpr hpurged) hpayload
  · exact .inr ⟨now, rfl, of_decide_eq_true hle⟩
  · rw [h] at hop
    cases hop

theorem rowStep_acknowledged {principal : Principal} {now : Instant} {e : Envelope}
    (hdevice : e.recipient_device_id = principal.device_id) :
    RowStep (.acknowledge principal e.id) e (Db.acknowledged now e) := by
  have hack : Acknowledges (.acknowledge principal e.id) e := ⟨principal, rfl, hdevice⟩
  refine ⟨⟨rfl, .inr rfl, fun hd => ?_, fun hp => ?_⟩, fun _ _ => .inl hack,
    fun _ _ _ hn => absurd hack hn⟩
  · obtain ⟨x, hx⟩ := Option.ne_none_iff_exists'.mp hd
    simp [Db.acknowledged, hx]
  · obtain ⟨x, hx⟩ := Option.ne_none_iff_exists'.mp hp
    simp [Db.acknowledged, hx]

/-- An update whose rows all make a step. -/
theorem lifecycleStep_updateEnvelopes {op : Op} {db : Db} {p : Envelope → Bool}
    {f : Envelope → Envelope} (h : ∀ e ∈ db.envelopes, p e = true → RowStep op e (f e)) :
    LifecycleStep op db (db.updateEnvelopes p f) := by
  have hrow : ∀ e ∈ db.envelopes, RowStep op e (if p e then f e else e) := by
    intro e he
    by_cases hp : p e = true
    · rw [if_pos hp]
      exact h e he hp
    · rw [if_neg hp]
      exact .refl op e
  refine ⟨fun e he => ⟨_, List.mem_map_of_mem he, hrow e he⟩, fun e' he' => ?_⟩
  obtain ⟨e, he, rfl⟩ := List.mem_map.mp he'
  exact .inl ⟨e, he, hrow e he⟩

theorem lifecycleStep_same {op : Op} {db db' : Db} (h : db'.envelopes = db.envelopes) :
    LifecycleStep op db db' := by
  refine ⟨fun e he => ⟨e, h ▸ he, .refl op e⟩, fun e he => ?_⟩
  exact .inl ⟨e, h ▸ he, .refl op e⟩

/-- **Every transaction treats the rows so.** -/
theorem Effect.lifecycleStep {sec : Security} {op : Op} {db db' : Db} (h : Effect sec op db db')
    (hpaired : Paired db) : LifecycleStep op db db' := by
  cases h with
  | purge op db p now hop hp =>
      exact lifecycleStep_updateEnvelopes fun e he hpe =>
        rowStep_purged hop (hp e hpe) (hpaired e he)
  | acknowledge principal envelope_id db p now hp =>
      refine lifecycleStep_updateEnvelopes fun e he hpe => ?_
      obtain ⟨rfl, hdevice⟩ := hp e hpe
      exact rowStep_acknowledged hdevice
  | send a =>
      refine ⟨fun e he => ⟨e, List.mem_append_left _ he, .refl _ e⟩, fun e he => ?_⟩
      rw [store_envelopes] at he
      rcases List.mem_append.mp he with he | he
      · exact .inl ⟨e, he, .refl _ e⟩
      · obtain ⟨b, -, hc⟩ := created_of_mem a.created he
        exact .inr hc.fresh
  | advance a => exact lifecycleStep_same a.tables.envelopes
  | _ => exact lifecycleStep_same rfl

/-- A purge or an acknowledgement keeps the row paired. -/
theorem Effect.paired {sec : Security} {op : Op} {db db' : Db} (h : Effect sec op db db')
    (hpaired : Paired db) : Paired db' := by
  cases h with
  | purge op db p now hop hp =>
      intro e' he'
      obtain ⟨e, he, rfl⟩ := List.mem_map.mp he'
      split
      · exact ⟨by simp [Db.purged], fun _ => rfl⟩
      · exact hpaired e he
  | acknowledge principal envelope_id db p now hp =>
      intro e' he'
      obtain ⟨e, he, rfl⟩ := List.mem_map.mp he'
      split
      · refine ⟨⟨fun _ => ?_, fun _ => rfl⟩, fun _ => rfl⟩
        cases e.payload_purged_at <;> simp [Db.acknowledged]
      · exact hpaired e he
  | send a =>
      intro e he
      rw [store_envelopes] at he
      rcases List.mem_append.mp he with he | he
      · exact hpaired e he
      · obtain ⟨b, -, hc⟩ := created_of_mem a.created he
        obtain ⟨hsome, hdelivered, hpurged⟩ := hc.fresh
        have hpayload : e.payload ≠ none := Option.isSome_iff_ne_none.mp hsome
        exact ⟨⟨fun h => absurd h hpayload, fun h => absurd hpurged h⟩,
          fun h => absurd hdelivered h⟩
  | advance a =>
      unfold Paired
      rw [a.tables.envelopes]
      exact hpaired
  | _ => exact hpaired

section Runs

variable {sec : Security} {p p' : Pool Sql Sql.Answer PyError World}

/-- A server about to take its first request, whose envelopes pass the check of
their table. -/
def World.Checked (sec : Security) (w : World) : Prop :=
  World.Initial sec w ∧ Paired w.db

theorem Checked.reachable (hp : System.Reachable (serverSystem sec) (World.Checked sec) p) :
    System.Reachable (serverSystem sec) (World.Initial sec) p := by
  obtain ⟨w, hw, h⟩ := hp
  exact ⟨w, hw.1, h⟩

/-- Every committed state is paired, and every commit treats the rows so. -/
structure Lifecycle (w : World) : Prop where
  paired : Paired w.db
  commits : ∀ c ∈ w.history, Paired c.before ∧ Paired c.after ∧
    ∀ op, w.op c.tid = some op → LifecycleStep op c.before c.after

theorem lifecycle_reachable
    (hp : System.Reachable (serverSystem sec) (World.Checked sec) p) : Lifecycle p.shared := by
  have hinv := reachable_inv (Checked.reachable hp)
  obtain ⟨hpaired, hcommits⟩ := reachable_committed
    (fun he _ _ hbefore => he.paired hbefore) hp
  refine ⟨hpaired, fun c hc => ⟨(hcommits c hc).1, (hcommits c hc).2, fun op hop => ?_⟩⟩
  obtain ⟨op', hop', heffect, -⟩ := hinv.commits c hc
  obtain rfl := Option.some.inj (hop.symm.trans hop')
  exact heffect.lifecycleStep (hcommits c hc).1

/-- What has been set stays as it is along every run. -/
theorem later_reaches (hp : System.Reachable (serverSystem sec) (World.Checked sec) p)
    (h : System.Reaches (serverSystem sec) p p') {e : Envelope} (he : e ∈ p.shared.db.envelopes) :
    ∃ e' ∈ p'.shared.db.envelopes, Later e e' := by
  induction h with
  | refl => exact ⟨e, he, .refl e⟩
  | tail hab hn ih =>
      obtain ⟨e₁, he₁, hlater⟩ := ih
      obtain ⟨m, hm⟩ := hn
      have hr := (hp.trans hab).step hm
      rcases step_commits hm with ⟨hdb, -⟩ | ⟨t, hhistory⟩
      · exact ⟨e₁, hdb ▸ he₁, hlater⟩
      · obtain ⟨op, hop, -⟩ := (reachable_inv (Checked.reachable hr)).commits _
          (hhistory ▸ List.mem_cons_self)
        have hstep := ((lifecycle_reachable hr).commits _
          (hhistory ▸ List.mem_cons_self)).2.2 op hop
        obtain ⟨e₂, he₂, hrow⟩ := hstep.rows e₁ he₁
        exact ⟨e₂, he₂, hlater.trans hrow.later⟩

/-- **Main result.**  In every committed state a row has no payload exactly if
it has a purge time, and a receipt only if it has no payload.  Every
transaction keeps the other columns, takes a payload only to acknowledge the
row for its own device or at a purge time past its expiry, and an
acknowledgement changes no other row.  Whatever is set stays as it is. -/
theorem envelopes_are_written_once
    (hp : System.Reachable (serverSystem sec) (World.Checked sec) p) :
    Paired p.shared.db ∧
      (∀ c ∈ p.shared.history, Paired c.before ∧ Paired c.after ∧
        ∃ op, p.shared.op c.tid = some op ∧ LifecycleStep op c.before c.after) ∧
      ∀ p', System.Reaches (serverSystem sec) p p' → ∀ e ∈ p.shared.db.envelopes,
        ∃ e' ∈ p'.shared.db.envelopes, Later e e' := by
  have hlife := lifecycle_reachable hp
  refine ⟨hlife.paired, fun c hc => ?_, fun p' h e he => later_reaches hp h he⟩
  obtain ⟨hbefore, hafter, hstep⟩ := hlife.commits c hc
  obtain ⟨op, hop, -⟩ := (reachable_inv (Checked.reachable hp)).commits c hc
  exact ⟨hbefore, hafter, op, hop, hstep op hop⟩

end Runs

namespace Example

/-! Bob's phone has two envelopes.  It acknowledges the first one, and the
second one is past its expiry when the mailbox is read. -/

def bobsPhone : Principal := ⟨"bob", "phone-b", "session-b"⟩

def heldEnvelope (id message_id : UUID) (seq : Nat) (expires_at : Instant) : Envelope :=
  ⟨id, message_id, "phone-b", "bob", seq, 0, "PLAINTEXT", Base64.b64decode "aGk=", 0, expires_at,
    none, none⟩

def mailboxDb : Db :=
  { smallDb with
    mailboxes := [⟨"phone-a", 0⟩, ⟨"phone-b", 2⟩]
    chats := [⟨"chat", 2, "DIRECT"⟩]
    messages := [⟨"m1", "chat", "alice", "phone-a", "k1", 1, 0⟩,
      ⟨"m2", "chat", "alice", "phone-a", "k2", 2, 0⟩]
    envelopes := [heldEnvelope "e1" "m1" 1 90, heldEnvelope "e2" "m2" 2 60] }

def mailboxWorld : World :=
  { smallWorld with
    db := mailboxDb
    began := fun _ => mailboxDb }

theorem mailboxWorld_checked : World.Checked plainSecurity mailboxWorld := by
  refine ⟨⟨?_, smallWorld_initial.rotation, smallWorld_initial.known, fun _ _ => trivial, rfl,
    fun _ => ⟨rfl, rfl, rfl, rfl, rfl, rfl, rfl⟩⟩, fun e he => ?_⟩
  · constructor <;> decide
  · rcases List.mem_pair.mp he with rfl | rfl
    · exact ⟨by decide, by decide⟩
    · exact ⟨by decide, by decide⟩

/-- One thread acknowledges, another one reads the mailbox and purges. -/
theorem purge_reaches : ∃ p p', System.Reaches (serverSystem plainSecurity)
      (System.idle mailboxWorld) p ∧ System.Reaches (serverSystem plainSecurity) p p' ∧
    p.shared.db.envelopes =
      [Db.acknowledged 50 (heldEnvelope "e1" "m1" 1 90), heldEnvelope "e2" "m2" 2 60] ∧
    p'.shared.db.envelopes = [Db.acknowledged 50 (heldEnvelope "e1" "m1" 1 90),
      Db.purged 70 (heldEnvelope "e2" "m2" 2 60)] ∧
    p'.shared.op 0 = some (.acknowledge bobsPhone "e1") ∧
    p'.shared.op 1 = some (.mailbox bobsPhone 0 10) ∧
    p'.shared.history.map (·.tid) = [1, 0] := by
  have hcalm : Calm 0 mailboxDb [] id (mailboxWorld.arrive 0 (.acknowledge bobsPhone "e1")) :=
    mailboxWorld_checked.1.calm
  have h : System.Reaches (serverSystem plainSecurity) (System.idle mailboxWorld)
      (System.idle mailboxWorld) := Relation.ReflTransGen.refl
  have h := h.starts 0 (.acknowledge bobsPhone "e1") rfl rfl
  have h := h.acts 0 rfl (50 : Instant) rfl
  have h := h.acts 0 rfl (some (heldEnvelope "e1" "m1" 1 90)) ⟨rfl, rfl⟩
  have h := h.acts 0 rfl (.ok ()) (.inl ⟨rfl, hcalm.isFree _ _, rfl⟩)
  have h := h.acts 0 rfl (some (heldEnvelope "e1" "m1" 1 90)) ⟨rfl, rfl⟩
  have h := h.acts 0 rfl () rfl
  have h := h.acts 0 rfl (some "alice") ⟨rfl, rfl⟩
  have h := h.acts 0 rfl [(⟨"phone-a", "alice", "phone", 0, 0, none⟩ : Device)] ⟨rfl, rfl⟩
  have h := h.acts 0 rfl (.ok ()) (.inl ⟨rfl, mailboxWorld_checked.1.wf.unique, rfl⟩)
  have h := h.acts 0 rfl () rfl
  have h := h.acts 0 rfl () rfl
  have h := h.acts 0 rfl () rfl
  have hstay {p : Pool Sql Sql.Answer PyError World}
      (_ : System.Reaches (serverSystem plainSecurity) (System.idle mailboxWorld) p) :
      System.Reaches (serverSystem plainSecurity) p p := Relation.ReflTransGen.refl
  -- the mailbox is read after the expiry of the second envelope
  have h' := hstay h
  have h' := h'.starts 1 (.mailbox bobsPhone 0 10) rfl rfl
  have h' := h'.acts 1 rfl (70 : Instant) rfl
  have h' := h'.acts 1 rfl ["e2"] ⟨rfl, rfl⟩
  have h' := h'.acts 1 rfl (.ok ()) (.inl ⟨rfl, fun u _ => by
    cases u <;> exact ⟨fun hl => (by cases hl), fun _ => rfl⟩, rfl⟩)
  have h' := h'.acts 1 rfl (1 : Nat) ⟨rfl, rfl⟩
  have h' := h'.acts 1 rfl () rfl
  have h' := h'.acts 1 rfl _ ⟨rfl, rfl⟩
  have h' := h'.acts 1 rfl (.ok ()) (.inl ⟨rfl, mailboxWorld_checked.1.wf.unique, rfl⟩)
  have h' := h'.acts 1 rfl () rfl
  have h' := h'.acts 1 rfl () rfl
  exact ⟨_, _, h, h', rfl, rfl, rfl, rfl, rfl⟩

end Example

/-- An acknowledgement is kept while another row is purged. -/
theorem envelopes_are_written_once_purged :
    ∃ p p' e', System.Reaches (serverSystem Example.plainSecurity)
        (System.idle Example.mailboxWorld) p ∧
      System.Reaches (serverSystem Example.plainSecurity) p p' ∧
      Db.purged 70 (Example.heldEnvelope "e2" "m2" 2 60) ∈ p'.shared.db.envelopes ∧
      Paired p'.shared.db ∧
      (∃ c ∈ p'.shared.history,
        LifecycleStep (.acknowledge Example.bobsPhone "e1") c.before c.after) ∧
      (∃ c ∈ p'.shared.history,
        LifecycleStep (.mailbox Example.bobsPhone 0 10) c.before c.after) ∧
      e' ∈ p'.shared.db.envelopes ∧
      Later (Db.acknowledged 50 (Example.heldEnvelope "e1" "m1" 1 90)) e' ∧
      e'.delivered_at = some 50 := by
  obtain ⟨p, p', h, h', henvelopes, henvelopes', hack, hmailbox, htids⟩ :=
    Example.purge_reaches
  have hp : System.Reachable (serverSystem Example.plainSecurity)
      (World.Checked Example.plainSecurity) p := ⟨_, Example.mailboxWorld_checked, h⟩
  have hp' : System.Reachable (serverSystem Example.plainSecurity)
      (World.Checked Example.plainSecurity) p' := ⟨_, Example.mailboxWorld_checked, h.trans h'⟩
  obtain ⟨hpaired, hcommits, -⟩ := envelopes_are_written_once hp'
  obtain ⟨e', he', hlater⟩ := (envelopes_are_written_once hp).2.2 p' h'
    (Db.acknowledged 50 (Example.heldEnvelope "e1" "m1" 1 90))
    (henvelopes ▸ List.mem_cons_self)
  have hcommitted : ∀ t ∈ [1, 0], ∃ c ∈ p'.shared.history, c.tid = t := by
    intro t ht
    exact List.mem_map.mp (htids ▸ ht)
  refine ⟨p, p', e', h, h', henvelopes' ▸ List.mem_cons_of_mem _ List.mem_cons_self, hpaired,
    ?_, ?_, he', hlater, hlater.delivered (by decide)⟩
  · obtain ⟨c, hc, htid⟩ := hcommitted 0 (by decide)
    obtain ⟨-, -, op, hop, hstep⟩ := hcommits c hc
    rw [htid, hack] at hop
    exact ⟨c, hc, Option.some.inj hop ▸ hstep⟩
  · obtain ⟨c, hc, htid⟩ := hcommitted 1 (by decide)
    obtain ⟨-, -, op, hop, hstep⟩ := hcommits c hc
    rw [htid, hmailbox] at hop
    exact ⟨c, hc, Option.some.inj hop ▸ hstep⟩

end Server
end SecureMessenger

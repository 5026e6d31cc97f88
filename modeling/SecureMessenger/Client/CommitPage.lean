import SecureMessenger.Client.Inbox

/-!
# The effect of commitPage

Seen from one scope the `envelopes` store is a partial map from envelope ids
to envelopes, and `commitPage` is a sequence of updates of that map followed
by a new cursor.  This file proves that view once; the invariants of the
inbox are then stated over the map.
-/

namespace SecureMessenger
namespace Client

open Lib

theorem recordKey_inj {scope scope' id id' : String} :
    recordKey scope id = recordKey scope' id' ↔ scope = scope' ∧ id = id' := by
  constructor
  · intro h
    have := Json.stringify_injective h
    simpa using this
  · rintro ⟨rfl, rfl⟩
    rfl

/-- A scope key is no record key: the mailbox cursor and the backfill flag of
the `cursors` store never share a key. -/
theorem recordKey_ne_scopeKey (scope : InboxScope) (key id : String) :
    recordKey key id ≠ scopeKey scope := by
  intro h
  have := Json.stringify_injective h
  simp at this

/-- A sequence of steps of a transaction succeeds only if each does. -/
theorem ok_of_bind {α β : Type} {x : Except JsError α} {f : α → Except JsError β} {b : β}
    (h : x >>= f = .ok b) : ∃ a, x = .ok a ∧ f a = .ok b := by
  cases x with
  | error e => cases h
  | ok a => exact ⟨a, rfl, h⟩

/-! ## The text of an envelope -/

theorem EnvelopeProperty.name_injective {p q : EnvelopeProperty} (h : p.name = q.name) : p = q := by
  have hfind : ∀ p : EnvelopeProperty,
      mailboxProperties.find? (fun q => decide (q.name = p.name)) = some p := by
    intro p
    cases p <;> decide
  have hp := hfind p
  rw [h, hfind q] at hp
  exact (Option.some.inj hp).symm

theorem mem_assignProperties {properties names : List EnvelopeProperty} {p : EnvelopeProperty} :
    p ∈ assignProperties properties names ↔ p ∈ properties ∨ p ∈ names := by
  by_cases hp : p ∈ properties <;> simp [assignProperties, hp]

theorem mem_mailboxProperties (p : EnvelopeProperty) : p ∈ mailboxProperties := by
  cases p <;> decide

theorem JsNumber.scalar_injective {m n : JsNumber} (h : m.scalar = n.scalar) : m = n := by
  cases m <;> cases n <;> simp_all [JsNumber.scalar]

theorem nullableText_injective {a b : Option String} (h : nullableText a = nullableText b) :
    a = b := by
  cases a <;> cases b <;> simp_all [nullableText]

theorem timestampText_injective {a b : Option Timestamp}
    (h : a.map (·.text) = b.map (·.text)) : a = b := by
  refine Option.map_injective (fun s t hst => ?_) h
  cases s
  cases t
  cases hst
  rfl

namespace MailboxEnvelope

/-- The envelope with its properties in another order. -/
def arrange (e : MailboxEnvelope) (properties : List EnvelopeProperty) : MailboxEnvelope :=
  { e with properties := properties }

/-- The envelopes agree in every value; the order of the properties is not
compared. -/
def SameValues (x y : MailboxEnvelope) : Prop :=
  x = y.arrange x.properties

instance (x y : MailboxEnvelope) : Decidable (x.SameValues y) :=
  inferInstanceAs (Decidable (x = y.arrange x.properties))

variable {x y : MailboxEnvelope}

/-- The values of its properties determine an envelope up to their order. -/
theorem value_eq_iff : x.value = y.value ↔ x.SameValues y := by
  constructor
  · intro h
    have hvalue : ∀ p, x.value p = y.value p := congrFun h
    have hstring : ∀ {a b : String}, some (Json.Scalar.string a) = some (.string b) → a = b :=
      fun hs => Json.Scalar.string.inj (Option.some.inj hs)
    have hnullable : ∀ {a b : Option String}, some (nullableText a) = some (nullableText b) →
        a = b := fun hs => nullableText_injective (Option.some.inj hs)
    have hnumber : Function.Injective fun n : ℕ => Json.Scalar.number n :=
      fun _ _ hn => Nat.cast_injective (Json.Scalar.number.inj hn)
    obtain ⟨⟨id, message_id, device, user, seq, version, type, payload, created, expires,
      delivered, purged⟩, chat, chatSeq, sender, senderDevice, client, sent, l⟩ := x
    obtain ⟨⟨id', message_id', device', user', seq', version', type', payload', created', expires',
      delivered', purged'⟩, chat', chatSeq', sender', senderDevice', client', sent', l'⟩ := y
    obtain rfl := hstring (hvalue .id)
    obtain rfl := hstring (hvalue .message_id)
    obtain rfl := hstring (hvalue .recipient_device_id)
    obtain rfl := Option.map_injective (fun _ _ => Json.Scalar.string.inj)
      (hvalue .recipient_user_id)
    obtain rfl := JsNumber.scalar_injective (Option.some.inj (hvalue .mailbox_seq))
    obtain rfl := hnumber (Option.some.inj (hvalue .protocol_version))
    obtain rfl := hstring (hvalue .envelope_type)
    obtain rfl := hnullable (hvalue .payload)
    obtain rfl := hstring (hvalue .created_at)
    obtain rfl := hstring (hvalue .expires_at)
    obtain rfl := timestampText_injective (hnullable (hvalue .delivered_at))
    obtain rfl := timestampText_injective (hnullable (hvalue .payload_purged_at))
    obtain rfl := hstring (hvalue .chat_id)
    obtain rfl := Option.map_injective hnumber (hvalue .chat_seq)
    obtain rfl := hstring (hvalue .sender_user_id)
    obtain rfl := hstring (hvalue .sender_device_id)
    obtain rfl := hstring (hvalue .client_message_id)
    obtain rfl := hstring (hvalue .message_created_at)
    rfl
  · intro h
    rw [SameValues] at h
    rw [h]
    funext p
    cases p <;> rfl

theorem mem_shown {p : EnvelopeProperty} : p ∈ x.shown ↔ (x.value p).isSome = true := by
  rw [shown, List.mem_filter, mem_assignProperties]
  exact and_iff_right (.inr (mem_mailboxProperties p))

/-- The properties with their names and values, as the text lists them. -/
def entries (e : MailboxEnvelope) : List (String × Json.Scalar) :=
  e.shown.filterMap fun p => (e.value p).map fun v => (p.name, v)

theorem mem_entries {p : EnvelopeProperty} {v : Json.Scalar} :
    (p.name, v) ∈ x.entries ↔ x.value p = some v := by
  simp only [entries, List.mem_filterMap, Option.map_eq_some_iff, Prod.mk.injEq]
  constructor
  · rintro ⟨q, -, w, hw, hname, rfl⟩
    rw [← EnvelopeProperty.name_injective hname]
    exact hw
  · intro hv
    refine ⟨p, ?_, v, hv, rfl, rfl⟩
    rw [mem_shown, hv]
    rfl

theorem map_fst_entries (e : MailboxEnvelope) :
    e.entries.map Prod.fst = e.shown.map EnvelopeProperty.name := by
  rw [entries, List.map_filterMap]
  refine (List.filterMap_eq_map_iff_forall_eq_some.mpr fun p hp => ?_)
  obtain ⟨v, hv⟩ := Option.isSome_iff_exists.mp (mem_shown.mp hp)
  rw [hv]
  rfl

/-- Two texts are equal if the values and the order of the shown properties are. -/
theorem text_eq_iff : x.text = y.text ↔ x.SameValues y ∧ x.shown = y.shown := by
  rw [← value_eq_iff]
  constructor
  · intro h
    have hentries : x.entries = y.entries := Json.stringifyObject_injective h
    refine ⟨?_, ?_⟩
    · funext p
      refine Option.ext fun v => ?_
      rw [← mem_entries, hentries, mem_entries]
    · refine List.map_injective_iff.mpr (fun _ _ => EnvelopeProperty.name_injective) ?_
      rw [← map_fst_entries, hentries, map_fst_entries]
  · rintro ⟨hvalue, hshown⟩
    rw [text, text, hvalue, hshown]

end MailboxEnvelope

/-- Representation invariant of the `envelopes` store. -/
structure Rows (store : List (Stored MailboxEnvelope)) : Prop where
  ordered : Store.Ordered Stored.key store
  keyed : ∀ r ∈ store, r.key = recordKey r.scope r.value.id
  indexed : ∀ r ∈ store, ∀ k, r.pending = some k → k = r.scope

theorem rows_nil : Rows [] :=
  ⟨List.Pairwise.nil, by simp, by simp⟩

/-- The envelopes stored under a scope. -/
def storedEnvelopes (scope : InboxScope) (store : List (Stored MailboxEnvelope)) :
    List MailboxEnvelope :=
  (store.filter fun r => decide (r.scope = scopeKey scope)).map Stored.value

variable {scope : InboxScope} {store : List (Stored MailboxEnvelope)}

theorem mem_storedEnvelopes (h : Rows store) {e : MailboxEnvelope} :
    e ∈ storedEnvelopes scope store ↔ envelopeAt scope e.id store = some e := by
  simp only [storedEnvelopes, envelopeAt, List.mem_map, List.mem_filter, decide_eq_true_eq,
    Option.map_eq_some_iff]
  constructor
  · rintro ⟨r, ⟨hr, hs⟩, rfl⟩
    refine ⟨r, ?_, rfl⟩
    rw [Store.get_eq_some_iff h.ordered]
    exact ⟨hr, by rw [h.keyed r hr, hs]⟩
  · rintro ⟨r, hr, rfl⟩
    obtain ⟨hmem, hkey⟩ := Store.get_some hr
    rw [h.keyed r hmem, recordKey_inj] at hkey
    exact ⟨r, ⟨hmem, hkey.1⟩, rfl⟩

theorem envelopeAt_id (h : Rows store) {id : String} {e : MailboxEnvelope}
    (he : envelopeAt scope id store = some e) : e.id = id := by
  obtain ⟨r, hr, rfl⟩ := Option.map_eq_some_iff.mp he
  obtain ⟨hmem, hkey⟩ := Store.get_some hr
  rw [h.keyed r hmem, recordKey_inj] at hkey
  exact hkey.2

theorem nodup_storedEnvelopes (h : Rows store) :
    ((storedEnvelopes scope store).map (·.id)).Nodup := by
  rw [storedEnvelopes, List.map_map]
  refine List.Nodup.map_on ?_ ?_
  · intro r hr r' hr' hid
    simp only [List.mem_filter, decide_eq_true_eq] at hr hr'
    have hkey : r.key = r'.key := by
      rw [h.keyed r hr.1, h.keyed r' hr'.1, hr.2, hr'.2]
      exact congrArg _ hid
    have h₁ := Store.get_of_mem h.ordered hr.1
    have h₂ := Store.get_of_mem h.ordered hr'.1
    rw [hkey, h₂] at h₁
    exact (Option.some.inj h₁).symm
  · refine List.Nodup.filter _ ?_
    exact h.ordered.imp fun hlt he => absurd (congrArg Stored.key he) hlt.ne

/-- The stored copy already has the text of the envelope's merge. -/
def Unchanged (scope : InboxScope) (store : List (Stored MailboxEnvelope))
    (e : MailboxEnvelope) : Prop :=
  (envelopeAt scope e.id store).map (·.text) =
    some (mergeEnvelope (envelopeAt scope e.id store) e).text

theorem unchanged_iff {e : MailboxEnvelope} : Unchanged scope store e ↔
    ∃ x ∈ envelopeAt scope e.id store,
      x.SameValues (mergeEnvelope (envelopeAt scope e.id store) e) ∧
        x.shown = (mergeEnvelope (envelopeAt scope e.id store) e).shown := by
  simp only [Unchanged, Option.map_eq_some_iff, MailboxEnvelope.text_eq_iff, Option.mem_def]

-- the texts themselves would be long to compute
instance (scope : InboxScope) (store : List (Stored MailboxEnvelope)) (e : MailboxEnvelope) :
    Decidable (Unchanged scope store e) :=
  decidable_of_iff' _ unchanged_iff

/-- What one round of `commitPage` stores. -/
def storeEnvelope (scope : InboxScope) (store : List (Stored MailboxEnvelope))
    (envelope : MailboxEnvelope) : List (Stored MailboxEnvelope) :=
  if Unchanged scope store envelope then store
  else Store.put Stored.key
    (indexedEnvelope (record (scopeKey scope) envelope.id
      (mergeEnvelope (envelopeAt scope envelope.id store) envelope))) store

theorem storeEnvelope_same {e : MailboxEnvelope} (h : Unchanged scope store e) :
    storeEnvelope scope store e = store :=
  if_pos h

theorem storeEnvelope_put {e : MailboxEnvelope} (h : ¬ Unchanged scope store e) :
    storeEnvelope scope store e = Store.put Stored.key
      (indexedEnvelope (record (scopeKey scope) e.id
        (mergeEnvelope (envelopeAt scope e.id store) e))) store :=
  if_neg h

/-- After its round the copy of an envelope has the text of the merge. -/
theorem envelopeAt_storeEnvelope_self (scope : InboxScope) (store : List (Stored MailboxEnvelope))
    (e : MailboxEnvelope) :
    ∃ x, envelopeAt scope e.id (storeEnvelope scope store e) = some x ∧
      x.text = (mergeEnvelope (envelopeAt scope e.id store) e).text := by
  by_cases hsame : Unchanged scope store e
  · rw [storeEnvelope_same hsame]
    exact Option.map_eq_some_iff.mp hsame
  · rw [storeEnvelope_put hsame]
    exact ⟨_, congrArg (Option.map Stored.value)
      (Store.get_put_self (indexedEnvelope (record (scopeKey scope) e.id _)) store), rfl⟩

/-- After its round the copy of an envelope is the merge, up to the order of
its properties. -/
theorem envelopeAt_storeEnvelope (scope : InboxScope) (store : List (Stored MailboxEnvelope))
    (e : MailboxEnvelope) :
    ∃ l, envelopeAt scope e.id (storeEnvelope scope store e) =
      some ((mergeEnvelope (envelopeAt scope e.id store) e).arrange l) := by
  obtain ⟨x, hx, htext⟩ := envelopeAt_storeEnvelope_self scope store e
  exact ⟨x.properties, hx.trans (congrArg some (MailboxEnvelope.text_eq_iff.mp htext).1)⟩

theorem envelopeAt_storeEnvelope_of_ne {e : MailboxEnvelope} {id : String} (h : id ≠ e.id) :
    envelopeAt scope id (storeEnvelope scope store e) = envelopeAt scope id store := by
  by_cases hsame : Unchanged scope store e
  · rw [storeEnvelope_same hsame]
  · rw [storeEnvelope_put hsame]
    refine congrArg (Option.map Stored.value) (Store.get_put_of_ne store ?_)
    intro hkey
    exact h (recordKey_inj.mp hkey).2.symm

theorem rows_storeEnvelope (h : Rows store) (e : MailboxEnvelope) :
    Rows (storeEnvelope scope store e) := by
  by_cases hsame : Unchanged scope store e
  · rw [storeEnvelope_same hsame]
    exact h
  · rw [storeEnvelope_put hsame]
    refine ⟨Store.ordered_put h.ordered, fun r hr => ?_, fun r hr k hk => ?_⟩
    · rcases Store.mem_put hr with rfl | hr
      · rfl
      · exact h.keyed r hr
    · rcases Store.mem_put hr with rfl | hr
      · simp only [indexedEnvelope] at hk
        split_ifs at hk
        exact (Option.some.inj hk).symm
      · exact h.indexed r hr k hk

/-- The loop of `commitPage` is a fold, and has checked every recipient. -/
theorem commitEnvelopes_ok {es cs : List MailboxEnvelope}
    {store' : List (Stored MailboxEnvelope)}
    (h : commitEnvelopes scope es store = .ok (cs, store')) :
    (∀ e ∈ es, e.recipient_device_id = scope.deviceId) ∧
      store' = es.foldl (storeEnvelope scope) store := by
  induction es generalizing store cs store' with
  | nil =>
      simp only [commitEnvelopes, Except.ok.injEq, Prod.mk.injEq] at h
      exact ⟨by simp, h.2.symm⟩
  | cons e rest ih =>
      simp only [commitEnvelopes] at h
      split_ifs at h with hrec hsame
      · obtain ⟨hr, hs⟩ := ih h
        refine ⟨List.forall_mem_cons.mpr ⟨not_not.mp hrec, hr⟩, ?_⟩
        rw [List.foldl_cons, storeEnvelope_same hsame]
        exact hs
      · split at h
        · cases h
        · rename_i changes store₁ heq
          simp only [Except.ok.injEq, Prod.mk.injEq] at h
          obtain ⟨hr, hs⟩ := ih heq
          refine ⟨List.forall_mem_cons.mpr ⟨not_not.mp hrec, hr⟩, ?_⟩
          rw [List.foldl_cons, storeEnvelope_put hsame, ← h.2]
          exact hs

section Fold

variable {es : List MailboxEnvelope}

theorem rows_foldl (h : Rows store) : Rows (es.foldl (storeEnvelope scope) store) := by
  induction es generalizing store with
  | nil => exact h
  | cons e rest ih => exact ih (rows_storeEnvelope h e)

/-- A property of envelopes that merging keeps holds of everything stored. -/
theorem envelopeAt_foldl_forall (P : String → MailboxEnvelope → Prop)
    (hstore : ∀ id e, envelopeAt scope id store = some e → P id e)
    (hes : ∀ e ∈ es, ∀ existing l, (∀ x, existing = some x → P e.id x) →
      P e.id ((mergeEnvelope existing e).arrange l)) :
    ∀ id e, envelopeAt scope id (es.foldl (storeEnvelope scope) store) = some e → P id e := by
  induction es generalizing store with
  | nil => exact hstore
  | cons e rest ih =>
      refine ih (fun id e' he' => ?_) fun e' he' => hes e' (List.mem_cons_of_mem _ he')
      by_cases hid : id = e.id
      · subst hid
        obtain ⟨l, hl⟩ := envelopeAt_storeEnvelope scope store e
        rw [hl] at he'
        rw [← Option.some.inj he']
        exact hes e List.mem_cons_self _ l fun x hx => hstore _ x hx
      · rw [envelopeAt_storeEnvelope_of_ne hid] at he'
        exact hstore id e' he'

/-- A property of one envelope that merging keeps survives the commit. -/
theorem envelopeAt_foldl_keeps {P : MailboxEnvelope → Prop} {id : String}
    (hstore : ∃ e, envelopeAt scope id store = some e ∧ P e)
    (hes : ∀ e ∈ es, ∀ x l, e.id = id → P x →
      P ((mergeEnvelope (some x) e).arrange l)) :
    ∃ e, envelopeAt scope id (es.foldl (storeEnvelope scope) store) = some e ∧ P e := by
  induction es generalizing store with
  | nil => exact hstore
  | cons e rest ih =>
      refine ih ?_ fun e' he' => hes e' (List.mem_cons_of_mem _ he')
      obtain ⟨x, hx, hP⟩ := hstore
      by_cases hid : id = e.id
      · subst hid
        obtain ⟨l, hl⟩ := envelopeAt_storeEnvelope scope store e
        rw [hl, hx]
        exact ⟨_, rfl, hes e List.mem_cons_self x l rfl hP⟩
      · rw [envelopeAt_storeEnvelope_of_ne hid]
        exact ⟨x, hx, hP⟩

/-- Every committed envelope is stored. -/
theorem envelopeAt_foldl_mem {P : MailboxEnvelope → Prop} {e : MailboxEnvelope} (he : e ∈ es)
    (hfirst : ∀ existing l, P ((mergeEnvelope existing e).arrange l))
    (hes : ∀ e' ∈ es, ∀ x l, e'.id = e.id → P x →
      P ((mergeEnvelope (some x) e').arrange l)) :
    ∃ x, envelopeAt scope e.id (es.foldl (storeEnvelope scope) store) = some x ∧ P x := by
  induction es generalizing store with
  | nil => cases he
  | cons e₁ rest ih =>
      have hrest : ∀ e' ∈ rest, ∀ x l, e'.id = e.id → P x →
          P ((mergeEnvelope (some x) e').arrange l) :=
        fun e' he' => hes e' (List.mem_cons_of_mem _ he')
      rcases List.mem_cons.mp he with rfl | he
      · obtain ⟨l, hl⟩ := envelopeAt_storeEnvelope scope store e
        rw [List.foldl_cons]
        exact envelopeAt_foldl_keeps ⟨_, hl, hfirst _ l⟩ hrest
      · exact ih he hrest

end Fold

/-- A database after a commit, and what the commit has checked. -/
structure Committing (scope : InboxScope) (cursor : ℤ) (es : List MailboxEnvelope)
    (next : ℤ) (db db' : Database) : Prop where
  safe : -JsNumber.maxSafeInteger ≤ next ∧ next ≤ JsNumber.maxSafeInteger
  le : cursor ≤ next
  cursor_eq : cursorAt (scopeKey scope) db = cursor
  recipient : ∀ e ∈ es, e.recipient_device_id = scope.deviceId
  db_eq : db' = putCursor (scopeKey scope) next
    { db with envelopes := es.foldl (storeEnvelope scope) db.envelopes }

/-- Inversion of a successful `commitPage`. -/
theorem commitPage_ok {cursor next : ℤ} {es cs : List MailboxEnvelope}
    {db db' : Database}
    (h : commitPage scope cursor es (.integer next) db = .ok (cs, db')) :
    Committing scope cursor es next db db' ∧
      ∃ store, commitEnvelopes scope es db.envelopes = .ok (cs, store) := by
  simp only [commitPage] at h
  split_ifs at h with hbad hcursor
  · obtain ⟨u, -, h⟩ := ok_of_bind h
    cases h
  · obtain ⟨u, -, h⟩ := ok_of_bind h
    obtain ⟨⟨changes, store⟩, he, h⟩ := ok_of_bind h
    simp only [pure, Except.pure, Except.ok.injEq, Prod.mk.injEq] at h
    simp only [JsNumber.isSafeInteger, decide_eq_false_iff_not, not_or, not_not, not_lt] at hbad
    obtain ⟨hr, hs⟩ := commitEnvelopes_ok he
    refine ⟨⟨hbad.1, hbad.2, not_not.mp hcursor, hr, ?_⟩, store, ?_⟩
    · rw [← h.2, hs]
    · rw [he, h.1]

theorem commitEnvelopes_total {es : List MailboxEnvelope} :
    ∀ store : List (Stored MailboxEnvelope),
      (∀ e ∈ es, e.recipient_device_id = scope.deviceId) →
      ∃ r, commitEnvelopes scope es store = .ok r := by
  induction es with
  | nil =>
      intro store _
      exact ⟨_, rfl⟩
  | cons e rest ih =>
      intro store hrec
      have hrest : ∀ e' ∈ rest, e'.recipient_device_id = scope.deviceId :=
        fun e' he' => hrec e' (List.mem_cons_of_mem _ he')
      simp only [commitEnvelopes, hrec e List.mem_cons_self, ne_eq, not_true_eq_false, if_false]
      split_ifs
      · exact ih store hrest
      · obtain ⟨⟨cs, store'⟩, h⟩ := ih (Store.put Stored.key (indexedEnvelope
          (record (scopeKey scope) e.id (mergeEnvelope (envelopeAt scope e.id store) e)))
            store) hrest
        rw [h]
        exact ⟨_, rfl⟩

/-- A commit from the present cursor goes through. -/
theorem commitPage_total {cursor next : ℤ} {es : List MailboxEnvelope} {db : Database}
    (hvalid : valid scope db = true) (hcursor : cursorAt (scopeKey scope) db = cursor)
    (hle : cursor ≤ next) (hsafe : (JsNumber.integer next).isSafeInteger = true)
    (hrec : ∀ e ∈ es, e.recipient_device_id = scope.deviceId) :
    ∃ r, commitPage scope cursor es (.integer next) db = .ok r := by
  obtain ⟨⟨cs, store⟩, h⟩ := commitEnvelopes_total db.envelopes hrec
  have hbad : ¬((JsNumber.integer next).isSafeInteger = false ∨ next < cursor) := by
    rw [hsafe]
    simpa using hle
  simp only [commitPage]
  rw [if_neg hbad]
  simp only [validate, hvalid, if_true, hcursor, ne_eq, not_true_eq_false, if_false, h, bind,
    Except.bind]
  exact ⟨_, rfl⟩

@[simp] theorem cursorAt_putCursor (key : String) (n : ℤ) (db : Database) :
    cursorAt key (putCursor key n db) = n := by
  unfold cursorAt putCursor
  have hget : Store.get Stored.key key
      (Store.put Stored.key { key := key, scope := key, value := .seq n } db.cursors) =
        some ({ key := key, scope := key, value := .seq n } : Stored CursorValue) :=
    Store.get_put_self ({ key := key, scope := key, value := .seq n } : Stored CursorValue) _
  simp [hget]

namespace Committing

variable {cursor next : ℤ} {es : List MailboxEnvelope} {db db' : Database}

theorem cursor' (h : Committing scope cursor es next db db') :
    cursorAt (scopeKey scope) db' = next := by
  rw [h.db_eq, cursorAt_putCursor]

theorem envelopes' (h : Committing scope cursor es next db db') :
    db'.envelopes = es.foldl (storeEnvelope scope) db.envelopes := by
  rw [h.db_eq]
  rfl

theorem identity' (h : Committing scope cursor es next db db') :
    db'.identity = db.identity := by
  rw [h.db_eq]
  rfl

end Committing

/-- The backfill flag leaves the mailbox cursor alone. -/
theorem finishSequenceBackfill_ok {db db' : Database} {u : Unit}
    (h : finishSequenceBackfill scope db = .ok (u, db')) :
    cursorAt (scopeKey scope) db' = cursorAt (scopeKey scope) db ∧
      db'.envelopes = db.envelopes ∧ db'.identity = db.identity := by
  obtain ⟨v, -, h⟩ := ok_of_bind h
  simp only [pure, Except.pure, Except.ok.injEq, Prod.mk.injEq] at h
  rw [← h.2]
  refine ⟨?_, rfl, rfl⟩
  unfold cursorAt
  rw [Store.get_put_of_ne]
  exact recordKey_ne_scopeKey scope _ _

/-- The read-only transactions. -/
theorem readCursor_ok {db db' : Database} {n : ℤ}
    (h : readCursor scope db = .ok (n, db')) :
    n = cursorAt (scopeKey scope) db ∧ db' = db := by
  obtain ⟨v, -, h⟩ := ok_of_bind h
  simp only [pure, Except.pure, Except.ok.injEq, Prod.mk.injEq] at h
  exact ⟨h.1.symm, h.2.symm⟩

theorem needsSequenceBackfill_ok {db db' : Database} {b : Bool}
    (h : needsSequenceBackfill scope db = .ok (b, db')) : db' = db := by
  obtain ⟨v, -, h⟩ := ok_of_bind h
  simp only [pure, Except.pure, Except.ok.injEq, Prod.mk.injEq] at h
  exact h.2.symm

theorem getPendingAcknowledgments_ok {db db' : Database} {es : List MailboxEnvelope}
    (hrows : Rows db.envelopes)
    (h : getPendingAcknowledgments scope db = .ok (es, db')) :
    db' = db ∧ ∀ e ∈ es, envelopeAt scope e.id db.envelopes = some e := by
  obtain ⟨v, -, h⟩ := ok_of_bind h
  simp only [pure, Except.pure, Except.ok.injEq, Prod.mk.injEq] at h
  refine ⟨h.2.symm, fun e he => ?_⟩
  rw [← h.1, List.mem_map] at he
  obtain ⟨r, hr, rfl⟩ := he
  simp only [List.mem_filter, decide_eq_true_eq] at hr
  rw [← mem_storedEnvelopes hrows]
  refine List.mem_map.mpr ⟨r, ?_, rfl⟩
  simp only [List.mem_filter, decide_eq_true_eq]
  exact ⟨hr.1, (hrows.indexed r hr.1 _ hr.2).symm⟩

/-! ## Transactions of the present generation -/

section Valid

variable {db : Database}

theorem validate_of_valid (h : valid scope db = true) : validate scope db = .ok () :=
  if_pos h

/-- Only the stored identity decides. -/
theorem valid_congr {db' : Database} (h : db'.identity = db.identity) :
    valid scope db' = valid scope db := by
  rw [valid, valid, identity, identity, h]

theorem readCursor_valid (h : valid scope db = true) :
    readCursor scope db = .ok (cursorAt (scopeKey scope) db, db) := by
  unfold readCursor
  rw [validate_of_valid h]
  rfl

theorem getPendingAcknowledgments_valid (h : valid scope db = true) :
    getPendingAcknowledgments scope db = .ok ((db.envelopes.filter fun entry =>
      decide (entry.pending = some (scopeKey scope))).map Stored.value, db) := by
  unfold getPendingAcknowledgments
  rw [validate_of_valid h]
  rfl

theorem needsSequenceBackfill_valid (h : valid scope db = true) :
    needsSequenceBackfill scope db =
      .ok ((Store.get Stored.key (recordKey (scopeKey scope) backfillId) db.cursors).isNone,
        db) := by
  unfold needsSequenceBackfill
  rw [validate_of_valid h]
  rfl

theorem finishSequenceBackfill_valid (h : valid scope db = true) :
    finishSequenceBackfill scope db =
      .ok ((), { db with
        cursors := Store.put Stored.key (record (scopeKey scope) backfillId .done)
          db.cursors }) := by
  unfold finishSequenceBackfill
  rw [validate_of_valid h]
  rfl

end Valid

section FirstEnvelope

/-! A device, and the first envelope of its mailbox. -/

def phoneScope : InboxScope :=
  ⟨"alice", "9f0a36b1-5a31-4a1e-9a53-0d9f6fbd0a11", "g1"⟩

def emptyInbox : Database :=
  { identity := some ⟨phoneScope.deviceId, "phone", "g1"⟩ }

def phoneEnvelope : MailboxEnvelope where
  id := "e1"
  message_id := "m1"
  recipient_device_id := phoneScope.deviceId
  recipient_user_id := some "alice"
  mailbox_seq := .integer 1
  protocol_version := 0
  envelope_type := "PLAINTEXT"
  payload := some "aGk="
  created_at := "2026-01-01T00:00:00Z"
  expires_at := "2026-01-31T00:00:00Z"
  delivered_at := none
  payload_purged_at := none
  chat_id := "c1"
  chat_seq := some 1
  sender_user_id := "bob"
  sender_device_id := "3c5d7a40-8c1e-4f6b-9b1d-2f7a5c9e0b22"
  client_message_id := "k1"
  message_created_at := "2026-01-01T00:00:00Z"

/-- The envelope as a server without chat sequences sends it. -/
def unnumbered : MailboxEnvelope :=
  { phoneEnvelope with
    chat_seq := none
    properties := mailboxProperties.erase .chat_seq }

def purgeTime : Timestamp :=
  ⟨"2026-01-02T00:00:00Z", by decide⟩

/-- The envelope after its payload has been purged. -/
def tombstone : MailboxEnvelope :=
  { phoneEnvelope with
    payload := none
    delivered_at := some purgeTime
    payload_purged_at := some purgeTime }

/-- The inbox after the envelope has been committed. -/
def phoneInbox : Database :=
  putCursor (scopeKey phoneScope) 1
    { emptyInbox with envelopes := [phoneEnvelope].foldl (storeEnvelope phoneScope) [] }

theorem valid_emptyInbox : valid phoneScope emptyInbox = true := by
  decide

theorem readCursor_emptyInbox : readCursor phoneScope emptyInbox = .ok (0, emptyInbox) :=
  readCursor_valid valid_emptyInbox

theorem commitPage_phoneEnvelope :
    ∃ cs, commitPage phoneScope 0 [phoneEnvelope] (.integer 1) emptyInbox =
      .ok (cs, phoneInbox) := by
  have hdevice : ∀ e ∈ [phoneEnvelope], e.recipient_device_id = phoneScope.deviceId := by
    decide
  have hcursor : cursorAt (scopeKey phoneScope) emptyInbox = 0 := rfl
  obtain ⟨⟨cs, db⟩, h⟩ :=
    commitPage_total valid_emptyInbox hcursor (zero_le_one' ℤ) rfl hdevice
  have hdb := (commitPage_ok h).1.db_eq
  refine ⟨cs, ?_⟩
  rw [h, hdb]
  rfl

end FirstEnvelope

end Client
end SecureMessenger

import SecureMessenger.Client.OutgoingRows
import SecureMessenger.Client.ScopeIsolation

/-!
# Commits merge

`commitPage` stores every envelope over the copy it finds, inside a loop that
can fail late.  A commit that fails changes nothing; one that succeeds loses
nothing of what was stored, reports the writes that changed something, and has
nothing left to do when it is repeated.
-/

namespace SecureMessenger
namespace Client

open Lib

/-- The rounds of a commit: the stored copy before, and after. -/
def commitRounds (scope : InboxScope) :
    List MailboxEnvelope → List (Stored MailboxEnvelope) →
      List (Option MailboxEnvelope × MailboxEnvelope)
  | [], _ => []
  | envelope :: rest, store =>
      let existing := envelopeAt scope envelope.id store
      (existing, mergeEnvelope existing envelope) ::
        commitRounds scope rest (storeEnvelope scope store envelope)

/-- The rounds that changed a stored value. -/
def changedRounds (rounds : List (Option MailboxEnvelope × MailboxEnvelope)) :
    List MailboxEnvelope :=
  (rounds.filter fun round => decide (∀ x ∈ round.1, ¬ x.SameValues round.2)).map Prod.snd

/-- The rounds that changed the text of a stored value. -/
def rewrittenRounds (rounds : List (Option MailboxEnvelope × MailboxEnvelope)) :
    List MailboxEnvelope :=
  (rounds.filter fun round => decide (round.1.map (·.text) ≠ some round.2.text)).map Prod.snd

/-- The fields that a server no longer sends are still there. -/
structure Retains (stored later : MailboxEnvelope) : Prop where
  payload : stored.payload.isSome → later.payload.isSome
  delivered_at : stored.delivered_at.isSome → later.delivered_at.isSome
  payload_purged_at : stored.payload_purged_at.isSome → later.payload_purged_at.isSome
  chat_seq : stored.chat_seq.isSome → later.chat_seq.isSome

/-- The envelope says nothing that the copy does not: the four merged fields
are the copy's or missing, and all others are the copy's. -/
def MailboxEnvelope.Repeats (e x : MailboxEnvelope) : Prop :=
  (∀ n ∈ e.chat_seq, x.chat_seq = some n) ∧ (∀ s ∈ e.payload, x.payload = some s) ∧
    (∀ t ∈ e.delivered_at, x.delivered_at = some t) ∧
    (∀ t ∈ e.payload_purged_at, x.payload_purged_at = some t) ∧
    ∀ p, p ∉ mergedProperties → e.value p = x.value p

/-- The properties of the copy in the order of the envelope, those it lacks
behind the others. -/
def MailboxEnvelope.orderOver (e x : MailboxEnvelope) : List EnvelopeProperty :=
  (assignProperties (assignProperties e.properties mergedProperties) mailboxProperties).filter
    fun p => (x.value p).isSome

/-- Every envelope that repeats the copy it meets has the properties in the
order of the copy. -/
def KeepsOrders (scope : InboxScope) :
    List MailboxEnvelope → List (Stored MailboxEnvelope) → Prop
  | [], _ => True
  | e :: rest, store =>
      (∀ x ∈ envelopeAt scope e.id store, e.Repeats x → e.orderOver x = x.shown) ∧
        KeepsOrders scope rest (storeEnvelope scope store e)

/-- The commit is refused. -/
def Refuses (scope : InboxScope) (cursor : ℤ) (es : List MailboxEnvelope)
    (nextCursor : JsNumber) (db : Database) : Prop :=
  nextCursor.isSafeInteger = false ∨ (∃ n, nextCursor = .integer n ∧ n < cursor) ∨
    valid scope db = false ∨ cursorAt (scopeKey scope) db ≠ cursor ∨
    ∃ e ∈ es, e.recipient_device_id ≠ scope.deviceId

/-- What a successful commit leaves behind. -/
structure Merged (scope : InboxScope) (es : List MailboxEnvelope) (nextCursor : JsNumber)
    (db db' : Database) : Prop where
  cursor : nextCursor = .integer (cursorAt (scopeKey scope) db')
  retains : ∀ id x, envelopeAt scope id db.envelopes = some x →
    ∃ v, envelopeAt scope id db'.envelopes = some v ∧ Retains x v
  others : ∀ other id, other ≠ scope ∨ id ∉ es.map (·.id) →
    envelopeAt other id db'.envelopes = envelopeAt other id db.envelopes
  again : (es.map (·.id)).Nodup →
    commitPage scope (cursorAt (scopeKey scope) db') es nextCursor db' = .ok ([], db')

/-- A commit changes nothing if it throws, and otherwise merges and reports
exactly the writes that changed a stored value. -/
structure MergesExactly (scope : InboxScope) (cursor : ℤ) (es : List MailboxEnvelope)
    (nextCursor : JsNumber) (db : Database) : Prop where
  throws : (∃ x, commitPage scope cursor es nextCursor db = .error x) ↔
    Refuses scope cursor es nextCursor db
  unchanged : ∀ x, commitPage scope cursor es nextCursor db = .error x →
    afterTransaction (commitPage scope cursor es nextCursor) db = db
  merges : ∀ cs db', commitPage scope cursor es nextCursor db = .ok (cs, db') →
    Merged scope es nextCursor db db'
  reports : ∀ cs db', commitPage scope cursor es nextCursor db = .ok (cs, db') →
    cs = changedRounds (commitRounds scope es db.envelopes)

section Commits

variable {scope : InboxScope} {store : List (Stored MailboxEnvelope)} {es : List MailboxEnvelope}

theorem Retains.refl (e : MailboxEnvelope) : Retains e e :=
  ⟨id, id, id, id⟩

theorem isSome_or_right {α : Type} {a b : Option α} (h : b.isSome) : (a.or b).isSome := by
  rw [Option.isSome_or, h, Bool.or_true]

/-- A copy is kept under the next one. -/
theorem retains_mergeEnvelope {x v : MailboxEnvelope} (h : Retains x v) (e : MailboxEnvelope)
    (l : List EnvelopeProperty) : Retains x ((mergeEnvelope (some v) e).arrange l) :=
  ⟨fun hx => isSome_or_right (h.payload hx), fun hx => isSome_or_right (h.delivered_at hx),
    fun hx => isSome_or_right (h.payload_purged_at hx), fun hx => isSome_or_right (h.chat_seq hx)⟩

/-- Storing an envelope again over its own merge changes nothing. -/
theorem mergeEnvelope_idem (existing : Option MailboxEnvelope) (e : MailboxEnvelope)
    (l : List EnvelopeProperty) :
    mergeEnvelope (some ((mergeEnvelope existing e).arrange l)) e = mergeEnvelope existing e := by
  have hor : ∀ {α : Type} (a b : Option α), a.or (a.or b) = a.or b := by
    intro α a b
    cases a <;> rfl
  simp only [mergeEnvelope, MailboxEnvelope.arrange, Option.bind_some, hor]

/-- The reported changes are the rounds that changed a text. -/
theorem commitEnvelopes_changes {cs : List MailboxEnvelope}
    {store' : List (Stored MailboxEnvelope)}
    (h : commitEnvelopes scope es store = .ok (cs, store')) :
    cs = rewrittenRounds (commitRounds scope es store) := by
  induction es generalizing store cs store' with
  | nil =>
      simp only [commitEnvelopes, Except.ok.injEq, Prod.mk.injEq] at h
      exact h.1.symm
  | cons e rest ih =>
      simp only [commitEnvelopes] at h
      split_ifs at h with hrec hsame
      · rw [ih h, commitRounds, storeEnvelope_same hsame, rewrittenRounds, rewrittenRounds,
          List.filter_cons_of_neg (by rw [decide_eq_true_eq, not_not]; exact hsame)]
      · split at h
        · cases h
        · rename_i changes store₁ heq
          simp only [Except.ok.injEq, Prod.mk.injEq] at h
          rw [← h.1, ih heq, commitRounds, storeEnvelope_put hsame, rewrittenRounds,
            rewrittenRounds, List.filter_cons_of_pos (by rw [decide_eq_true_eq]; exact hsame),
            List.map_cons]

/-! ## What is reported -/

theorem eq_or_right_iff {α : Type} {a b : Option α} : b = a.or b ↔ ∀ n ∈ a, b = some n := by
  cases a with
  | none => simp
  | some n => simp

/-- Properties that are not merged are the envelope's. -/
theorem value_mergeEnvelope (existing : Option MailboxEnvelope) {e : MailboxEnvelope}
    {p : EnvelopeProperty} (h : p ∉ mergedProperties) :
    (mergeEnvelope existing e).value p = e.value p := by
  cases p <;> first
    | rfl
    | exact absurd (by decide) h

/-- An envelope repeats a copy if their merge has the values of the copy. -/
theorem repeats_iff {e x : MailboxEnvelope} :
    e.Repeats x ↔ x.SameValues (mergeEnvelope (some x) e) := by
  constructor
  · rintro ⟨hseq, hpayload, hdelivered, hpurged, hrest⟩
    rw [← MailboxEnvelope.value_eq_iff]
    funext p
    by_cases hp : p ∈ mergedProperties
    · simp only [mergedProperties, List.mem_cons, List.not_mem_nil, or_false] at hp
      rcases hp with rfl | rfl | rfl | rfl
      · exact congrArg (Option.map fun n : ℕ => Json.Scalar.number n) (eq_or_right_iff.mpr hseq)
      · exact congrArg (fun v => some (nullableText v)) (eq_or_right_iff.mpr hpayload)
      · exact congrArg (fun v : Option Timestamp => some (nullableText (v.map (·.text))))
          (eq_or_right_iff.mpr hdelivered)
      · exact congrArg (fun v : Option Timestamp => some (nullableText (v.map (·.text))))
          (eq_or_right_iff.mpr hpurged)
    · rw [value_mergeEnvelope (some x) hp, hrest p hp]
  · intro h
    have hx : x = (mergeEnvelope (some x) e).arrange x.properties := h
    refine ⟨eq_or_right_iff.mp (congrArg (·.chat_seq) hx),
      eq_or_right_iff.mp (congrArg (·.payload) hx),
      eq_or_right_iff.mp (congrArg (·.delivered_at) hx),
      eq_or_right_iff.mp (congrArg (·.payload_purged_at) hx), fun p hp => ?_⟩
    rw [← value_mergeEnvelope (some x) hp, MailboxEnvelope.value_eq_iff.mpr h]

theorem text_mergeEnvelope_iff {e x : MailboxEnvelope} :
    x.text = (mergeEnvelope (some x) e).text ↔ e.Repeats x ∧ e.orderOver x = x.shown := by
  rw [MailboxEnvelope.text_eq_iff, repeats_iff]
  refine and_congr_right fun hvalues => ?_
  have hshown : (mergeEnvelope (some x) e).shown = e.orderOver x := by
    rw [MailboxEnvelope.shown, MailboxEnvelope.orderOver, MailboxEnvelope.value_eq_iff.mpr hvalues]
    rfl
  rw [hshown]
  exact eq_comm

/-- A round that changes a value changes the text. -/
theorem length_changedRounds_le (rounds : List (Option MailboxEnvelope × MailboxEnvelope)) :
    (changedRounds rounds).length ≤ (rewrittenRounds rounds).length := by
  rw [changedRounds, rewrittenRounds, List.length_map, List.length_map,
    ← List.countP_eq_length_filter, ← List.countP_eq_length_filter]
  refine List.countP_mono_left fun round _ hchanged => ?_
  rw [decide_eq_true_eq] at hchanged ⊢
  intro htext
  obtain ⟨x, hx, hx'⟩ := Option.map_eq_some_iff.mp htext
  exact hchanged x hx (MailboxEnvelope.text_eq_iff.mp hx').1

section Rounds

variable {rounds : List (Option MailboxEnvelope × MailboxEnvelope)} {x v : MailboxEnvelope}

theorem rewrittenRounds_none :
    rewrittenRounds ((none, v) :: rounds) = v :: rewrittenRounds rounds :=
  rfl

theorem changedRounds_none : changedRounds ((none, v) :: rounds) = v :: changedRounds rounds := by
  rw [changedRounds, List.filter_cons_of_pos (by simp)]
  rfl

theorem rewrittenRounds_same (h : x.text = v.text) :
    rewrittenRounds ((some x, v) :: rounds) = rewrittenRounds rounds := by
  rw [rewrittenRounds, List.filter_cons_of_neg (by simpa using h)]
  rfl

theorem rewrittenRounds_text (h : ¬ x.text = v.text) :
    rewrittenRounds ((some x, v) :: rounds) = v :: rewrittenRounds rounds := by
  rw [rewrittenRounds, List.filter_cons_of_pos (by simpa using h)]
  rfl

theorem changedRounds_same (h : x.SameValues v) :
    changedRounds ((some x, v) :: rounds) = changedRounds rounds := by
  rw [changedRounds, List.filter_cons_of_neg (by simpa using h)]
  rfl

theorem changedRounds_value (h : ¬ x.SameValues v) :
    changedRounds ((some x, v) :: rounds) = v :: changedRounds rounds := by
  rw [changedRounds, List.filter_cons_of_pos (by simpa using h)]
  rfl

end Rounds

/-- The texts report exactly the changes if repetitions keep the order. -/
theorem rewrittenRounds_eq_iff :
    rewrittenRounds (commitRounds scope es store) = changedRounds (commitRounds scope es store) ↔
      KeepsOrders scope es store := by
  induction es generalizing store with
  | nil => exact ⟨fun _ => trivial, fun _ => rfl⟩
  | cons e rest ih =>
      have hlength := length_changedRounds_le
        (commitRounds scope rest (storeEnvelope scope store e))
      rw [KeepsOrders, ← ih, commitRounds]
      cases hx : envelopeAt scope e.id store with
      | none => rw [rewrittenRounds_none, changedRounds_none, List.cons_inj_right]; simp
      | some x =>
          by_cases htext : x.text = (mergeEnvelope (some x) e).text
          · obtain ⟨hrepeats, horder⟩ := text_mergeEnvelope_iff.mp htext
            rw [rewrittenRounds_same htext, changedRounds_same (repeats_iff.mp hrepeats)]
            simp [horder]
          · rw [rewrittenRounds_text htext]
            by_cases hrepeats : e.Repeats x
            · rw [changedRounds_same (repeats_iff.mp hrepeats)]
              constructor
              · intro h
                have := congrArg List.length h
                simp at this
                omega
              · rintro ⟨horder, -⟩
                exact absurd (text_mergeEnvelope_iff.mpr ⟨hrepeats, horder x rfl hrepeats⟩) htext
            · rw [changedRounds_value (fun h => hrepeats (repeats_iff.mpr h)), List.cons_inj_right]
              simp [hrepeats]

/-- Another scope's envelopes are not touched. -/
theorem envelopeAt_foldl_other {other : InboxScope} (h : other ≠ scope) (id : String) :
    envelopeAt other id (es.foldl (storeEnvelope scope) store) = envelopeAt other id store := by
  induction es generalizing store with
  | nil => rfl
  | cons e rest ih =>
      rw [List.foldl_cons, ih]
      by_cases hsame : Unchanged scope store e
      · rw [storeEnvelope_same hsame]
      · rw [storeEnvelope_put hsame]
        refine congrArg (Option.map Stored.value) (Store.get_put_of_ne store ?_)
        intro hkey
        exact h (scopeKey_inj (recordKey_inj.mp hkey).1).symm

theorem envelopeAt_foldl_of_notMem {id : String} (h : id ∉ es.map (·.id)) :
    envelopeAt scope id (es.foldl (storeEnvelope scope) store) = envelopeAt scope id store := by
  induction es generalizing store with
  | nil => rfl
  | cons e rest ih =>
      rw [List.map_cons, List.mem_cons, not_or] at h
      rw [List.foldl_cons, ih h.2, envelopeAt_storeEnvelope_of_ne h.1]

/-- A stored envelope is still stored. -/
theorem envelopeAt_foldl_retains {id : String} {x : MailboxEnvelope}
    (h : envelopeAt scope id store = some x) :
    ∃ v, envelopeAt scope id (es.foldl (storeEnvelope scope) store) = some v ∧ Retains x v :=
  envelopeAt_foldl_keeps ⟨x, h, .refl x⟩ fun e _ _ l _ hv => retains_mergeEnvelope hv e l

/-- What a commit changed is reported. -/
theorem mem_rewrittenRounds {id : String}
    (h : envelopeAt scope id (es.foldl (storeEnvelope scope) store) ≠ envelopeAt scope id store) :
    ∃ v ∈ rewrittenRounds (commitRounds scope es store),
      envelopeAt scope id (es.foldl (storeEnvelope scope) store) = some v := by
  induction es generalizing store with
  | nil => exact absurd rfl h
  | cons e rest ih =>
      rw [List.foldl_cons] at h ⊢
      have hmono : ∀ v ∈ rewrittenRounds (commitRounds scope rest (storeEnvelope scope store e)),
          v ∈ rewrittenRounds (commitRounds scope (e :: rest) store) := by
        intro v hv
        exact (((List.sublist_cons_self _ _).filter _).map _).mem hv
      by_cases hlater : envelopeAt scope id (rest.foldl (storeEnvelope scope)
          (storeEnvelope scope store e)) = envelopeAt scope id (storeEnvelope scope store e)
      · rw [hlater] at h ⊢
        by_cases hid : id = e.id
        · subst hid
          by_cases hsame : Unchanged scope store e
          · rw [storeEnvelope_same hsame] at h
            exact absurd rfl h
          · refine ⟨_, List.mem_map.mpr ⟨_, List.mem_filter.mpr
              ⟨List.mem_cons_self, decide_eq_true hsame⟩, rfl⟩, ?_⟩
            rw [storeEnvelope_put hsame]
            exact congrArg (Option.map Stored.value)
              (Store.get_put_self (indexedEnvelope (record (scopeKey scope) e.id _)) store)
        · exact absurd (envelopeAt_storeEnvelope_of_ne hid) h
      · obtain ⟨v, hv, hstored⟩ := ih hlater
        exact ⟨v, hmono v hv, hstored⟩

/-! ## Repeated commits -/

/-- The copy of every envelope has the text of its merge. -/
def Settled (scope : InboxScope) (es : List MailboxEnvelope)
    (store : List (Stored MailboxEnvelope)) : Prop :=
  ∀ e ∈ es, Unchanged scope store e

theorem Settled.foldl (h : Settled scope es store) :
    es.foldl (storeEnvelope scope) store = store := by
  induction es with
  | nil => rfl
  | cons e rest ih =>
      rw [List.foldl_cons, storeEnvelope_same (h e List.mem_cons_self)]
      exact ih fun e' he' => h e' (List.mem_cons_of_mem _ he')

theorem Settled.rewrittenRounds (h : Settled scope es store) :
    rewrittenRounds (commitRounds scope es store) = [] := by
  induction es with
  | nil => rfl
  | cons e rest ih =>
      have hsame := h e List.mem_cons_self
      rw [commitRounds, storeEnvelope_same hsame, Client.rewrittenRounds,
        List.filter_cons_of_neg (by rw [decide_eq_true_eq, not_not]; exact hsame)]
      exact ih fun e' he' => h e' (List.mem_cons_of_mem _ he')

/-- After its round an envelope has nothing more to say. -/
theorem unchanged_of_text {e x : MailboxEnvelope} {existing : Option MailboxEnvelope}
    (hx : envelopeAt scope e.id store = some x)
    (htext : x.text = (mergeEnvelope existing e).text) : Unchanged scope store e := by
  have hvalues : x = (mergeEnvelope existing e).arrange x.properties :=
    (MailboxEnvelope.text_eq_iff.mp htext).1
  have hmerge : mergeEnvelope (some x) e = mergeEnvelope existing e := by
    rw [hvalues]
    exact mergeEnvelope_idem existing e _
  rw [Unchanged, hx, hmerge, ← htext]
  rfl

/-- A commit without repeated ids settles. -/
theorem settled_foldl (hnodup : (es.map (·.id)).Nodup) :
    Settled scope es (es.foldl (storeEnvelope scope) store) := by
  induction es generalizing store with
  | nil => exact fun e he => absurd he List.not_mem_nil
  | cons e rest ih =>
      rw [List.map_cons, List.nodup_cons] at hnodup
      intro e' he'
      rw [List.foldl_cons]
      rcases List.mem_cons.mp he' with rfl | he'
      · obtain ⟨x, hx, htext⟩ := envelopeAt_storeEnvelope_self scope store e'
        exact unchanged_of_text ((envelopeAt_foldl_of_notMem hnodup.1).trans hx) htext
      · exact ih hnodup.2 e' he'

/-! ## The transaction -/

variable {cursor : ℤ} {nextCursor : JsNumber} {db db' : Database}

theorem valid_of_commitPage {r : List MailboxEnvelope × Database}
    (h : commitPage scope cursor es nextCursor db = .ok r) : valid scope db = true := by
  cases nextCursor with
  | other => cases h
  | integer n =>
      simp only [commitPage] at h
      rw [← Bool.not_eq_false]
      intro hinvalid
      have hvalidate : validate scope db =
          .error (.client "Local device generation changed" .local_generation_changed) := by
        rw [validate, hinvalid]
        rfl
      rw [hvalidate] at h
      split_ifs at h <;> cases h

/-- When a commit throws. -/
theorem commitPage_error_iff :
    (∃ x, commitPage scope cursor es nextCursor db = .error x) ↔
      Refuses scope cursor es nextCursor db := by
  constructor
  · rintro ⟨x, hx⟩
    by_contra hfine
    simp only [Refuses, not_or, not_exists, not_and, Bool.not_eq_false, not_lt, ne_eq, not_not]
      at hfine
    obtain ⟨hsafe, hle, hvalid, hcursor, hrec⟩ := hfine
    cases nextCursor with
    | other => cases hsafe
    | integer n =>
        obtain ⟨r, hr⟩ := commitPage_total hvalid hcursor (hle n rfl) hsafe hrec
        rw [hr] at hx
        cases hx
  · intro hbad
    cases hok : commitPage scope cursor es nextCursor db with
    | error x => exact ⟨x, rfl⟩
    | ok r =>
        exfalso
        cases nextCursor with
        | other => cases hok
        | integer n =>
            have hvalid := valid_of_commitPage hok
            obtain ⟨cs, db'⟩ := r
            obtain ⟨hcommit, -⟩ := commitPage_ok hok
            rcases hbad with hsafe | ⟨m, hm, hlt⟩ | hinvalid | hcursor | ⟨e, he, hrec⟩
            · simp only [JsNumber.isSafeInteger, decide_eq_false_iff_not] at hsafe
              exact hsafe hcommit.safe
            · cases hm
              exact absurd hcommit.le (not_le.mpr hlt)
            · rw [hvalid] at hinvalid
              cases hinvalid
            · exact hcursor hcommit.cursor_eq
            · exact hrec (hcommit.recipient e he)

theorem Committing.again {n : ℤ} (h : Committing scope cursor es n db db')
    (hvalid : valid scope db = true) (hnodup : (es.map (·.id)).Nodup) :
    commitPage scope n es (.integer n) db' = .ok ([], db') := by
  have hsettled : Settled scope es db'.envelopes := h.envelopes' ▸ settled_foldl hnodup
  have hsafe : (JsNumber.integer n).isSafeInteger = true := decide_eq_true h.safe
  have hvalid' : valid scope db' = true := (valid_congr h.identity').trans hvalid
  obtain ⟨⟨cs, db''⟩, hok⟩ := commitPage_total hvalid' h.cursor' le_rfl hsafe h.recipient
  obtain ⟨hcommit, store, hstore⟩ := commitPage_ok hok
  rw [hok, commitEnvelopes_changes hstore, hsettled.rewrittenRounds, hcommit.db_eq, hsettled.foldl]
  have hcursors : Store.put Stored.key
      (⟨scopeKey scope, scopeKey scope, .seq n, none, none, none⟩ : Stored CursorValue)
      db'.cursors = db'.cursors := by
    rw [h.db_eq]
    exact Store.put_put _ _
  rw [putCursor, hcursors]

/-- What every successful commit does. -/
theorem merged_of_ok {cs : List MailboxEnvelope}
    (hok : commitPage scope cursor es nextCursor db = .ok (cs, db')) :
    Merged scope es nextCursor db db' ∧
      cs = rewrittenRounds (commitRounds scope es db.envelopes) ∧
      ∀ id, envelopeAt scope id db'.envelopes ≠ envelopeAt scope id db.envelopes →
        ∃ v ∈ cs, envelopeAt scope id db'.envelopes = some v := by
  cases nextCursor with
  | other => cases hok
  | integer n =>
      obtain ⟨hcommit, store, hstore⟩ := commitPage_ok hok
      have henvelopes := hcommit.envelopes'
      have hchanges := commitEnvelopes_changes hstore
      refine ⟨⟨?_, fun id x hx => ?_, fun other id hother => ?_, fun hnodup => ?_⟩, hchanges,
        fun id hne => ?_⟩
      · rw [hcommit.cursor']
      · rw [henvelopes]
        exact envelopeAt_foldl_retains hx
      · rw [henvelopes]
        by_cases hscope : other = scope
        · rw [hscope]
          exact envelopeAt_foldl_of_notMem (hother.resolve_left (not_not.mpr hscope))
        · exact envelopeAt_foldl_other hscope id
      · rw [hcommit.cursor']
        exact hcommit.again (valid_of_commitPage hok) hnodup
      · rw [henvelopes] at hne ⊢
        rw [hchanges]
        exact mem_rewrittenRounds hne

/-- **A commit merges without losing anything**, and it reports exactly the
writes that changed a value if every envelope that repeats its copy has the
properties in the order of the copy: what is compared are JSON texts. -/
theorem commitPage_merges (scope : InboxScope) (cursor : ℤ) (es : List MailboxEnvelope)
    (nextCursor : JsNumber) (db : Database) :
    (MergesExactly scope cursor es nextCursor db ↔
      Refuses scope cursor es nextCursor db ∨ KeepsOrders scope es db.envelopes) ∧
    ((∃ x, commitPage scope cursor es nextCursor db = .error x) ↔
      Refuses scope cursor es nextCursor db) ∧
    (∀ x, commitPage scope cursor es nextCursor db = .error x →
      afterTransaction (commitPage scope cursor es nextCursor) db = db) ∧
    ∀ cs db', commitPage scope cursor es nextCursor db = .ok (cs, db') →
      Merged scope es nextCursor db db' ∧
      cs = rewrittenRounds (commitRounds scope es db.envelopes) ∧
      ∀ id, envelopeAt scope id db'.envelopes ≠ envelopeAt scope id db.envelopes →
        ∃ v ∈ cs, envelopeAt scope id db'.envelopes = some v := by
  refine ⟨⟨fun h => ?_, fun h => ?_⟩, commitPage_error_iff,
    fun x hx => afterTransaction_error ⟨x, hx⟩, fun cs db' hok => merged_of_ok hok⟩
  · cases hrun : commitPage scope cursor es nextCursor db with
    | error x => exact .inl (commitPage_error_iff.mp ⟨x, hrun⟩)
    | ok r =>
        have hreports := h.reports r.1 r.2 hrun
        rw [(merged_of_ok hrun).2.1] at hreports
        exact .inr (rewrittenRounds_eq_iff.mp hreports)
  · refine ⟨commitPage_error_iff, fun x hx => afterTransaction_error ⟨x, hx⟩,
      fun cs db' hok => (merged_of_ok hok).1, fun cs db' hok => ?_⟩
    rcases h with hrefuses | hkeeps
    · obtain ⟨x, hx⟩ := commitPage_error_iff.mpr hrefuses
      rw [hok] at hx
      cases hx
    · rw [(merged_of_ok hok).2.1]
      exact rewrittenRounds_eq_iff.mpr hkeeps

end Commits

section Redeliveries

/-! The mailbox of a device with two envelopes, both stored. -/

def secondEnvelope : MailboxEnvelope :=
  { phoneEnvelope with
    id := "e2"
    message_id := "m2"
    mailbox_seq := .integer 2
    chat_seq := some 2
    client_message_id := "k2" }

def pairInbox : Database :=
  putCursor (scopeKey phoneScope) 2
    { phoneInbox with
      envelopes := [secondEnvelope].foldl (storeEnvelope phoneScope) phoneInbox.envelopes }

theorem envelopeAt_phoneInbox :
    envelopeAt phoneScope "e1" phoneInbox.envelopes = some phoneEnvelope := by
  decide

/-- The envelope comes again without its chat sequence: the copy gets it as its
last property and is reported, with the values it had. -/
theorem commitPage_reports_unnumbered :
    ¬ ∀ scope cursor es nextCursor db, MergesExactly scope cursor es nextCursor db := by
  intro h
  have hclaim := h phoneScope 1 [unnumbered] (.integer 1) phoneInbox
  have hvalid : valid phoneScope phoneInbox = true := (valid_congr rfl).trans valid_emptyInbox
  have hcursor : cursorAt (scopeKey phoneScope) phoneInbox = 1 := cursorAt_putCursor _ _ _
  have hdevice : ∀ e ∈ [unnumbered], e.recipient_device_id = phoneScope.deviceId := by decide
  obtain ⟨⟨cs, db⟩, hok⟩ := commitPage_total hvalid hcursor le_rfl rfl hdevice
  have hreports := hclaim.reports cs db hok
  rw [(merged_of_ok hok).2.1] at hreports
  obtain ⟨hkeeps, -⟩ := rewrittenRounds_eq_iff.mp hreports
  have hrepeats : unnumbered.Repeats phoneEnvelope := repeats_iff.mpr (by decide)
  exact absurd (hkeeps phoneEnvelope envelopeAt_phoneInbox hrepeats) (by decide)

theorem keepsOrders_redelivered :
    KeepsOrders phoneScope [tombstone, secondEnvelope] pairInbox.envelopes := by
  have hfirst : envelopeAt phoneScope "e1" pairInbox.envelopes = some phoneEnvelope := by
    decide
  have hsecond : envelopeAt phoneScope "e2"
      (storeEnvelope phoneScope pairInbox.envelopes tombstone) = some secondEnvelope := by
    decide
  refine ⟨fun x hx hrepeats => ?_, fun x hx _ => ?_, trivial⟩
  · -- the copy is not marked delivered yet
    obtain rfl := Option.some.inj (hfirst.symm.trans hx)
    exact absurd (hrepeats.2.2.1 purgeTime rfl) (by decide)
  · obtain rfl := Option.some.inj (hsecond.symm.trans hx)
    decide

theorem changedRounds_redelivered :
    changedRounds (commitRounds phoneScope [tombstone, secondEnvelope] pairInbox.envelopes) =
      [{ tombstone with payload := some "aGk=" }] := by
  decide

/-- A purged envelope keeps its payload, and an envelope that comes again is
not reported. -/
theorem commitPage_merges_redelivered :
    ∃ db', commitPage phoneScope 2 [tombstone, secondEnvelope] (.integer 2) pairInbox =
        .ok ([{ tombstone with payload := some "aGk=" }], db') ∧
      MergesExactly phoneScope 2 [tombstone, secondEnvelope] (.integer 2) pairInbox ∧
      commitPage phoneScope 2 [tombstone, secondEnvelope] (.integer 2) db' = .ok ([], db') := by
  have hvalid : valid phoneScope pairInbox = true := (valid_congr rfl).trans valid_emptyInbox
  have hcursor : cursorAt (scopeKey phoneScope) pairInbox = 2 := cursorAt_putCursor _ _ _
  have hdevice : ∀ e ∈ [tombstone, secondEnvelope],
      e.recipient_device_id = phoneScope.deviceId := by decide
  obtain ⟨⟨cs, db'⟩, hok⟩ := commitPage_total hvalid hcursor le_rfl rfl hdevice
  obtain ⟨hiff, -⟩ :=
    commitPage_merges phoneScope 2 [tombstone, secondEnvelope] (.integer 2) pairInbox
  have hexact := hiff.mpr (.inr keepsOrders_redelivered)
  have hmerged := hexact.merges cs db' hok
  have hcursor' : cursorAt (scopeKey phoneScope) db' = 2 :=
    (JsNumber.integer.inj hmerged.cursor).symm
  have hagain := hmerged.again (by decide)
  rw [hcursor'] at hagain
  refine ⟨db', ?_, hexact, hagain⟩
  rw [hok, hexact.reports cs db' hok, changedRounds_redelivered]

end Redeliveries

end Client
end SecureMessenger

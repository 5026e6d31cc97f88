import SecureMessenger.Server.Requests
import SecureMessenger.Lib.Total
import Mathlib.Data.Fintype.EquivFin

/-!
# Requests that are left alone

What a request does on a fixed state of the database, when nothing fails and
no other request is in its way.  `quiet` is the server without failures: locks
are granted when they are free, commits fail only on a violated key, and
random identifiers are fresh.

A send that is left alone is accepted exactly when the client has supplied the
devices that `destination_devices` returns.
-/

namespace SecureMessenger
namespace Server

open Lib

/-- What does not happen to a request that is left alone. -/
def Undisturbed : (c : Sql) → World → c.Answer → Prop
  | .lock _ _, _, a => a = .ok ()
  | .flush, _, a => a ≠ .error .database
  | .commit, _, a => a ≠ .error .database
  | .uuid4, w, (id : UUID) =>
      id ∉ w.uuids ∧ id ∉ w.db.messages.map (·.id) ∧ id ∉ w.db.envelopes.map (·.id)
  | _, _, _ => True

/-- Calls that do not fail. -/
def quiet (sec : Security) (t : Tid) (c : Sql) (w : World) (a : c.Answer) (w' : World) : Prop :=
  World.exec sec t c w a w' ∧ Undisturbed c w a

/-- A request that runs alone comes to an end with `Q` or raises with `Z`. -/
abbrev Alone (sec : Security) (t : Tid) {α : Type} (p : Session α) (Q : α → World → Prop)
    (Z : PyError → World → Prop) (w : World) : Prop :=
  Total (quiet sec) Eq t p Q Z w

/-- The database is `db` after the commits `past`, the open transaction of `t`
has the writes `f`, and nobody else holds a lock. -/
structure Calm (t : Tid) (db : Db) (past : List Commit) (f : Db → Db) (w : World) : Prop where
  db : w.db = db
  history : w.history = past
  pending : w.pending t = f
  free : ∀ u, u ≠ t → ∀ r, w.held u r = none

section Calls

variable {sec : Security} {t : Tid} {db : Db} {past : List Commit} {f : Db → Db}
  {w : World} {α : Type}

theorem Calm.grant (h : Calm t db past f w) (r : Resource) (mode : LockMode) :
    Calm t db past f (w.grant t r mode) :=
  ⟨h.db, h.history, h.pending, fun u hu r' => by simpa [World.grant, hu] using h.free u hu r'⟩

theorem Calm.isFree (h : Calm t db past f w) (r : Resource) (mode : LockMode) : w.free t r mode :=
  fun u hu => by simp [h.free u hu r]

theorem alone_query (h : Calm t db past f w) {g : Db → α} {Q : α → World → Prop}
    {Z : PyError → World → Prop} (hQ : Q (g (f db)) w) : Alone sec t (query g) Q Z w := by
  refine .eff (fun w₁ hr => ?_) (fun w₁ a w₂ hr hx => ?_)
  · exact ⟨_, w₁, ⟨rfl, rfl⟩, trivial⟩
  · subst hr
    obtain ⟨⟨rfl, rfl⟩, -⟩ := hx
    rw [h.pending, h.db]
    exact .ret hQ

theorem alone_lock (h : Calm t db past f w) {r : Resource} {mode : LockMode}
    {Q : Unit → World → Prop} {Z : PyError → World → Prop}
    (hQ : ∀ w', Calm t db past f w' → w'.uuids = w.uuids → Q () w') :
    Alone sec t (lock r mode) Q Z w := by
  refine .eff (fun w₁ hr => ?_) (fun w₁ a w₂ hr hx => ?_)
  · subst hr
    exact ⟨.ok (), _, Or.inl ⟨rfl, h.isFree r mode, rfl⟩, rfl⟩
  · subst hr
    obtain ⟨hx, ha⟩ := hx
    have ha : a = .ok () := ha
    subst ha
    rcases hx with ⟨-, -, rfl⟩ | ⟨herr, -⟩
    · exact .ret (hQ _ (h.grant r mode) rfl)
    · cases herr

theorem alone_lockAll {mode : LockMode} {Z : PyError → World → Prop} (rs : List Resource) :
    ∀ {w : World} {Q : Unit → World → Prop}, Calm t db past f w →
      (∀ w', Calm t db past f w' → w'.uuids = w.uuids → Q () w') →
      Alone sec t (lockAll mode rs) Q Z w := by
  induction rs with
  | nil =>
      intro w Q h hQ
      exact .ret (hQ w h rfl)
  | cons r rs ih =>
      intro w Q h hQ
      refine Total.bind (alone_lock h fun w₁ h₁ hu₁ => ?_)
      exact ih h₁ fun w₂ h₂ hu₂ => hQ w₂ h₂ (hu₂.trans hu₁)

theorem alone_now {Q : Instant → World → Prop} {Z : PyError → World → Prop}
    (hQ : ∀ now, Q now w) : Alone sec t utcNow Q Z w := by
  refine .eff (fun w₁ hr => ?_) (fun w₁ a w₂ hr hx => ?_)
  · exact ⟨(0 : Nat), w₁, rfl, trivial⟩
  · subst hr
    obtain ⟨hx, -⟩ := hx
    have hx : w₂ = w := hx
    subst hx
    exact .ret (hQ a)

theorem alone_write (h : Calm t db past f w) {g : Db → Db} {Q : Unit → World → Prop}
    {Z : PyError → World → Prop} (hQ : ∀ w', Calm t db past (g ∘ f) w' → Q () w') :
    Alone sec t (write g) Q Z w := by
  refine .eff (fun w₁ hr => ?_) (fun w₁ a w₂ hr hx => ?_)
  · exact ⟨(), _, rfl, trivial⟩
  · subst hr
    obtain ⟨hx, -⟩ := hx
    have hx : w₂ = { w with pending := Function.update w.pending t (g ∘ w.pending t) } := hx
    subst hx
    exact .ret (hQ _ ⟨h.db, h.history, by simp [h.pending], h.free⟩)

/-- There are more identifiers than any list holds. -/
theorem exists_fresh_uuid (l : List UUID) : ∃ id : UUID, id ∉ l := by
  have hinj : Function.Injective fun n : Nat => String.ofList (List.replicate n 'a') := by
    intro m n h
    have := congrArg (fun s : String => s.toList.length) h
    simpa using this
  have := Infinite.of_injective _ hinj
  obtain ⟨id, hid⟩ := Infinite.exists_notMem_finset l.toFinset
  exact ⟨id, by simpa using hid⟩

theorem alone_uuid4 (h : Calm t db past f w) {Q : UUID → World → Prop} {Z : PyError → World → Prop}
    (hQ : ∀ id w', Calm t db past f w' → id ∉ w.uuids → id ∉ db.messages.map (·.id) →
      id ∉ db.envelopes.map (·.id) → w'.uuids = id :: w.uuids → Q id w') :
    Alone sec t uuid4 Q Z w := by
  refine .eff (fun w₁ hr => ?_) (fun w₁ id w₂ hr hx => ?_)
  · obtain ⟨id, hid⟩ := exists_fresh_uuid
      (w₁.uuids ++ w₁.db.messages.map (·.id) ++ w₁.db.envelopes.map (·.id))
    simp only [List.mem_append, not_or] at hid
    exact ⟨id, _, rfl, hid.1.1, hid.1.2, hid.2⟩
  · subst hr
    obtain ⟨hx, hnew, hm, he⟩ := hx
    have hx : w₂ = { w with uuids := id :: w.uuids } := hx
    subst hx
    rw [h.db] at hm he
    exact .ret (hQ id _ ⟨h.db, h.history, h.pending, h.free⟩ hnew hm he rfl)

/-- A commit of writes that violate no key. -/
theorem alone_commit (h : Calm t db past f w) (hu : (f db).uniqueKeys) {Q : Unit → World → Prop}
    {Z : PyError → World → Prop} (hQ : ∀ w', Calm t (f db) (⟨t, db, f db⟩ :: past) id w' →
      Q () w') :
    Alone sec t Server.commit Q Z w := by
  have hu' : (w.pending t w.db).uniqueKeys := by
    rw [h.pending, h.db]
    exact hu
  refine .eff (fun w₁ hr => ?_) (fun w₁ a w₂ hr hx => ?_)
  · subst hr
    exact ⟨.ok (), _, Or.inl ⟨rfl, hu', rfl⟩, fun herr => nomatch herr⟩
  · subst hr
    obtain ⟨hx, ha⟩ := hx
    rcases hx with ⟨rfl, -, rfl⟩ | ⟨-, hnot, -⟩ | ⟨herr, -⟩
    · refine .ret (hQ _ ⟨by simp [World.commit, h.pending, h.db],
        by simp [World.commit, h.pending, h.db, h.history],
        by simp [World.commit, World.close], fun u hu r => ?_⟩)
      simpa [World.commit, World.close, hu] using h.free u hu r
    · exact absurd hu' hnot
    · exact absurd herr ha

theorem alone_flush (h : Calm t db past f w)
    (hu : (f db).uniqueKeys) {Q : Unit → World → Prop} {Z : PyError → World → Prop} (hQ : Q () w) :
    Alone sec t flush Q Z w := by
  have hu' : (w.pending t w.db).uniqueKeys := by
    rw [h.pending, h.db]
    exact hu
  refine .eff (fun w₁ hr => ?_) (fun w₁ a w₂ hr hx => ?_)
  · subst hr
    exact ⟨.ok (), _, ⟨rfl, Or.inl ⟨rfl, hu'⟩⟩, fun herr => nomatch herr⟩
  · subst hr
    obtain ⟨⟨rfl, hx⟩, ha⟩ := hx
    rcases hx with ⟨rfl, -⟩ | ⟨-, hnot⟩ | herr
    · exact .ret hQ
    · exact absurd hu' hnot
    · exact absurd herr ha

theorem alone_publishAll (ids : List UUID) {Q : Unit → World → Prop} {Z : PyError → World → Prop}
    (h : Calm t db past f w) (hQ : ∀ w', Calm t db past f w' → Q () w') :
    Alone sec t (publishAll ids) Q Z w := by
  induction ids generalizing w with
  | nil =>
      exact .ret (hQ w h)
  | cons id ids ih =>
      refine .eff (fun w₁ hr => ?_) (fun w₁ a w₂ hr hx => ?_)
      · exact ⟨(), _, rfl, trivial⟩
      · subst hr
        obtain ⟨hx, -⟩ := hx
        have hx : w₂ = w.publish t id := hx
        subst hx
        exact ih ⟨h.db, h.history, h.pending, h.free⟩

theorem alone_selectLocked (h : Calm t db past id w) {key : α → Resource} {mode : LockMode}
    {g : Db → Option α} {a : α} (ha : g db = some a) {Q : Option α → World → Prop}
    {Z : PyError → World → Prop}
    (hQ : ∀ w', Calm t db past id w' → w'.uuids = w.uuids → Q (some a) w') :
    Alone sec t (selectLocked key mode g) Q Z w := by
  unfold selectLocked
  refine Total.bind (alone_query h ?_)
  have ha' : g (id db) = some a := ha
  rw [ha']
  refine Total.bind (alone_lock h fun w₁ h₁ hu₁ => ?_)
  refine alone_query h₁ ?_
  have hfilter : (some a).filter (fun a' => decide (key a' = key a)) = some a := by
    simp
  rw [ha', hfilter]
  exact hQ w₁ h₁ hu₁

theorem alone_get_message_by_client_id (h : Calm t db past id w) {device_id client_id : UUID}
    (hnone : db.messageByClientId device_id client_id = none)
    {Q : Option StoredMessage → World → Prop} {Z : PyError → World → Prop} (hQ : Q none w) :
    Alone sec t (get_message_by_client_id device_id client_id) Q Z w := by
  unfold get_message_by_client_id
  refine Total.bind (alone_query h ?_)
  have hnone' : Db.messageByClientId device_id client_id (id db) = none := hnone
  rw [hnone']
  exact .ret hQ

theorem userById_of_active {user_id device_id : UUID} (h : Active db user_id device_id) :
    ∃ u, db.userById user_id = some u := by
  obtain ⟨hany, -⟩ := h
  obtain ⟨u, hu, hkey⟩ := List.any_eq_true.mp hany
  simp only [decide_eq_true_eq] at hkey
  cases hfind : db.userById user_id with
  | none =>
      have := List.find?_eq_none.mp hfind u hu
      simp [hkey.1] at this
  | some u' =>
      exact ⟨u', rfl⟩

theorem alone_lock_device_sets {Z : PyError → World → Prop} (users : List UUID) :
    ∀ {w : World} {Q : Unit → World → Prop}, Calm t db past id w →
      (∀ user_id ∈ users, ∃ u, db.userById user_id = some u) →
      (∀ w', Calm t db past id w' → w'.uuids = w.uuids → Q () w') →
      Alone sec t (lock_device_sets users) Q Z w := by
  induction users with
  | nil =>
      intro w Q h _ hQ
      exact .ret (hQ w h rfl)
  | cons user_id users ih =>
      intro w Q h husers hQ
      obtain ⟨u, hu⟩ := husers user_id List.mem_cons_self
      unfold lock_device_sets lock_device_set
      refine Total.bind (Total.bind (alone_selectLocked h hu fun w₁ h₁ hu₁ => ?_))
      refine .ret ?_
      exact ih h₁ (fun v hv => husers v (List.mem_cons_of_mem _ hv))
        fun w₂ h₂ hu₂ => hQ w₂ h₂ (hu₂.trans hu₁)

theorem alone_lock_mailboxes (h : Calm t db past id w) (ids : List UUID)
    {Q : List DeviceMailbox → World → Prop} {Z : PyError → World → Prop}
    (hQ : ∀ w', Calm t db past id w' → w'.uuids = w.uuids → Q (db.mailboxesOf ids) w') :
    Alone sec t (lock_mailboxes ids) Q Z w := by
  unfold lock_mailboxes
  refine Total.bind (alone_query h ?_)
  refine Total.bind (alone_lockAll _ h fun w₁ h₁ hu₁ => ?_)
  refine alone_query h₁ ?_
  have hall : ((Db.mailboxesOf ids (id db)).filter fun m => decide (m.device_id ∈
      (Db.mailboxesOf ids (id db)).map (·.device_id))) = db.mailboxesOf ids := by
    refine List.filter_eq_self.mpr fun m hm => ?_
    simp only [decide_eq_true_eq]
    exact List.mem_map_of_mem hm
  rw [hall]
  exact hQ w₁ h₁ hu₁

/-- The devices `destination_devices` returns. -/
def destinations (principal : Principal) (other_user_id : UUID) (db : Db) : List Device :=
  recipient_devices principal.device_id
    (db.activeDevices other_user_id ++ db.activeDevices principal.user_id)

theorem alone_destination_devices (h : Calm t db past id w) {principal : Principal}
    {chat_id other_user_id : UUID}
    (hother : db.otherUserId principal.user_id chat_id = some other_user_id)
    {Q : List Device → World → Prop} {Z : PyError → World → Prop}
    (hQ : Q (destinations principal other_user_id db) w) :
    Alone sec t (destination_devices principal chat_id) Q Z w := by
  unfold destination_devices
  refine Total.bind (alone_query h ?_)
  have hother' : Db.otherUserId principal.user_id chat_id (id db) = some other_user_id := hother
  rw [hother']
  refine Total.bind (alone_query h ?_)
  refine Total.bind (alone_query h ?_)
  exact .ret hQ

theorem mem_destinations {principal : Principal} {other_user_id id : UUID} :
    id ∈ (destinations principal other_user_id db).map (·.id) ↔
      id ≠ principal.device_id ∧
        (Active db other_user_id id ∨ Active db principal.user_id id) := by
  simp only [destinations, recipient_devices, List.mem_map, List.mem_insertionSort,
    List.mem_filter, List.mem_append, decide_eq_true_eq, active_iff]
  constructor
  · rintro ⟨d, ⟨hd | hd, hne⟩, rfl⟩
    · exact ⟨hne, Or.inl ⟨d, hd, rfl⟩⟩
    · exact ⟨hne, Or.inr ⟨d, hd, rfl⟩⟩
  · rintro ⟨hne, ⟨d, hd, rfl⟩ | ⟨d, hd, rfl⟩⟩
    · exact ⟨d, ⟨Or.inl hd, hne⟩, rfl⟩
    · exact ⟨d, ⟨Or.inr hd, hne⟩, rfl⟩

/-- Every destination has a mailbox. -/
theorem mailboxesOf_destinations (hw : Wf db) (principal : Principal) (other_user_id : UUID)
    (id : UUID) :
    id ∈ (db.mailboxesOf ((destinations principal other_user_id db).map (·.id))).map
        (·.device_id) ↔
      id ∈ (destinations principal other_user_id db).map (·.id) := by
  constructor
  · intro h
    obtain ⟨b, hb, rfl⟩ := List.mem_map.mp h
    exact (mem_mailboxesOf.mp hb).2
  · intro h
    have hdev : id ∈ db.mailboxes.map (·.device_id) := by
      rcases (mem_destinations.mp h).2 with hact | hact
      · obtain ⟨-, d, hd, rfl, -⟩ := hact
        exact hw.device_mailbox d hd
      · obtain ⟨-, d, hd, rfl, -⟩ := hact
        exact hw.device_mailbox d hd
    obtain ⟨b, hb, rfl⟩ := List.mem_map.mp hdev
    exact List.mem_map.mpr ⟨b, mem_mailboxesOf.mpr ⟨hb, h⟩, rfl⟩

/-- `_lock_destination_mailboxes` on a fixed state. -/
theorem alone_lock_destination_mailboxes (h : Calm t db past id w) (hw : Wf db)
    {principal : Principal} {other_user_id : UUID} {supplied : List UUID}
    (hsender : Active db principal.user_id principal.device_id)
    (hpeer : ∃ id, Active db other_user_id id)
    {Q : List DeviceMailbox × List (UUID × UUID) → World → Prop} {Z : PyError → World → Prop}
    (hok : (∀ id, id ∈ supplied ↔ id ∈ (destinations principal other_user_id db).map (·.id)) →
      ∀ w', Calm t db past id w' → w'.uuids = w.uuids →
      Q (db.mailboxesOf ((destinations principal other_user_id db).map (·.id)),
        (destinations principal other_user_id db).map fun d => (d.id, d.user_id)) w')
    (hchanged : (¬∀ id, id ∈ supplied ↔
        id ∈ (destinations principal other_user_id db).map (·.id)) →
      ∀ w', Calm t db past id w' → Z .deliveryTargetsChanged w') :
    Alone sec t (lock_destination_mailboxes principal other_user_id supplied) Q Z w := by
  unfold lock_destination_mailboxes
  refine Total.bind (alone_lock_device_sets _ h ?_ fun w₁ h₁ hu₁ => ?_)
  · intro user_id hmem
    rcases mem_sortedPair.mp hmem with rfl | rfl
    · obtain ⟨id, hid⟩ := hpeer
      exact userById_of_active hid
    · exact userById_of_active hsender
  refine Total.bind (alone_query h₁ ?_)
  have hne : (Db.activeDevices other_user_id (id db)).isEmpty = false := by
    obtain ⟨id, hid⟩ := hpeer
    obtain ⟨d, hd, -⟩ := active_iff.mp hid
    cases hlist : Db.activeDevices other_user_id db with
    | nil =>
        rw [hlist] at hd
        cases hd
    | cons d' rest =>
        exact congrArg List.isEmpty hlist
  rw [hne]
  dsimp only [Bool.false_eq_true, if_false]
  refine Total.bind (alone_query h₁ ?_)
  have hany : ((Db.activeDevices principal.user_id (id db)).any fun d =>
      decide (d.id = principal.device_id)) = true := by
    obtain ⟨d, hd, hid⟩ := active_iff.mp hsender
    exact List.any_eq_true.mpr ⟨d, hd, by simp [hid]⟩
  rw [hany]
  have hids : ((destinations principal other_user_id db).map fun d => (d.id, d.user_id)).map (·.1) =
      (destinations principal other_user_id db).map (·.id) := by
    rw [List.map_map]
    rfl
  split
  · rename_i hfalse
    simp at hfalse
  split
  · rename_i hdiff
    refine .throw (hchanged (fun hsame => ?_) w₁ h₁)
    have hsame' := sameSet_iff.mpr hsame
    rw [← hids] at hsame'
    rw [Bool.not_eq_true'] at hdiff
    exact Bool.noConfusion (hsame'.symm.trans hdiff)
  rename_i hsame
  have hsame' : sameSet supplied ((destinations principal other_user_id db).map (·.id)) = true := by
    rw [← hids]
    rw [Bool.not_eq_true', Bool.not_eq_false] at hsame
    exact hsame
  refine Total.bind (alone_lock_mailboxes h₁ _ fun w₂ h₂ hu₂ => ?_)
  split
  · rename_i hlost
    exfalso
    have hall := sameSet_iff.mpr (mailboxesOf_destinations hw principal other_user_id)
    rw [← hids] at hall
    rw [Bool.not_eq_true'] at hlost
    exact Bool.noConfusion (hall.symm.trans hlost)
  · have hQ := hok (sameSet_iff.mp hsame') w₂ h₂ (hu₂.trans hu₁)
    rw [← hids] at hQ
    exact .ret hQ

theorem lookup_of_mem {users : List (UUID × UUID)} {id : UUID} (h : id ∈ users.map (·.1)) :
    ∃ user_id, users.lookup id = some user_id := by
  obtain ⟨x, hx, hid⟩ := List.mem_map.mp h
  have hsome : (users.lookup id).isSome = true :=
    List.lookup_isSome_iff.mpr ⟨x, hx, beq_iff_eq.mpr hid.symm⟩
  exact Option.isSome_iff_exists.mp hsome

/-- `_create_envelopes`, with fresh identifiers. -/
theorem alone_create_envelopes {message : Message} {supplied : List Supplied}
    {users : List (UUID × UUID)} {Z : PyError → World → Prop} (mailboxes : List DeviceMailbox) :
    ∀ {w : World} {Q : List Envelope → World → Prop}, Calm t db past id w →
      (∀ b ∈ mailboxes, b.device_id ∈ supplied.map (·.request.recipient_device_id)) →
      (∀ b ∈ mailboxes, b.device_id ∈ users.map (·.1)) →
      (∀ envelopes w', Calm t db past id w' →
        List.Forall₂ (Created message users) mailboxes envelopes →
        (envelopes.map (·.id)).Nodup →
        (∀ x ∈ envelopes.map (·.id), x ∉ w.uuids ∧ x ∉ db.envelopes.map (·.id)) →
        Q envelopes w') →
      Alone sec t (create_envelopes message supplied users mailboxes) Q Z w := by
  induction mailboxes with
  | nil =>
      intro w Q h _ _ hQ
      exact .ret (hQ [] w h .nil List.nodup_nil fun x hx => by cases hx)
  | cons b mailboxes ih =>
      intro w Q h hsupplied husers hQ
      obtain ⟨user_id, hu⟩ := lookup_of_mem (husers b List.mem_cons_self)
      obtain ⟨s, hs⟩ : ∃ s, supplied.find? (fun s =>
          decide (s.request.recipient_device_id = b.device_id)) = some s := by
        obtain ⟨s₀, hs₀, hid⟩ := List.mem_map.mp (hsupplied b List.mem_cons_self)
        rw [← Option.isSome_iff_exists, List.find?_isSome]
        exact ⟨s₀, hs₀, by simp [hid]⟩
      unfold create_envelopes
      rw [hs, hu]
      refine Total.bind (alone_uuid4 h fun x w₁ h₁ hnew _ he hw₁ => ?_)
      refine Total.bind (ih h₁ (fun b' hb' => hsupplied b' (List.mem_cons_of_mem _ hb'))
        (fun b' hb' => husers b' (List.mem_cons_of_mem _ hb')) fun envelopes w₂ h₂
          hall hnd hfresh => ?_)
      refine .ret (hQ _ w₂ h₂ (.cons ⟨rfl, rfl, ?_, rfl, rfl, rfl, rfl⟩ hall) ?_ fun y hy => ?_)
      · obtain ⟨l₁, l₂, heq, -⟩ := List.lookup_eq_some_iff.mp hu
        rw [heq]
        simp [newEnvelope]
      · refine List.nodup_cons.mpr ⟨fun hmem => ?_, hnd⟩
        have := (hfresh x hmem).1
        rw [hw₁] at this
        exact this List.mem_cons_self
      · rcases List.mem_cons.mp hy with rfl | hy
        · exact ⟨hnew, he⟩
        · obtain ⟨hy₁, hy₂⟩ := hfresh y hy
          rw [hw₁] at hy₁
          exact ⟨fun hmem => hy₁ (List.mem_cons_of_mem _ hmem), hy₂⟩

theorem nodup_map_append {β : Type} {l l' : List α} {key : α → β} (h : (l.map key).Nodup)
    (h' : (l'.map key).Nodup) (hnew : ∀ a ∈ l', key a ∉ l.map key) :
    ((l ++ l').map key).Nodup := by
  rw [List.map_append, List.nodup_append]
  refine ⟨h, h', fun x hx y hy hxy => ?_⟩
  obtain ⟨a, ha, rfl⟩ := List.mem_map.mp hy
  exact hnew a ha (hxy ▸ hx)

theorem nodup_map_snoc {β : Type} {l : List α} {a : α} {key : α → β} (h : (l.map key).Nodup)
    (hnew : key a ∉ l.map key) : ((l ++ [a]).map key).Nodup :=
  nodup_map_append h (List.nodup_singleton _) fun b hb => by
    rw [List.mem_singleton.mp hb]
    exact hnew

/-- A key that determines another key. -/
theorem nodup_map_of_map {β γ : Type} {l : List α} {key : α → β} {g : β → γ}
    (h : (l.map fun a => g (key a)).Nodup) : (l.map key).Nodup := by
  have hmap : (l.map fun a => g (key a)) = (l.map key).map g := by
    rw [List.map_map]
    rfl
  rw [hmap] at h
  exact h.of_map g

/-- A new message with fresh identifiers violates no key. -/
theorem uniqueKeys_store (hw : Wf db) {principal : Principal} {request : SendMessageRequest}
    (a : Accepted principal request db)
    (hnew : db.messageByClientId principal.device_id request.client_message_id = none)
    (hid : a.message.id ∉ db.messages.map (·.id))
    (hnodup : (a.envelopes.map (·.id)).Nodup)
    (hfresh : ∀ x ∈ a.envelopes.map (·.id), x ∉ db.envelopes.map (·.id)) :
    a.store.uniqueKeys := by
  have hmessage : a.message.id ∉ db.envelopes.map (·.message_id) := by
    intro hmem
    obtain ⟨e, he, heq⟩ := List.mem_map.mp hmem
    exact hid (heq ▸ hw.envelope_message e he)
  have hchatSeq : (a.message.chat_id, a.message.chat_seq) ∉
      db.messages.map fun m => (m.chat_id, m.chat_seq) := by
    intro hmem
    obtain ⟨m, hm, heq⟩ := List.mem_map.mp hmem
    simp only [Prod.mk.injEq] at heq
    have hcount := hw.chat_seqs a.chat (row_mem a.chat_row)
    have hseq : m.chat_seq ∈ chatSeqs a.chat.id db :=
      List.mem_map_of_mem (List.mem_filter.mpr ⟨hm, by simp [heq.1, a.message_chat]⟩)
    have := (hcount.mem _).mp hseq
    rw [heq.2, a.message_seq] at this
    omega
  have hmailboxSeq : ∀ e ∈ a.envelopes, (e.recipient_device_id, e.mailbox_seq) ∉
      db.envelopes.map fun e => (e.recipient_device_id, e.mailbox_seq) := by
    intro e he hmem
    obtain ⟨e₀, he₀, heq⟩ := List.mem_map.mp hmem
    simp only [Prod.mk.injEq] at heq
    obtain ⟨b, hb, hc⟩ := created_of_mem a.created he
    have hcount := hw.mailbox_seqs b (row_mem (a.mailbox_rows b hb))
    have hseq : e₀.mailbox_seq ∈ mailboxSeqs b.device_id db :=
      List.mem_map_of_mem (List.mem_filter.mpr ⟨he₀, by simp [heq.1, hc.device]⟩)
    have := (hcount.mem _).mp hseq
    rw [heq.2, hc.seq] at this
    omega
  have hdevices : (a.envelopes.map (·.recipient_device_id)).Nodup := by
    rw [created_devices a.created]
    exact a.mailboxes_nodup
  have hsender : (a.message.sender_device_id, a.message.client_message_id) ∉
      db.messages.map fun m => (m.sender_device_id, m.client_message_id) := by
    intro hmem
    obtain ⟨m, hm, heq⟩ := List.mem_map.mp hmem
    obtain ⟨id, now, hma⟩ := a.message_eq
    rw [hma] at heq
    simp only [Prod.mk.injEq, newMessage] at heq
    have := List.find?_eq_none.mp hnew m hm
    simp [heq.1, heq.2] at this
  have hu := hw.unique
  unfold Db.uniqueKeys at hu ⊢
  obtain ⟨u₁, u₂, u₃, u₄, u₅, u₆, u₇, u₈, u₉, u₁₀, u₁₁, u₁₂, u₁₃, u₁₄, u₁₅⟩ := hu
  rw [store_mailboxes, store_chats, store_messages, store_envelopes,
    map_key_map (bumpMailbox_id a.mailboxes), map_key_map (bumpChat_id a.chat)]
  refine ⟨u₁, u₂, u₃, u₄, u₅, u₆, ?_, ?_, ?_, ?_, ?_, ?_, u₁₃, u₁₄, u₁₅⟩
  · exact nodup_map_snoc u₇ hid
  · exact nodup_map_snoc u₈ hchatSeq
  · exact nodup_map_snoc u₉ hsender
  · exact nodup_map_append u₁₀ hnodup fun e he => hfresh e.id (List.mem_map_of_mem he)
  · refine nodup_map_append u₁₁ (nodup_map_of_map (g := Prod.snd) hdevices) fun e he hmem => ?_
    obtain ⟨b, -, hc⟩ := created_of_mem a.created he
    obtain ⟨e₀, he₀, heq⟩ := List.mem_map.mp hmem
    simp only [Prod.mk.injEq] at heq
    exact hmessage (List.mem_map.mpr ⟨e₀, he₀, heq.1.trans hc.message_id⟩)
  · exact nodup_map_append u₁₂ (nodup_map_of_map (g := Prod.fst) hdevices) hmailboxSeq

theorem chatFor_of_otherUserId {user_id chat_id other_user_id : UUID}
    (h : db.otherUserId user_id chat_id = some other_user_id) :
    ∃ chat, db.chatFor user_id chat_id = some chat := by
  obtain ⟨pair, hpair, -⟩ := Option.map_eq_some_iff.mp h
  have hkey := List.find?_some hpair
  simp only [Bool.and_eq_true, decide_eq_true_eq] at hkey
  obtain ⟨⟨hid, hmember⟩, hany⟩ := hkey
  obtain ⟨c, hc, hck⟩ := List.any_eq_true.mp hany
  simp only [decide_eq_true_eq] at hck
  rw [← Option.isSome_iff_exists]
  unfold Db.chatFor
  rw [List.find?_isSome]
  refine ⟨c, hc, ?_⟩
  simp only [Bool.and_eq_true, decide_eq_true_eq, List.any_eq_true]
  exact ⟨hck, pair, List.mem_of_find?_eq_some hpair, hid.trans hck.1.symm, hmember⟩

/-- What a send stores on a fixed state. -/
def acceptedAt (hw : Wf db) {principal : Principal} {request : SendMessageRequest}
    {other_user_id : UUID} {chat : Chat} {id : UUID} {now : Instant} {envelopes : List Envelope}
    (hother : db.otherUserId principal.user_id request.chat_id = some other_user_id)
    (hchat : db.chatFor principal.user_id request.chat_id = some chat)
    (hsender : Active db principal.user_id principal.device_id)
    (hpeer : ∃ id, Active db other_user_id id)
    (hcreated : List.Forall₂ (Created (newMessage id principal request chat now)
      ((destinations principal other_user_id db).map fun d => (d.id, d.user_id)))
      (db.mailboxesOf ((destinations principal other_user_id db).map (·.id))) envelopes) :
    Accepted principal request db where
  other_user_id := other_user_id
  chat := chat
  mailboxes := db.mailboxesOf ((destinations principal other_user_id db).map (·.id))
  device_users := (destinations principal other_user_id db).map fun d => (d.id, d.user_id)
  message := newMessage id principal request chat now
  envelopes := envelopes
  other := hother
  chat_row := chatFor_row hw.unique hchat
  sender_active := hsender
  peer_active := hpeer
  recipients := by
    intro id user_id
    refine mem_recipients.trans (and_congr_right fun _ => ?_)
    constructor
    · rintro (⟨rfl, ha⟩ | ⟨rfl, ha⟩)
      · exact ⟨Or.inl rfl, ha⟩
      · exact ⟨Or.inr rfl, ha⟩
    · rintro ⟨rfl | rfl, ha⟩
      · exact Or.inl ⟨rfl, ha⟩
      · exact Or.inr ⟨rfl, ha⟩
  mailbox_rows := fun b hb => row_of_mem hw.unique.mailboxes (mem_mailboxesOf.mp hb).1
  mailboxes_nodup := nodup_mailboxesOf hw.unique _
  mailbox_ids := by
    intro id
    rw [mailboxesOf_destinations hw, List.map_map]
    rfl
  created := hcreated
  message_eq := ⟨id, now, rfl⟩

/-- `send` on a fixed state: accepted with the right devices, refused with any
others. -/
theorem alone_send (h : Calm t db past id w) (hw : Wf db) {principal : Principal}
    {request : SendMessageRequest} {other_user_id : UUID} {supplied : List Supplied}
    (hother : db.otherUserId principal.user_id request.chat_id = some other_user_id)
    (hvalid : validate_envelopes [] request.envelopes = .ok supplied)
    (hnew : db.messageByClientId principal.device_id request.client_message_id = none)
    (hsender : Active db principal.user_id principal.device_id)
    (hpeer : ∃ id, Active db other_user_id id)
    {Q : StoredMessage → World → Prop} {Z : PyError → World → Prop}
    (hok : (∀ id, id ∈ supplied.map (·.request.recipient_device_id) ↔
        id ∈ (destinations principal other_user_id db).map (·.id)) →
      ∀ (a : Accepted principal request db) w', a.store.uniqueKeys → w'.db = a.store →
      w'.history = ⟨t, db, a.store⟩ :: past → Q ⟨a.message, a.envelopes⟩ w')
    (hchanged : (¬∀ id, id ∈ supplied.map (·.request.recipient_device_id) ↔
        id ∈ (destinations principal other_user_id db).map (·.id)) →
      ∀ w', w'.db = db → Z .deliveryTargetsChanged w') :
    Alone sec t (send principal request) Q Z w := by
  obtain ⟨chat, hchat⟩ := chatFor_of_otherUserId hother
  unfold send
  refine Total.bind ?_
  unfold lookup
  refine Total.bind (alone_get_message_by_client_id h hnew ?_)
  refine .ret ?_
  refine Total.bind (alone_query h ?_)
  have hother' : Db.otherUserId principal.user_id request.chat_id (id db) =
      some other_user_id := hother
  rw [hother', hvalid]
  refine Total.bind (.ret ?_)
  refine Total.bind (alone_selectLocked h hchat fun w₁ h₁ _ => ?_)
  unfold sendLocked
  refine Total.bind (alone_get_message_by_client_id h₁ hnew ?_)
  refine Total.bind (alone_lock_destination_mailboxes h₁ hw hsender hpeer
    (fun hsame w₂ h₂ _ => ?_) fun hdiff w₂ h₂ => hchanged hdiff w₂ h₂.db)
  refine Total.bind (alone_now fun now => ?_)
  refine Total.bind (alone_uuid4 h₂ fun x w₃ h₃ _ hmid _ _ => ?_)
  refine Total.bind (alone_create_envelopes _ h₃ ?_ ?_
    fun envelopes w₄ h₄ hcreated hnodup hfresh => ?_)
  · intro b hb
    exact (hsame _).mpr (mem_mailboxesOf.mp hb).2
  · intro b hb
    rw [List.map_map]
    exact (mem_mailboxesOf.mp hb).2
  · obtain ⟨a, ha⟩ : ∃ a, a = acceptedAt hw hother hchat hsender hpeer hcreated := ⟨_, rfl⟩
    have hm : newMessage x principal request chat now = a.message := by rw [ha]; rfl
    have he : envelopes = a.envelopes := by rw [ha]; rfl
    have hu : a.store.uniqueKeys := by
      refine uniqueKeys_store hw a hnew ?_ ?_ ?_
      · rw [← hm]
        exact hmid
      · rw [← he]
        exact hnodup
      · rw [← he]
        exact fun y hy => (hfresh y hy).2
    have hs : storeMessage chat (newMessage x principal request chat now)
        (db.mailboxesOf ((destinations principal other_user_id db).map (·.id))) envelopes db =
        a.store := by rw [ha]; rfl
    have hu' : (storeMessage chat (newMessage x principal request chat now)
        (db.mailboxesOf ((destinations principal other_user_id db).map (·.id))) envelopes
        (id db)).uniqueKeys := by
      show Db.uniqueKeys (storeMessage _ _ _ _ db)
      rw [hs]
      exact hu
    unfold storeAndPublish
    refine Total.bind (alone_write h₄ fun w₅ h₅ => ?_)
    refine Total.bind (Total.attempt (alone_commit (Z := fun _ _ => False) h₅ hu'
      fun w₆ h₆ => ?_) (fun a s' h => h) fun x s' h => h.elim)
    refine Total.bind (alone_publishAll _ h₆ fun w₇ h₇ => .ret ?_)
    rw [hm, he]
    refine hok hsame a w₇ hu (h₇.db.trans hs) ?_
    rw [h₇.history]
    show ⟨t, db, storeMessage _ _ _ _ db⟩ :: past = _
    rw [hs]

/-! ## Presenting a token that was rotated out -/

theorem alone_selectLocked_none (h : Calm t db past id w) {key : α → Resource} {mode : LockMode}
    {g : Db → Option α} (ha : g db = none) {Q : Option α → World → Prop}
    {Z : PyError → World → Prop} (hQ : Q none w) :
    Alone sec t (selectLocked key mode g) Q Z w := by
  unfold selectLocked
  refine Total.bind (alone_query h ?_)
  have ha' : g (id db) = none := ha
  rw [ha']
  exact .ret hQ

/-- `logout` with a token that is no longer current. -/
theorem alone_logout_consumed (h : Calm t db past id w) (hu : db.uniqueKeys) {token : String}
    {auth_session : AuthSession} (hcurrent : db.sessionByHash (sec.hash_refresh_token token) = none)
    (hold : db.sessionByConsumed (sec.hash_refresh_token token) = some auth_session)
    {Q : Unit → World → Prop} {Z : PyError → World → Prop} (hQ : ∀ w', Q () w') :
    Alone sec t (logout sec token) Q Z w := by
  unfold logout
  refine Total.bind (alone_selectLocked_none h hcurrent ?_)
  refine Total.bind (alone_selectLocked h hold fun w₁ h₁ _ => ?_)
  unfold logoutSession
  dsimp only
  split
  · refine Total.bind (alone_now fun now => ?_)
    refine Total.bind (alone_write h₁ fun w₂ h₂ => ?_)
    exact alone_commit h₂ (uniqueKeys_revokeSession hu auth_session.id now) fun w₃ _ => hQ w₃
  · exact alone_commit h₁ hu fun w₂ _ => hQ w₂

end Calls

/-! ## Whole requests -/

section Requests

variable {sec : Security} {t : Tid} {w : World} {op : Op}

theorem alone_rollback {Q : Unit → World → Prop} {Z : PyError → World → Prop}
    (hQ : Q () (w.close t)) : Alone sec t rollback Q Z w := by
  refine .eff (fun w₁ hr => ⟨(), _, rfl, trivial⟩) (fun w₁ a w₂ hr hx => ?_)
  subst hr
  obtain ⟨hx, -⟩ := hx
  have hx : w₂ = w.close t := hx
  subst hx
  exact .ret hQ

theorem alone_finish {o : Except PyError Result} {Q : Unit → World → Prop}
    {Z : PyError → World → Prop}
    (hQ : Q () { w with outcome := Function.update w.outcome t (some o) }) :
    Alone sec t (.eff (.finish o) fun _ => .ret ()) Q Z w := by
  refine .eff (fun w₁ hr => ⟨(), _, rfl, trivial⟩) (fun w₁ a w₂ hr hx => ?_)
  subst hr
  obtain ⟨hx, -⟩ := hx
  have hx : w₂ = { w with outcome := Function.update w.outcome t (some o) } := hx
  subst hx
  exact .ret hQ

/-- A request that is left alone records how its service function has ended. -/
theorem alone_prog {Q : Result → World → Prop} {Z : PyError → World → Prop}
    (h : Alone sec t (op.body sec) Q Z w) :
    Alone sec t (op.prog sec)
      (fun _ w' => ∃ o w₁, w'.outcome t = some o ∧ w'.db = w₁.db ∧ w'.history = w₁.history ∧
        (match o with
          | .ok r => Q r w₁
          | .error x => Z x w₁))
      (fun _ _ => False) w := by
  unfold Op.prog
  refine Total.bind (Total.attempt (Q := fun o w₁ => Alone sec t _ _ _ w₁) h
    (fun r w₁ hr => ?_) fun x w₁ hx => ?_)
  · refine Total.bind (alone_rollback ?_)
    exact alone_finish ⟨.ok r, w₁, by simp, rfl, rfl, hr⟩
  · refine Total.bind (alone_rollback ?_)
    exact alone_finish ⟨.error x, w₁, by simp, rfl, rfl, hx⟩

/-- A request that is left alone on a fresh server comes to its end. -/
theorem request_runs (hinit : World.Initial sec w)
    {Q : Result → World → Prop} {Z : PyError → World → Prop}
    (h : Alone sec t (op.body sec) Q Z (w.arrive t op)) :
    ∃ p, System.Reaches (serverSystem sec) (System.idle w) p ∧
      p.shared.op t = some op ∧ p.shared.began t = w.db ∧
      ∃ o w₁, p.shared.outcome t = some o ∧ p.shared.db = w₁.db ∧
        p.shared.history = w₁.history ∧
        (match o with
          | .ok r => Q r w₁
          | .error x => Z x w₁) := by
  obtain ⟨p₀, hp₀⟩ : ∃ p₀ : Pool Sql Sql.Answer PyError World, p₀ = ⟨w.arrive t op,
      Function.update (System.idle w).threads t (some (op.prog sec))⟩ := ⟨_, rfl⟩
  have hstart : System.Reaches (serverSystem sec) (System.idle w) p₀ := by
    rw [hp₀]
    exact .single ⟨.start t op, .start rfl rfl⟩
  have hop : p₀.shared.op t = some op := by simp [hp₀, World.arrive]
  have hbegan : p₀.shared.began t = w.db := by simp [hp₀, World.arrive]
  have hthread : p₀.threads t = some (op.prog sec) := by simp [hp₀]
  have htotal := alone_prog h
  rw [show w.arrive t op = p₀.shared by rw [hp₀]] at htotal
  have hexec : ∀ {c w a w'}, quiet sec t c w a w' → (serverSystem sec).exec t c w a w' :=
    fun hx => hx.1
  obtain ⟨p, hreach, hend⟩ := Total.completes hexec (fun _ => rfl) hthread htotal
  obtain ⟨hop', hbegan'⟩ := (reaches_grows ⟨w, hinit, hstart⟩ hreach).started t op hop
  refine ⟨p, Relation.ReflTransGen.trans hstart hreach, hop', hbegan'.trans hbegan, ?_⟩
  rcases hend with ⟨-, hQ⟩ | ⟨x, -, hZ⟩
  · exact hQ
  · exact hZ.elim

/-- A fresh server is calm. -/
theorem World.Initial.calm (hinit : World.Initial sec w) :
    Calm t w.db [] id (w.arrive t op) :=
  ⟨rfl, hinit.history, (hinit.idle t).pending, fun u _ r => congrFun (hinit.idle u).held r⟩

/-- A valid send to the right devices is answered on a fresh server. -/
theorem send_runs (hinit : World.Initial sec w) {principal : Principal}
    {request : SendMessageRequest} {other_user_id : UUID} {supplied : List Supplied}
    (hother : w.db.otherUserId principal.user_id request.chat_id = some other_user_id)
    (hvalid : validate_envelopes [] request.envelopes = .ok supplied)
    (hnew : w.db.messageByClientId principal.device_id request.client_message_id = none)
    (hsender : Active w.db principal.user_id principal.device_id)
    (hpeer : ∃ id, Active w.db other_user_id id)
    (hsame : ∀ id, id ∈ supplied.map (·.request.recipient_device_id) ↔
      id ∈ (destinations principal other_user_id w.db).map (·.id)) :
    ∃ p, System.Reaches (serverSystem sec) (System.idle w) p ∧
      p.shared.op t = some (.send principal request) ∧
      ∃ a : Accepted principal request w.db, p.shared.db = a.store ∧
        p.shared.outcome t = some (.ok (.stored ⟨a.message, a.envelopes⟩)) ∧
        p.shared.history = [⟨t, w.db, a.store⟩] := by
  have hrun : Alone sec t (Op.body sec (.send principal request))
      (fun r w' => ∃ a : Accepted principal request w.db,
        r = .stored ⟨a.message, a.envelopes⟩ ∧ w'.db = a.store ∧
          w'.history = [⟨t, w.db, a.store⟩])
      (fun _ _ => False) (w.arrive t (.send principal request)) :=
    Total.bind (alone_send hinit.calm hinit.wf hother hvalid hnew hsender hpeer
      (fun _ a w' _ hdb hhist => .ret ⟨a, rfl, hdb, hhist⟩)
      fun hdiff _ _ => absurd hsame hdiff)
  obtain ⟨p, hp, hop, -, o, w₁, hout, hdb, hhist, hend⟩ := request_runs hinit hrun
  refine ⟨p, hp, hop, ?_⟩
  cases o with
  | error x =>
      exact hend.elim
  | ok r =>
      obtain ⟨a, rfl, hdb', hhist'⟩ := hend
      exact ⟨a, hdb.trans hdb', hout, hhist.trans hhist'⟩

/-- A logout with a token that was rotated out ends on a fresh server. -/
theorem logout_runs (hinit : World.Initial sec w) {token : String} {auth_session : AuthSession}
    (hcurrent : w.db.sessionByHash (sec.hash_refresh_token token) = none)
    (hold : w.db.sessionByConsumed (sec.hash_refresh_token token) = some auth_session) :
    ∃ p, System.Reaches (serverSystem sec) (System.idle w) p ∧
      p.shared.op t = some (.logout token) ∧ p.shared.began t = w.db ∧
      p.shared.outcome t = some (.ok .done) := by
  have hrun : Alone sec t (Op.body sec (.logout token)) (fun r _ => r = .done)
      (fun _ _ => False) (w.arrive t (.logout token)) :=
    Total.bind (alone_logout_consumed hinit.calm hinit.wf.unique hcurrent hold
      fun _ => .ret rfl)
  obtain ⟨p, hp, hop, hbegan, o, w₁, hout, -, -, hend⟩ := request_runs hinit hrun
  refine ⟨p, hp, hop, hbegan, ?_⟩
  cases o with
  | error x =>
      exact hend.elim
  | ok r =>
      obtain rfl : r = .done := hend
      exact hout

end Requests

/-! ## A small server

Alice and Bob have a chat and one device each; the session of Alice has
rotated its token once. -/

namespace Example

def plainSecurity : Security where
  hash_refresh_token := id
  verify_password := fun password hash => decide (password = hash)
  tokens := Set.univ
  refresh_token_ttl := 30 * 24 * 3600 * 1000000

def smallDb : Db where
  users := [⟨"alice", "alice", "secret", "active"⟩, ⟨"bob", "bob", "secret", "active"⟩]
  devices := [⟨"phone-a", "alice", "phone", 0, 0, none⟩, ⟨"phone-b", "bob", "phone", 0, 0, none⟩]
  mailboxes := [⟨"phone-a", 0⟩, ⟨"phone-b", 0⟩]
  chats := [⟨"chat", 0, "DIRECT"⟩]
  pairs := [⟨"chat", "alice", "bob"⟩]
  sessions := [⟨"session-a", "phone-a", "token-2", true, 0, 1000, none⟩]
  tokenHistory := [⟨"token-1", "session-a", 0⟩]
  members := [⟨"chat", "alice"⟩, ⟨"chat", "bob"⟩]

def smallWorld : World where
  db := smallDb
  held := fun _ _ => none
  pending := fun _ => id
  history := []
  op := fun _ => none
  began := fun _ => smallDb
  outcome := fun _ => none
  published := fun _ => []
  issued := ["token-2", "token-1"]
  drawn := fun _ => []
  uuids := []

def alice : Principal := ⟨"alice", "phone-a", "session-a"⟩

def hello : SendMessageRequest := ⟨"chat", "message-1", [⟨"phone-b", 0, "PLAINTEXT", "aGVsbG8="⟩]⟩

theorem plainSecurity_distinct : plainSecurity.Distinct :=
  fun _ _ _ _ h => h

theorem smallDb_wf : Wf smallDb := by
  constructor <;> decide

theorem smallWorld_initial : World.Initial plainSecurity smallWorld where
  wf := smallDb_wf
  rotation := fun _ => by
    unfold Rotation
    decide
  known := by
    rintro h (⟨s, hs, rfl⟩ | ⟨x, hx, rfl⟩)
    · rw [List.mem_singleton.mp hs]
      exact ⟨"token-2", by simp [smallWorld], rfl⟩
    · rw [List.mem_singleton.mp hx]
      exact ⟨"token-1", by simp [smallWorld], rfl⟩
  issued := fun _ _ => trivial
  history := rfl
  idle := fun _ => ⟨rfl, rfl, rfl, rfl, rfl, rfl, rfl⟩

/-- Alice says hello. -/
theorem hello_reaches : ∃ p, System.Reaches (serverSystem plainSecurity)
    (System.idle smallWorld) p ∧ p.shared.op 0 = some (.send alice hello) ∧
      ∃ a : Accepted alice hello smallDb, p.shared.db = a.store ∧
        p.shared.outcome 0 = some (.ok (.stored ⟨a.message, a.envelopes⟩)) ∧
        p.shared.history = [⟨0, smallDb, a.store⟩] := by
  have hdest : (destinations alice "bob" smallDb).map (·.id) = ["phone-b"] := by decide
  have hother : smallWorld.db.otherUserId alice.user_id hello.chat_id = some "bob" := by
    decide
  have hvalid : validate_envelopes [] hello.envelopes = .ok
      [⟨⟨"phone-b", 0, "PLAINTEXT", "aGVsbG8="⟩, [104, 101, 108, 108, 111]⟩] := by
    decide
  refine send_runs smallWorld_initial hother hvalid ?_ ?_ ?_ ?_
  · decide
  · decide
  · exact ⟨"phone-b", by decide⟩
  · intro id
    show _ ↔ id ∈ (destinations alice "bob" smallDb).map (·.id)
    rw [hdest]
    simp

theorem hello_runs : ∃ p, System.Reachable (serverSystem plainSecurity)
    (World.Initial plainSecurity) p ∧ p.shared.op 0 = some (.send alice hello) ∧
      ∃ a : Accepted alice hello smallDb, p.shared.db = a.store ∧
        p.shared.outcome 0 = some (.ok (.stored ⟨a.message, a.envelopes⟩)) ∧
        p.shared.history = [⟨0, smallDb, a.store⟩] := by
  obtain ⟨p, hp, hrest⟩ := hello_reaches
  exact ⟨p, ⟨smallWorld, smallWorld_initial, hp⟩, hrest⟩

end Example

end Server
end SecureMessenger

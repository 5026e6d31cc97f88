import SecureMessenger.Client.DeviceIdentity
import SecureMessenger.Lib.Discipline

/-!
# Tabs agree on one device identity

Every write expects the generation that was stored in the beginning, so only
one is committed.  A call that comes too late returns the identity that was.
-/

namespace SecureMessenger
namespace Client
namespace Device

open Lib

/-! ## What is written is valid -/

theorem browserDeviceDescription_mem (userAgent : String) :
    browserDeviceDescription userAgent ∈
      (["Windows", "Android", "iOS", "macOS", "Linux", "Unknown device"].flatMap fun os =>
        ["Edge", "Firefox", "Chrome", "Safari", "Browser"].map fun name =>
          os ++ " · " ++ name) := by
  have hos : operatingSystem userAgent ∈
      ["Windows", "Android", "iOS", "macOS", "Linux", "Unknown device"] := by
    unfold operatingSystem
    split_ifs <;> simp
  have hname : browserName userAgent ∈ ["Edge", "Firefox", "Chrome", "Safari", "Browser"] := by
    unfold browserName
    split_ifs <;> simp
  exact List.mem_flatMap.mpr ⟨_, hos, List.mem_map.mpr ⟨_, hname, rfl⟩⟩

/-- A described device is a valid identity. -/
theorem isDeviceIdentity_described {id userAgent generation : String} (hid : isUuid id = true) :
    isDeviceIdentity ⟨id, browserDeviceDescription userAgent, generation⟩ = true := by
  have hnames : ∀ name ∈ (["Windows", "Android", "iOS", "macOS", "Linux", "Unknown device"].flatMap
      fun os => ["Edge", "Firefox", "Chrome", "Safari", "Browser"].map fun name =>
        os ++ " · " ++ name),
      (name.toList.any (fun c => !isSpace c) && decide (utf16Length name ≤ 100)) = true := by
    decide
  have hname := hnames _ (browserDeviceDescription_mem userAgent)
  unfold isDeviceIdentity
  rw [hid, Bool.true_and]
  exact hname

theorem ne_empty_of_isUuid {id : String} (h : isUuid id = true) : id ≠ "" := by
  rintro rfl
  revert h
  decide

/-- What has been written is read. -/
theorem identity_written {id userAgent generation : String} (hid : isUuid id = true)
    (hgeneration : isUuid generation = true) :
    identity { identity := some ⟨id, browserDeviceDescription userAgent, generation⟩ } =
      some ⟨id, browserDeviceDescription userAgent, generation⟩ := by
  have hne := ne_empty_of_isUuid hgeneration
  simp [identity, isDeviceIdentity_described hid, hne]

theorem isStored_identity (db : Database) : isStored (identity db) = identity db := by
  unfold isStored identity
  rw [Option.filter_filter]
  congr 1
  funext value
  cases isDeviceIdentity value <;> simp

/-! ## The discipline -/

/-- How a call settles: by an aborted transaction, or with the identity that
has been written. -/
def Settles (s : Tabs) (r : Except JsError DeviceIdentity) : Prop :=
  Aborted r ∨ ∃ d, s.written = [d] ∧ r = .ok ⟨d.id, d.name⟩

/-- The generation of an identity. -/
abbrev generationOf (d : Option DurableDeviceIdentity) : Option String :=
  d.map (·.generation)

/-- The invariant; `old` is the identity that was stored in the beginning, and
the tabs in `T` have observed it. -/
structure DeviceInv (T : Set TabId) (old : Option DurableDeviceIdentity) (s : Tabs) : Prop where
  outcome : (s.written = [] ∧ identity s.db = old) ∨
    ∃ d, s.written = [d] ∧ identity s.db = some d
  settled : ∀ r ∈ s.settled, Settles s r
  nodup : (s.drawn.map Prod.snd).Nodup
  known : ∀ d, old = some d → d.id ∈ s.known ∧ d.generation ∈ s.known
  unknown : ∀ id ∈ s.drawn.map Prod.snd, id ∉ s.known
  authors : ∀ d ∈ s.written, ∃ t, (t, d.id) ∈ s.drawn ∧ (t, d.generation) ∈ s.drawn
  waiting : ∀ tab ∈ T, tab ∉ s.called →
    s.pending tab = [] ∧ s.observedGeneration tab = generationOf old

/-- The operation of `t` has its turn in the tab. -/
def Holds (t : Tid) (tab : TabId) (s : Tabs) : Prop :=
  (s.pending tab).head? = some t

/-- An identity with this identifier has not been written. -/
def Unwritten (id : String) (s : Tabs) : Prop :=
  ∀ d ∈ s.written, d.id ≠ id

/-- What every step leaves alone. -/
structure DeviceGrows (s s' : Tabs) : Prop where
  written : ∀ d, s.written = [d] → s'.written = [d]
  called : ∀ tab ∈ s.called, tab ∈ s'.called

/-- What the steps of other threads leave alone. -/
structure DeviceOwn (t : Tid) (s s' : Tabs) : Prop where
  turn : ∀ tab, Holds t tab s →
    Holds t tab s' ∧ s'.observedGeneration tab = s.observedGeneration tab
  unwritten : ∀ id, (t, id) ∈ s.drawn → (t, id) ∈ s'.drawn ∧ (Unwritten id s → Unwritten id s')

/-- The discipline of the tabs. -/
def deviceDiscipline (T : Set TabId) (old : Option DurableDeviceIdentity) : Discipline Tabs where
  inv := DeviceInv T old
  grow := DeviceGrows
  own := DeviceOwn
  grow_refl _ := ⟨fun _ h => h, fun _ h => h⟩
  grow_trans h h' := ⟨fun d hd => h'.written d (h.written d hd),
    fun tab htab => h'.called tab (h.called tab htab)⟩
  own_refl _ _ := ⟨fun _ h => ⟨h, rfl⟩, fun _ h => ⟨h, fun hu => hu⟩⟩
  own_trans h h' :=
    { turn := fun tab hholds =>
        ⟨(h'.turn tab (h.turn tab hholds).1).1,
          (h'.turn tab (h.turn tab hholds).1).2.trans (h.turn tab hholds).2⟩
      unwritten := fun id hid =>
        ⟨(h'.unwritten id (h.unwritten id hid).1).1,
          fun hu => (h'.unwritten id (h.unwritten id hid).1).2 ((h.unwritten id hid).2 hu)⟩ }

section Steps

variable {T : Set TabId} {old : Option DurableDeviceIdentity} {t : Tid} {s s' : Tabs} {tab : TabId}

/-- An identifier has one drawer. -/
theorem DeviceInv.drawer_unique (h : DeviceInv T old s) {u : Tid} {id : String}
    (ht : (t, id) ∈ s.drawn) (hu : (u, id) ∈ s.drawn) : t = u :=
  congrArg Prod.fst (List.inj_on_of_nodup_map h.nodup ht hu rfl)

/-- What is written has a new generation and a new identifier. -/
theorem DeviceInv.new (h : DeviceInv T old s) {d d₀ : DurableDeviceIdentity}
    (hd : s.written = [d]) (hold : old = some d₀) :
    d.id ≠ d₀.id ∧ d.generation ≠ d₀.generation := by
  obtain ⟨t, hid, hgeneration⟩ := h.authors d (by rw [hd]; exact List.mem_singleton_self d)
  obtain ⟨hknown, hknown'⟩ := h.known d₀ hold
  constructor
  · intro heq
    exact h.unknown _ (List.mem_map_of_mem hid) (heq ▸ hknown)
  · intro heq
    exact h.unknown _ (List.mem_map_of_mem hgeneration) (heq ▸ hknown')

theorem Settles.grow {r : Except JsError DeviceIdentity} (h : Settles s r)
    (hgrow : ∀ d, s.written = [d] → s'.written = [d]) : Settles s' r := by
  rcases h with habort | ⟨d, hd, hr⟩
  · exact Or.inl habort
  · exact Or.inr ⟨d, hgrow d hd, hr⟩

/-- The field of a tab is set by the operation whose turn it is. -/
theorem keeps_observe (h : DeviceInv T old s) (hholds : Holds t tab s)
    (hcalled : tab ∈ s.called) (generation : Option String) :
    (deviceDiscipline T old).Keeps t s { s with
      observedGeneration := Function.update s.observedGeneration tab generation } where
  inv :=
    { h with
      waiting := by
        intro tab' htab' hnot
        have hne : tab' ≠ tab := by
          rintro rfl
          exact hnot hcalled
        obtain ⟨hpending, hobserved⟩ := h.waiting tab' htab' hnot
        exact ⟨hpending, (Function.update_of_ne hne ..).trans hobserved⟩ }
  grow := ⟨fun _ hd => hd, fun _ htab => htab⟩
  own u hu :=
    { turn := by
        intro tab' hholds'
        refine ⟨hholds', Function.update_of_ne ?_ ..⟩
        rintro rfl
        exact hu (Option.some.inj (hholds'.symm.trans hholds))
      unwritten := fun id hid => ⟨hid, fun hun => hun⟩ }

/-- An identifier is drawn. -/
theorem keeps_draw (h : DeviceInv T old s) {id : String} (hknown : id ∉ s.known)
    (hdrawn : id ∉ s.drawn.map Prod.snd) :
    (deviceDiscipline T old).Keeps t s { s with drawn := (t, id) :: s.drawn } where
  inv :=
    { h with
      nodup := List.nodup_cons.mpr ⟨hdrawn, h.nodup⟩
      unknown := by
        intro id' hid'
        rcases List.mem_cons.mp hid' with rfl | hid'
        · exact hknown
        · exact h.unknown id' hid'
      authors := by
        intro d hd
        obtain ⟨u, hid, hgeneration⟩ := h.authors d hd
        exact ⟨u, List.mem_cons_of_mem _ hid, List.mem_cons_of_mem _ hgeneration⟩ }
  grow := ⟨fun _ hd => hd, fun _ htab => htab⟩
  own u _ :=
    { turn := fun tab hholds => ⟨hholds, rfl⟩
      unwritten := fun id hid => ⟨List.mem_cons_of_mem _ hid, fun hun => hun⟩ }

/-- A new identifier has not been written. -/
theorem unwritten_of_fresh (h : DeviceInv T old s) {id : String}
    (hdrawn : id ∉ s.drawn.map Prod.snd) : Unwritten id s := by
  rintro d hd rfl
  obtain ⟨u, hid, -⟩ := h.authors d hd
  exact hdrawn (List.mem_map_of_mem hid)

/-- **The first write is committed.** -/
theorem keeps_write (h : DeviceInv T old s) {d : DurableDeviceIdentity} {db : Database}
    (hid : (t, d.id) ∈ s.drawn) (hgeneration : (t, d.generation) ∈ s.drawn)
    (hnone : s.written = []) (hstored : identity db = some d) :
    (deviceDiscipline T old).Keeps t s { s with db := db, written := d :: s.written } where
  inv :=
    { h with
      outcome := Or.inr ⟨d, by rw [hnone], hstored⟩
      settled := by
        intro r hr
        refine Settles.grow (h.settled r hr) fun d' hd' => ?_
        rw [hnone] at hd'
        cases hd'
      authors := by
        intro d' hd'
        rw [hnone] at hd'
        obtain rfl := List.mem_singleton.mp hd'
        exact ⟨t, hid, hgeneration⟩ }
  grow := by
    refine ⟨fun d' hd' => ?_, fun _ htab => htab⟩
    rw [hnone] at hd'
    cases hd'
  own u hu :=
    { turn := fun tab hholds => ⟨hholds, rfl⟩
      unwritten := by
        refine fun id hid' => ⟨hid', fun hun d' hd' => ?_⟩
        rcases List.mem_cons.mp hd' with rfl | hd'
        · rintro rfl
          exact hu (h.drawer_unique hid' hid)
        · exact hun d' hd' }

theorem head_erase {l : List Tid} {u : Tid} (h : l.head? = some u) (hne : u ≠ t) :
    (l.erase t).head? = some u := by
  cases l with
  | nil => cases h
  | cons v rest =>
      obtain rfl : v = u := Option.some.inj h
      rw [List.erase_cons_tail (by simpa using hne)]
      rfl

theorem keeps_settle (h : DeviceInv T old s) {r : Except JsError DeviceIdentity}
    (hr : Settles s r) (hcalled : tab ∈ s.called) :
    (deviceDiscipline T old).Keeps t s { s with
      pending := Function.update s.pending tab ((s.pending tab).erase t)
      settled := r :: s.settled } where
  inv :=
    { h with
      settled := by
        intro r' hr'
        rcases List.mem_cons.mp hr' with rfl | hr'
        · exact hr
        · exact h.settled r' hr'
      waiting := by
        intro tab' htab' hnot
        have hne : tab' ≠ tab := by
          rintro rfl
          exact hnot hcalled
        obtain ⟨hpending, hobserved⟩ := h.waiting tab' htab' hnot
        exact ⟨(Function.update_of_ne hne ..).trans hpending, hobserved⟩ }
  grow := ⟨fun _ hd => hd, fun _ htab => htab⟩
  own u hu :=
    { turn := by
        intro tab' hholds
        refine ⟨?_, rfl⟩
        by_cases heq : tab' = tab
        · subst heq
          show (Function.update s.pending tab' _ tab').head? = some u
          rw [Function.update_self]
          exact head_erase hholds hu
        · show (Function.update s.pending tab _ tab').head? = some u
          rw [Function.update_of_ne heq]
          exact hholds
      unwritten := fun id hid => ⟨hid, fun hun => hun⟩ }

/-- A call joins the chain of its tab. -/
theorem keeps_start (h : DeviceInv T old s) :
    (deviceDiscipline T old).Keeps t s { s with
      pending := Function.update s.pending tab (s.pending tab ++ [t])
      called := tab :: s.called } where
  inv :=
    { h with
      waiting := by
        intro tab' htab' hnot
        obtain ⟨hne, hnot⟩ := not_or.mp fun hor => hnot (List.mem_cons.mpr hor)
        obtain ⟨hpending, hobserved⟩ := h.waiting tab' htab' hnot
        exact ⟨(Function.update_of_ne hne ..).trans hpending, hobserved⟩ }
  grow := ⟨fun _ hd => hd, fun _ htab => List.mem_cons_of_mem _ htab⟩
  own u _ :=
    { turn := by
        intro tab' hholds
        refine ⟨?_, rfl⟩
        by_cases heq : tab' = tab
        · subst heq
          show (Function.update s.pending tab' _ tab').head? = some u
          rw [Function.update_self, List.head?_append, hholds]
          rfl
        · show (Function.update s.pending tab _ tab').head? = some u
          rw [Function.update_of_ne heq]
          exact hholds
      unwritten := fun id hid => ⟨hid, fun hun => hun⟩ }

/-! ## The operations -/

/-- An operation at work in its tab. -/
structure Working (t : Tid) (tab : TabId) (s : Tabs) : Prop where
  turn : Holds t tab s
  called : tab ∈ s.called

theorem Working.drift (h : Working t tab s) (hd : (deviceDiscipline T old).Drift t s s') :
    Working t tab s' ∧ s'.observedGeneration tab = s.observedGeneration tab :=
  ⟨⟨(hd.own.turn tab h.turn).1, hd.grow.called tab h.called⟩, (hd.own.turn tab h.turn).2⟩

/-- The error of an aborted transaction. -/
def AbortError (x : JsError) : Prop :=
  ∃ message, x = .error message

/-- What `read` returns, if it starts in `s` and ends in `s'`. -/
structure ReadFrom (old : Option DurableDeviceIdentity) (s : Tabs)
    (r : Option DurableDeviceIdentity) (s' : Tabs) : Prop where
  valid : isStored r = r
  written : ∀ d, s.written = [d] → r = some d ∧ s'.written = [d]
  source : r = old ∨ ∃ d, r = some d ∧ s'.written = [d]

/-- What is stored, in any state. -/
theorem DeviceInv.readFrom (h : DeviceInv T old s')
    (hgrow : ∀ d, s.written = [d] → s'.written = [d]) :
    ReadFrom old s (identity s'.db) s' where
  valid := isStored_identity _
  written := by
    intro d hd
    rcases h.outcome with ⟨hnone, -⟩ | ⟨d', hd', hstored⟩
    · rw [hgrow d hd] at hnone
      cases hnone
    · rw [hgrow d hd] at hd'
      cases hd'
      exact ⟨hstored, hgrow d hd⟩
  source := by
    rcases h.outcome with ⟨-, hstored⟩ | ⟨d, hd, hstored⟩
    · exact Or.inl hstored
    · exact Or.inr ⟨d, hstored, hd⟩

/-- A reading transaction. -/
theorem exec_read {r : Except JsError (Option DurableDeviceIdentity)} (h : exec t .read s r s') :
    s' = s ∧ (r = .ok (identity s.db) ∨ ∃ x, r = .error x ∧ AbortError x) := by
  obtain ⟨hread, rfl⟩ := h
  refine ⟨rfl, ?_⟩
  rcases hread with (⟨a, ha, rfl⟩ | ⟨x, hx, -⟩) | ⟨message, rfl⟩
  · cases ha
    exact Or.inl rfl
  · cases hx
  · exact Or.inr ⟨_, rfl, message, rfl⟩

/-- **`read` observes what it returns.** -/
theorem safe_read (h : Working t tab s) :
    (deviceDiscipline T old).Safe exec t (readIdentity tab)
      (fun r s' => Working t tab s' ∧ s'.observedGeneration tab = generationOf r ∧
        ReadFrom old s r s')
      (fun x _ => AbortError x) s := by
  intro s₁ hd r s₂ hx
  obtain ⟨rfl, hread⟩ := exec_read hx
  refine ⟨.refl hd.inv, ?_⟩
  rcases hread with rfl | ⟨x, rfl, habort⟩
  · have hfrom : ReadFrom old s (identity s₂.db) s₂ := hd.inv.readFrom hd.grow.written
    intro s₃ hd' _ s₄ hx'
    obtain rfl : s₄ = _ := hx'
    have hworking := (h.drift (hd.trans hd')).1
    refine ⟨keeps_observe hd'.inv hworking.turn hworking.called _, ⟨hworking.turn, hworking.called⟩,
      Function.update_self .., hfrom.valid, fun d hd₀ => ⟨(hfrom.written d hd₀).1,
        hd'.grow.written d (hfrom.written d hd₀).2⟩, ?_⟩
    rcases hfrom.source with hold | ⟨d, heq, hd''⟩
    · exact Or.inl hold
    · exact Or.inr ⟨d, heq, hd'.grow.written d hd''⟩
  · exact habort

/-- The device of an operation: its identifier is its own. -/
structure Described (t : Tid) (device : DeviceIdentity) (s : Tabs) : Prop where
  valid : ∃ userAgent, device.name = browserDeviceDescription userAgent
  uuid : isUuid device.id = true
  drawn : (t, device.id) ∈ s.drawn
  unwritten : Unwritten device.id s

theorem Described.drift {device : DeviceIdentity} (h : Described t device s)
    (hd : (deviceDiscipline T old).Drift t s s') : Described t device s' where
  valid := h.valid
  uuid := h.uuid
  drawn := (hd.own.unwritten _ h.drawn).1
  unwritten := (hd.own.unwritten _ h.drawn).2 h.unwritten

/-- The error of a write that comes too late. -/
def Late (t : Tid) (tab : TabId) (device : DeviceIdentity) (x : JsError) (s : Tabs) : Prop :=
  (∃ message, x = .client message .local_generation_changed) ∧ Working t tab s ∧
    ∃ d, s.written = [d] ∧ d.id ≠ device.id

/-- A writing transaction that expects the old generation. -/
theorem exec_write (h : DeviceInv T old s) {device : DeviceIdentity} {generation : String}
    {r : Except JsError Unit} (hdevice : Described t device s) (huuid : isUuid generation = true)
    (hdrawn : (t, generation) ∈ s.drawn)
    (hx : exec t (.write (generationOf old) generation device) s r s') :
    (r = .ok () ∧ (deviceDiscipline T old).Keeps t s s' ∧
      s'.written = [⟨device.id, device.name, generation⟩] ∧
      s'.pending = s.pending ∧ s'.called = s.called) ∨
    (s' = s ∧ ∃ x, r = .error x ∧ (AbortError x ∨
      (∃ message, x = .client message .local_generation_changed) ∧ ∃ d, s.written = [d])) := by
  obtain ⟨userAgent, hname⟩ := hdevice.valid
  obtain ⟨id, name⟩ := device
  obtain rfl : name = browserDeviceDescription userAgent := hname
  rcases hx with ⟨db', rfl, hruns, rfl⟩ | ⟨⟨x, rfl, hwrite⟩ | ⟨message, rfl⟩, rfl⟩
  · left
    have hok : write (generationOf old) generation ⟨id, browserDeviceDescription userAgent⟩ s.db =
        .ok ((), db') := by
      rcases hruns with ⟨a, ha, -⟩ | ⟨x, -, heq, -⟩
      · exact ha
      · cases heq
    unfold write at hok
    split_ifs at hok with hchanged
    push Not at hchanged
    simp only [Except.ok.injEq, Prod.mk.injEq, true_and] at hok
    subst hok
    have hnone : s.written = [] := by
      rcases h.outcome with ⟨hnone, -⟩ | ⟨d, hd, hstored⟩
      · exact hnone
      · -- the generation has changed
        rw [hstored] at hchanged
        cases hold : old with
        | none =>
            rw [hold] at hchanged
            cases hchanged
        | some d₀ =>
            rw [hold] at hchanged
            exact absurd (Option.some.inj hchanged) (h.new hd hold).2
    have hkeeps := keeps_write (d := ⟨id, browserDeviceDescription userAgent, generation⟩) h
      hdevice.drawn hdrawn hnone (identity_written hdevice.uuid huuid)
    exact ⟨rfl, hkeeps, by rw [hnone], rfl, rfl⟩
  · refine Or.inr ⟨rfl, x, rfl, Or.inr ?_⟩
    unfold write at hwrite
    split_ifs at hwrite with hchanged
    obtain rfl := Except.error.inj hwrite
    refine ⟨⟨_, rfl⟩, ?_⟩
    rcases h.outcome with ⟨-, hstored⟩ | ⟨d, hd, -⟩
    · exact absurd (congrArg generationOf hstored) hchanged
    · exact ⟨d, hd⟩
  · exact Or.inr ⟨rfl, _, rfl, Or.inl ⟨message, rfl⟩⟩

/-- **A write that expects the old generation is committed or too late.** -/
theorem safe_write {device : DeviceIdentity} (h : Working t tab s)
    (hobserved : s.observedGeneration tab = generationOf old) (hdevice : Described t device s) :
    (deviceDiscipline T old).Safe exec t (writeIdentity tab device)
      (fun _ s' => ∃ d, s'.written = [d] ∧ device = ⟨d.id, d.name⟩)
      (fun x s' => AbortError x ∨ Late t tab device x s') s := by
  intro s₁ hd₁ expected s₂ hx₁
  obtain ⟨hexpected, rfl⟩ := hx₁
  have h₁ := h.drift hd₁
  obtain rfl : expected = generationOf old := hexpected.trans (h₁.2.trans hobserved)
  refine ⟨.refl hd₁.inv, fun s₃ hd₃ (generation : String) s₄ hx₃ => ?_⟩
  obtain ⟨⟨huuid, hknown, hfresh⟩, rfl⟩ := hx₃
  have hdevice₃ := (hdevice.drift hd₁).drift hd₃
  have h₃ := (h₁.1.drift hd₃).1
  refine ⟨keeps_draw hd₃.inv hknown hfresh, fun s₅ hd₅ r s₆ hx₅ => ?_⟩
  have hdevice₄ : Described t device { s₃ with drawn := (t, generation) :: s₃.drawn } :=
    ⟨hdevice₃.valid, hdevice₃.uuid, List.mem_cons_of_mem _ hdevice₃.drawn, hdevice₃.unwritten⟩
  have h₄ : Working t tab { s₃ with drawn := (t, generation) :: s₃.drawn } := ⟨h₃.turn, h₃.called⟩
  have hdevice₅ := hdevice₄.drift hd₅
  have h₅ := (h₄.drift hd₅).1
  have hdrawn₅ : (t, generation) ∈ s₅.drawn :=
    (hd₅.own.unwritten generation List.mem_cons_self).1
  rcases exec_write hd₅.inv hdevice₅ huuid hdrawn₅ hx₅ with
    ⟨rfl, hkeeps, hwritten, hpending, hcalled⟩ | ⟨rfl, x, rfl, hx⟩
  · refine ⟨hkeeps, fun s₇ hd₇ _ s₈ hx₇ => ?_⟩
    obtain rfl : s₈ = _ := hx₇
    have h₆ : Working t tab s₆ := by
      constructor
      · unfold Holds
        rw [hpending]
        exact h₅.turn
      · rw [hcalled]
        exact h₅.called
    have h₇ := (h₆.drift hd₇).1
    exact ⟨keeps_observe hd₇.inv h₇.turn h₇.called _, _, hd₇.grow.written _ hwritten, rfl⟩
  · refine ⟨.refl hd₅.inv, ?_⟩
    rcases hx with habort | ⟨hchanged, d, hd⟩
    · exact Or.inl habort
    · exact Or.inr ⟨hchanged, h₅, d, hd,
        hdevice₅.unwritten d (by rw [hd]; exact List.mem_singleton_self d)⟩

/-- **A call that comes too late returns what has been written.** -/
theorem safe_adopt {device : DeviceIdentity} {x : JsError}
    (h : AbortError x ∨ Late t tab device x s) :
    (deviceDiscipline T old).Safe exec t (adopt tab device x)
      (fun r s' => ∃ d, s'.written = [d] ∧ r = ⟨d.id, d.name⟩) (fun x _ => AbortError x) s := by
  rcases h with ⟨message, rfl⟩ | ⟨⟨message, rfl⟩, hworking, d, hd, hne⟩
  · exact ⟨message, rfl⟩
  · refine Discipline.Safe.andThen (safe_read hworking) fun winner s' hq => ?_
    obtain ⟨-, -, hfrom⟩ := hq
    obtain ⟨hwinner, hd'⟩ := hfrom.written d hd
    rw [hfrom.valid, hwinner]
    dsimp only
    rw [if_pos hne]
    exact ⟨d, hd', rfl⟩

/-- **A call that creates a device returns what has been written.** -/
theorem safe_create (h : Working t tab s)
    (hobserved : s.observedGeneration tab = generationOf old) :
    (deviceDiscipline T old).Safe exec t (create tab)
      (fun r s' => ∃ d, s'.written = [d] ∧ r = ⟨d.id, d.name⟩) (fun x _ => AbortError x) s := by
  intro s₁ hd₁ (id : String) s₂ hx₁
  obtain ⟨⟨huuid, hknown, hfresh⟩, rfl⟩ := hx₁
  refine ⟨keeps_draw hd₁.inv hknown hfresh, fun s₃ hd₃ (userAgent : String) s₄ hx₃ => ?_⟩
  obtain rfl : s₄ = s₃ := hx₃
  refine ⟨.refl hd₃.inv, ?_⟩
  have h₁ := h.drift hd₁
  have h₂ : Working t tab { s₁ with drawn := (t, id) :: s₁.drawn } := ⟨h₁.1.turn, h₁.1.called⟩
  have h₃ := h₂.drift hd₃
  have hdevice : Described t ⟨id, browserDeviceDescription userAgent⟩
      { s₁ with drawn := (t, id) :: s₁.drawn } :=
    ⟨⟨userAgent, rfl⟩, huuid, List.mem_cons_self, unwritten_of_fresh hd₁.inv hfresh⟩
  have hobserved₃ := h₃.2.trans (h₁.2.trans hobserved)
  refine Discipline.Safe.andThen (Discipline.Safe.attempt
    (Q := fun r s' =>
      (∀ u : Unit, r = .ok u → ∃ d, s'.written = [d] ∧
        (⟨id, browserDeviceDescription userAgent⟩ : DeviceIdentity) = ⟨d.id, d.name⟩) ∧
      ∀ x, r = .error x →
        AbortError x ∨ Late t tab ⟨id, browserDeviceDescription userAgent⟩ x s')
    ((safe_write h₃.1 hobserved₃ (hdevice.drift hd₃)).mono
      (fun _ _ h => ⟨fun _ _ => h, nofun⟩)
      fun _ _ h => ⟨nofun, fun x' hx' => Except.error.inj hx' ▸ h⟩)) fun r s' hr => ?_
  cases r with
  | ok u => exact hr.1 u rfl
  | error x => exact safe_adopt (hr.2 x rfl)

/-- The operation of `get`, when nothing valid was stored. -/
theorem safe_get (h : Working t tab s) :
    (deviceDiscipline T none).Safe exec t (operation tab .get)
      (fun r s' => ∃ d, s'.written = [d] ∧ r = ⟨d.id, d.name⟩) (fun x _ => AbortError x) s := by
  refine Discipline.Safe.andThen (safe_read h) fun stored s' hq => ?_
  obtain ⟨hworking, hobserved, hfrom⟩ := hq
  rw [hfrom.valid]
  rcases hfrom.source with rfl | ⟨d, rfl, hd⟩
  · exact safe_create hworking hobserved
  · exact ⟨d, hd, rfl⟩

/-- **A queued operation settles as it should.** -/
theorem safe_enqueued {method : Method} (hcalled : tab ∈ s.called)
    (hop : ∀ s', (deviceDiscipline T old).Drift t s s' → Working t tab s' →
      (deviceDiscipline T old).Safe exec t (operation tab method)
        (fun r s'' => ∃ d, s''.written = [d] ∧ r = ⟨d.id, d.name⟩) (fun x _ => AbortError x) s') :
    (deviceDiscipline T old).Safe exec t (enqueued tab method) (fun _ _ => True) (fun _ _ => True)
      s := by
  intro s₁ hd₁ _ s₂ hx₁
  obtain ⟨hturn, rfl⟩ := hx₁
  have hcalled₁ := hd₁.grow.called tab hcalled
  refine ⟨.refl hd₁.inv, ?_⟩
  have hframe := (hop s₂ hd₁ ⟨hturn, hcalled₁⟩).frame (K := fun s => tab ∈ s.called)
    (fun _ _ htab (hgrow : DeviceGrows _ _) => hgrow.called tab htab) hcalled₁
  refine Discipline.Safe.andThen (Discipline.Safe.attempt
    (Q := fun r s' => Settles s' r ∧ tab ∈ s'.called)
    (hframe.mono (fun r s' h => ⟨?_, h.2⟩) fun x s' h => ⟨?_, h.2⟩)) fun r s' hr => ?_
  · obtain ⟨⟨d, hd, rfl⟩, -⟩ := h
    exact Or.inr ⟨d, hd, rfl⟩
  · obtain ⟨⟨message, rfl⟩, -⟩ := h
    exact Or.inl ⟨message, rfl⟩
  · intro s₃ hd₃ _ s₄ hx₃
    obtain rfl : s₄ = _ := hx₃
    exact ⟨keeps_settle hd₃.inv (hr.1.grow hd₃.grow.written) (hd₃.grow.called tab hr.2), trivial⟩

end Steps

/-! ## Any run -/

/-- The tabs in `T` may call `replace` once, the others nothing. -/
def replaceOnce (T : Set TabId) (tab : TabId) (method : Method) (s : Tabs) : Prop :=
  method = .replace ∧ tab ∈ T ∧ tab ∉ s.called

/-- Any tab may call `get`. -/
def onlyGet (_ : TabId) (method : Method) (_ : Tabs) : Prop :=
  method = .get

theorem Tabs.Initial.inv {s : Tabs} (h : s.Initial) {T : Set TabId}
    (hT : ∀ tab ∈ T, s.observedGeneration tab = generationOf (identity s.db)) :
    DeviceInv T (identity s.db) s where
  outcome := Or.inl ⟨h.written, rfl⟩
  settled := by
    intro r hr
    rw [h.settled] at hr
    cases hr
  nodup := by
    rw [h.drawn]
    exact List.nodup_nil
  known := by
    intro d hd
    exact h.known d (Option.mem_filter_iff.mp hd).1
  unknown := by
    intro id hid
    rw [h.drawn] at hid
    cases hid
  authors := by
    intro d hd
    rw [h.written] at hd
    cases hd
  waiting := fun tab htab _ => ⟨h.pending tab, hT tab htab⟩

theorem respected_get : (deviceDiscipline ∅ none).Respected (devices onlyGet) where
  start := by
    rintro t ⟨tab, method⟩ s s' hs - ⟨hget, rfl⟩
    obtain rfl : method = .get := hget
    exact ⟨keeps_start hs, safe_enqueued List.mem_cons_self fun _ _ hworking => safe_get hworking⟩
  stop := by
    rintro t s s' hs rfl
    exact ⟨.refl hs, trivial⟩
  env := fun _ _ _ h => h.elim

theorem respected_replace (T : Set TabId) (old : Option DurableDeviceIdentity) :
    (deviceDiscipline T old).Respected (devices (replaceOnce T)) where
  start := by
    rintro t ⟨tab, method⟩ s s' hs - ⟨⟨hreplace, htab, hnot⟩, rfl⟩
    obtain rfl : method = .replace := hreplace
    obtain ⟨hpending, hobserved⟩ := hs.waiting tab htab hnot
    refine ⟨keeps_start hs, safe_enqueued List.mem_cons_self fun s' hd hworking => ?_⟩
    -- the call has its turn at once, so no other has set the field
    have hfirst : Working t tab { s with
        pending := Function.update s.pending tab (s.pending tab ++ [t])
        called := tab :: s.called } := by
      constructor
      · show (Function.update s.pending tab _ tab).head? = some t
        rw [Function.update_self, hpending]
        rfl
      · exact List.mem_cons_self
    exact safe_create hworking ((hfirst.drift hd).2.trans hobserved)
  stop := by
    rintro t s s' hs rfl
    exact ⟨.refl hs, trivial⟩
  env := fun _ _ _ h => h.elim

/-- **Tabs agree on one device identity.**  If nothing valid is stored and only
`get` is called, the calls return the stored identity.  If each tab that has
observed the stored generation calls `replace` once, at most one identity is
written, and every call that no aborted transaction rejects returns it. -/
theorem tabs_agree_on_one_identity {s₀ : Tabs} (h₀ : s₀.Initial) :
    (identity s₀.db = none → ∀ p, (devices onlyGet).Reachable (· = s₀) p →
      ∀ r ∈ p.shared.settled, Aborted r ∨
        ∃ stored, identity p.shared.db = some stored ∧ r = .ok ⟨stored.id, stored.name⟩) ∧
    (∀ T old, identity s₀.db = some old →
      (∀ tab ∈ T, s₀.observedGeneration tab = some old.generation) →
      ∀ p, (devices (replaceOnce T)).Reachable (· = s₀) p →
        p.shared.written.length ≤ 1 ∧
        (p.shared.written = [] → identity p.shared.db = some old) ∧
        ∀ r ∈ p.shared.settled, Aborted r ∨
          ∃ new, p.shared.written = [new] ∧ identity p.shared.db = some new ∧
            new.id ≠ old.id ∧ new.generation ≠ old.generation ∧ r = .ok ⟨new.id, new.name⟩) := by
  have hstored : ∀ {T : Set TabId} {old : Option DurableDeviceIdentity} {s : Tabs}
      {d : DurableDeviceIdentity}, DeviceInv T old s → s.written = [d] →
      identity s.db = some d := by
    intro T old s d hs hd
    rcases hs.outcome with ⟨hnone, -⟩ | ⟨d', hd', hstored⟩
    · rw [hd] at hnone
      cases hnone
    · rw [hd] at hd'
      cases hd'
      exact hstored
  constructor
  · intro hnone p hp r hr
    have hs : DeviceInv ∅ none p.shared := by
      refine (Discipline.sound respected_get (fun s hs => ?_) hp).inv
      obtain rfl : s = s₀ := hs
      exact ⟨hnone ▸ h₀.inv fun tab htab => htab.elim, fun _ => trivial⟩
    rcases hs.settled r hr with habort | ⟨d, hd, rfl⟩
    · exact Or.inl habort
    · exact Or.inr ⟨d, hstored hs hd, rfl⟩
  · intro T old hold hT p hp
    have hs : DeviceInv T (some old) p.shared := by
      refine (Discipline.sound (respected_replace T (some old)) (fun s hs => ?_) hp).inv
      obtain rfl : s = s₀ := hs
      refine ⟨hold ▸ h₀.inv fun tab htab => ?_, fun _ => trivial⟩
      rw [hold]
      exact hT tab htab
    refine ⟨?_, ?_, fun r hr => ?_⟩
    · rcases hs.outcome with ⟨hnone, -⟩ | ⟨d, hd, -⟩
      · rw [hnone]
        exact Nat.zero_le 1
      · rw [hd]
        exact le_refl _
    · intro hnone
      rcases hs.outcome with ⟨-, hstored⟩ | ⟨d, hd, -⟩
      · exact hstored
      · rw [hd] at hnone
        cases hnone
    · rcases hs.settled r hr with habort | ⟨d, hd, rfl⟩
      · exact Or.inl habort
      · obtain ⟨hid, hgeneration⟩ := hs.new hd rfl
        exact Or.inr ⟨d, hd, hstored hs hd, hid, hgeneration, rfl⟩

/-- Two tabs replace the same device, and the second write comes too late. -/
theorem tabs_agree_on_one_identity_replaced :
    ∃ (p : Pool DeviceCall DeviceCall.Answer JsError Tabs) (new : DurableDeviceIdentity),
      p.shared.settled = [.ok ⟨new.id, new.name⟩] ∧ p.shared.written.length ≤ 1 := by
  let old : DurableDeviceIdentity :=
    ⟨"00000000-0000-4000-8000-000000000001", "Linux · Firefox", "g"⟩
  let s₀ : Tabs :=
    { db := { identity := some old }, observedGeneration := fun _ => some "g",
      known := [old.id, "g"] }
  let name := browserDeviceDescription ""
  let id := "00000000-0000-4000-8000-000000000002"
  let id' := "00000000-0000-4000-8000-000000000003"
  let generation := "00000000-0000-4000-8000-000000000004"
  let generation' := "00000000-0000-4000-8000-000000000005"
  let new : DurableDeviceIdentity := ⟨id, name, generation⟩
  have h₀ : s₀.Initial := by
    refine ⟨fun _ => rfl, fun d hd => ?_, rfl, rfl, rfl, rfl⟩
    obtain rfl : old = d := Option.some.inj hd
    exact ⟨List.mem_cons_self, List.mem_cons_of_mem _ List.mem_cons_self⟩
  have hold : identity s₀.db = some old := by decide
  have hwrite : write (some "g") generation ⟨id, name⟩ s₀.db =
      .ok ((), { identity := some new }) := by
    unfold write
    rw [hold, if_neg (by decide)]
  have hlate : write (some "g") generation' ⟨id', name⟩ { identity := some new } =
      .error (.client "Local device generation changed" .local_generation_changed) := by
    have hnew : identity { identity := some new } = some new := by decide
    unfold write
    rw [hnew, if_pos (by decide)]
  have hidle : (devices (replaceOnce Set.univ)).Reachable (· = s₀) (System.idle s₀) :=
    System.Reachable.idle rfl
  have hreach := hidle
    |>.starts 0 (0, .replace) rfl ⟨⟨rfl, trivial, List.not_mem_nil⟩, rfl⟩
    |>.starts 1 (1, .replace) rfl ⟨⟨rfl, trivial, by decide⟩, rfl⟩
    |>.acts 0 rfl () ⟨rfl, rfl⟩
    |>.acts 0 rfl id ⟨by decide, rfl⟩
    |>.acts 0 rfl "" rfl
    |>.acts 0 rfl (some "g") ⟨rfl, rfl⟩
    |>.acts 0 rfl generation ⟨by decide, rfl⟩
    |>.acts 0 rfl (.ok ()) (Or.inl ⟨_, rfl, Or.inl ⟨(), hwrite, rfl⟩, rfl⟩)
    |>.acts 0 rfl () rfl
    |>.acts 0 rfl () rfl
    |>.acts 1 rfl () ⟨rfl, rfl⟩
    |>.acts 1 rfl id' ⟨by decide, rfl⟩
    |>.acts 1 rfl "" rfl
    |>.acts 1 rfl (some "g") ⟨rfl, rfl⟩
    |>.acts 1 rfl generation' ⟨by decide, rfl⟩
    |>.acts 1 rfl (.error _) (Or.inr ⟨Or.inl ⟨_, rfl, hlate⟩, rfl⟩)
  exact ⟨_, new, rfl,
    ((tabs_agree_on_one_identity h₀).2 Set.univ old hold (fun _ _ => rfl) _ hreach).1⟩

end Device
end Client
end SecureMessenger

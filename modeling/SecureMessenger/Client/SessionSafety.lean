import SecureMessenger.Client.SessionStore
import SecureMessenger.Lib.Discipline

/-!
# Safety of the session store

Only the thread that opened a generation moves the phase or the device
identity within it, so what an operation has checked still holds when it goes
on, as long as its generation is current.  A revocation raises
`devicesRevision` in the segment in which it completes; a device list asked
for earlier is then out of date.
-/

namespace SecureMessenger
namespace Client

open Lib SessionMemory

/-- The event is about a gateway call. -/
def SessionEvent.isCall : SessionEvent → Bool
  | .started _ _ => true
  | .resolved _ _ _ => true
  | .revoked _ => false
  | .devicesSet _ _ _ => false

/-- The `getDevices` call was made after every revocation of the generation in
the log. -/
def StartedAfter (generation call : Nat) (log : List SessionEvent) : Prop :=
  ∀ new old, log = new ++ .revoked generation :: old → .started call .getDevices ∈ new

/-- Every assignment to `devices` in the log is the answer of a call and respects
the revocations before it. -/
def RespectsRevocations : List SessionEvent → Prop
  | [] => True
  | .devicesSet generation call devices :: log =>
      StartedAfter generation call log ∧ .resolved call .getDevices devices ∈ log ∧
        RespectsRevocations log
  | _ :: log => RespectsRevocations log

/-- The account shown is the one of this device, and its inbox is prepared. -/
def AccountReady (prepares : Bool) (m : SessionMemory) : Prop :=
  m.store.phase = .authenticated → ∃ user device,
    m.store.user = some user ∧ m.store.deviceIdentity = some device ∧
      user.deviceId = device.id ∧
      (prepares = true → ∃ call, .resolved call (.prepareInbox user) () ∈ m.log)

/-- The invariant of the session store. -/
structure SessionInv (prepares : Bool) (m : SessionMemory) : Prop where
  ready : AccountReady prepares m
  revokedPhase : .revoked m.generation ∈ m.log → m.store.phase = .authenticated
  revokedLe : ∀ g, .revoked g ∈ m.log → g ≤ m.generation
  respects : RespectsRevocations m.log

/-- What every step does. -/
structure SessionGrows (m m' : SessionMemory) : Prop where
  generation : m.generation ≤ m'.generation
  revision : m.devicesRevision ≤ m'.devicesRevision
  same : m'.generation = m.generation → m'.active = m.active ∧ m'.owner = m.owner ∧
    (m.store.phase = .authenticated → m'.store.phase = .authenticated) ∧
    m'.store.signingOut = m.store.signingOut
  log : ∃ new, m'.log = new ++ m.log ∧
    (m'.devicesRevision = m.devicesRevision → ∀ g, .revoked g ∉ new) ∧
    (m'.generation = m.generation → m'.store.devices ≠ m.store.devices →
      ∃ call, .devicesSet m.generation call m'.store.devices ∈ new)

/-- What the other threads leave to the thread that opened the generation. -/
structure Undisturbed (t : Tid) (m m' : SessionMemory) : Prop where
  generation : m.generation ≤ m'.generation
  same : m'.generation = m.generation → m'.owner = m.owner ∧
    (m.owner = t → m'.store.phase = m.store.phase ∧
      m'.store.deviceIdentity = m.store.deviceIdentity)

section Relations

variable {m m' m'' : SessionMemory} {t : Tid}

theorem SessionGrows.refl (m : SessionMemory) : SessionGrows m m :=
  ⟨le_rfl, le_rfl, fun _ => ⟨rfl, rfl, id, rfl⟩, [], rfl, by simp, fun _ h => absurd rfl h⟩

theorem SessionGrows.trans (h₁ : SessionGrows m m') (h₂ : SessionGrows m' m'') :
    SessionGrows m m'' := by
  have hgen := h₁.generation
  have hgen' := h₂.generation
  have hrev := h₁.revision
  have hrev' := h₂.revision
  refine ⟨by omega, by omega, ?_, ?_⟩
  · intro hsame
    obtain ⟨ha₁, ho₁, hp₁, hs₁⟩ := h₁.same (by omega)
    obtain ⟨ha₂, ho₂, hp₂, hs₂⟩ := h₂.same (by omega)
    exact ⟨ha₂.trans ha₁, ho₂.trans ho₁, fun h => hp₂ (hp₁ h), hs₂.trans hs₁⟩
  · obtain ⟨new₁, hlog₁, hrevoked₁, hdevices₁⟩ := h₁.log
    obtain ⟨new₂, hlog₂, hrevoked₂, hdevices₂⟩ := h₂.log
    refine ⟨new₂ ++ new₁, by rw [hlog₂, hlog₁, List.append_assoc], ?_, ?_⟩
    · intro hsame g hmem
      rcases List.mem_append.mp hmem with hmem | hmem
      · exact hrevoked₂ (by omega) g hmem
      · exact hrevoked₁ (by omega) g hmem
    · intro hsame hne
      by_cases hfirst : m'.store.devices = m.store.devices
      · obtain ⟨call, hcall⟩ := hdevices₂ (by omega) (fun he => hne (he.trans hfirst))
        have hg : m'.generation = m.generation := by omega
        rw [hg] at hcall
        exact ⟨call, List.mem_append_left _ hcall⟩
      · by_cases hsecond : m''.store.devices = m'.store.devices
        · obtain ⟨call, hcall⟩ := hdevices₁ (by omega) hfirst
          rw [hsecond]
          exact ⟨call, List.mem_append_right _ hcall⟩
        · obtain ⟨call, hcall⟩ := hdevices₂ (by omega) hsecond
          have hg : m'.generation = m.generation := by omega
          rw [hg] at hcall
          exact ⟨call, List.mem_append_left _ hcall⟩

theorem Undisturbed.refl (t : Tid) (m : SessionMemory) : Undisturbed t m m :=
  ⟨le_rfl, fun _ => ⟨rfl, fun _ => ⟨rfl, rfl⟩⟩⟩

theorem Undisturbed.trans (h₁ : Undisturbed t m m') (h₂ : Undisturbed t m' m'') :
    Undisturbed t m m'' := by
  have hgen := h₁.generation
  have hgen' := h₂.generation
  refine ⟨by omega, fun hsame => ?_⟩
  obtain ⟨ho₁, hs₁⟩ := h₁.same (by omega)
  obtain ⟨ho₂, hs₂⟩ := h₂.same (by omega)
  refine ⟨ho₂.trans ho₁, fun howner => ?_⟩
  obtain ⟨hp₁, hd₁⟩ := hs₁ howner
  obtain ⟨hp₂, hd₂⟩ := hs₂ (ho₁.trans howner)
  exact ⟨hp₂.trans hp₁, hd₂.trans hd₁⟩

end Relations

/-- The discipline of the session store. -/
def sessionDiscipline (prepares : Bool) : Discipline SessionMemory where
  inv := SessionInv prepares
  grow := SessionGrows
  own := Undisturbed
  grow_refl := SessionGrows.refl
  grow_trans := SessionGrows.trans
  own_refl := Undisturbed.refl
  own_trans := Undisturbed.trans

section Log

variable {log new : List SessionEvent}

theorem RespectsRevocations.append_calls (h : RespectsRevocations log)
    (hnew : ∀ e ∈ new, e.isCall = true) : RespectsRevocations (new ++ log) := by
  induction new with
  | nil => exact h
  | cons e rest ih =>
      have hrest := ih fun e he => hnew e (List.mem_cons_of_mem _ he)
      have he := hnew e List.mem_cons_self
      cases e with
      | started call g => exact hrest
      | resolved call g reply => exact hrest
      | revoked g => cases he
      | devicesSet g call devices => cases he

theorem not_revoked_of_calls (hnew : ∀ e ∈ new, e.isCall = true) (g : Nat) :
    .revoked g ∉ new := by
  intro hmem
  cases hnew _ hmem

/-- Events other than revocations do not matter to `StartedAfter`. -/
theorem StartedAfter.append {generation call : Nat} (h : StartedAfter generation call log)
    (hnew : .revoked generation ∉ new) : StartedAfter generation call (new ++ log) := by
  induction new with
  | nil => exact h
  | cons e rest ih =>
      rw [List.mem_cons, not_or] at hnew
      have hrest := ih hnew.2
      intro before old heq
      cases before with
      | nil =>
          rw [List.cons_append, List.nil_append, List.cons.injEq] at heq
          exact absurd heq.1.symm hnew.1
      | cons e' before =>
          rw [List.cons_append, List.cons_append, List.cons.injEq] at heq
          exact List.mem_cons_of_mem _ (hrest before old heq.2)

theorem startedAfter_now (generation call : Nat) (log : List SessionEvent) :
    StartedAfter generation call (.started call .getDevices :: log) := by
  intro new old heq
  cases new with
  | nil => simp at heq
  | cons e rest =>
      rw [List.cons_append, List.cons.injEq] at heq
      rw [← heq.1]
      exact List.mem_cons_self

theorem startedAfter_of_none {generation call : Nat} (h : .revoked generation ∉ log) :
    StartedAfter generation call log := by
  rintro new old rfl
  exact absurd (List.mem_append_right _ List.mem_cons_self) h

/-- The meaning of `RespectsRevocations`, split at an assignment and at a
revocation before it. -/
theorem RespectsRevocations.started {g call : Nat} {devices : List Device}
    {later between old : List SessionEvent}
    (h : RespectsRevocations
      (later ++ .devicesSet g call devices :: (between ++ .revoked g :: old))) :
    .started call .getDevices ∈ between ∧
      .resolved call .getDevices devices ∈ between ++ .revoked g :: old := by
  induction later with
  | nil => exact ⟨h.1 between old rfl, h.2.1⟩
  | cons e rest ih =>
      cases e with
      | started call g => exact ih h
      | resolved call g reply => exact ih h
      | revoked g => exact ih h
      | devicesSet g call devices => exact ih h.2.2

end Log

section Steps

variable {prepares : Bool} {m m' m'' : SessionMemory} {t : Tid}

/-- A step that makes calls and leaves the phase, the account and the device
identity alone. -/
structure Quiet (m m' : SessionMemory) : Prop where
  generation : m'.generation = m.generation
  active : m'.active = m.active
  owner : m'.owner = m.owner
  phase : m'.store.phase = m.store.phase
  user : m'.store.user = m.store.user
  devices : m'.store.devices = m.store.devices
  deviceIdentity : m'.store.deviceIdentity = m.store.deviceIdentity
  signingOut : m'.store.signingOut = m.store.signingOut
  revision : m.devicesRevision ≤ m'.devicesRevision
  log : ∃ new, m'.log = new ++ m.log ∧ ∀ e ∈ new, e.isCall = true

theorem Quiet.refl (m : SessionMemory) : Quiet m m :=
  ⟨rfl, rfl, rfl, rfl, rfl, rfl, rfl, rfl, le_rfl, [], rfl, by simp⟩

theorem Quiet.trans (h₁ : Quiet m m') (h₂ : Quiet m' m'') : Quiet m m'' := by
  obtain ⟨new₁, hlog₁, hcalls₁⟩ := h₁.log
  obtain ⟨new₂, hlog₂, hcalls₂⟩ := h₂.log
  refine ⟨h₂.generation.trans h₁.generation, h₂.active.trans h₁.active,
    h₂.owner.trans h₁.owner, h₂.phase.trans h₁.phase, h₂.user.trans h₁.user,
    h₂.devices.trans h₁.devices, h₂.deviceIdentity.trans h₁.deviceIdentity,
    h₂.signingOut.trans h₁.signingOut, h₁.revision.trans h₂.revision,
    new₂ ++ new₁, by rw [hlog₂, hlog₁, List.append_assoc], ?_⟩
  intro e he
  rcases List.mem_append.mp he with he | he
  · exact hcalls₂ e he
  · exact hcalls₁ e he

theorem Quiet.startCall (g : SessionGateway) (m : SessionMemory) : Quiet m (m.startCall g).2 :=
  ⟨rfl, rfl, rfl, rfl, rfl, rfl, rfl, rfl, le_rfl, [_], rfl, by simp [SessionEvent.isCall]⟩

theorem Quiet.inv (h : Quiet m m') (hm : SessionInv prepares m) : SessionInv prepares m' := by
  obtain ⟨new, hlog, hcalls⟩ := h.log
  have hrevoked : ∀ g, .revoked g ∈ m'.log → .revoked g ∈ m.log := by
    intro g hg
    rw [hlog] at hg
    rcases List.mem_append.mp hg with hg | hg
    · exact absurd hg (not_revoked_of_calls hcalls g)
    · exact hg
  refine ⟨?_, ?_, ?_, ?_⟩
  · intro hphase
    obtain ⟨user, device, huser, hdevice, hid, hprepared⟩ := hm.ready (h.phase ▸ hphase)
    refine ⟨user, device, h.user.trans huser, h.deviceIdentity.trans hdevice, hid, fun hp => ?_⟩
    obtain ⟨call, hcall⟩ := hprepared hp
    exact ⟨call, hlog ▸ List.mem_append_right _ hcall⟩
  · intro hg
    rw [h.generation] at hg
    rw [h.phase]
    exact hm.revokedPhase (hrevoked _ hg)
  · intro g hg
    rw [h.generation]
    exact hm.revokedLe g (hrevoked g hg)
  · rw [hlog]
    exact hm.respects.append_calls hcalls

theorem Quiet.keeps (h : Quiet m m') (hm : SessionInv prepares m) :
    (sessionDiscipline prepares).Keeps t m m' := by
  obtain ⟨new, hlog, hcalls⟩ := h.log
  refine ⟨h.inv hm, ⟨h.generation.ge, h.revision, fun _ => ⟨h.active, h.owner, fun hp => ?_,
    h.signingOut⟩, new, hlog, fun _ => not_revoked_of_calls hcalls,
    fun _ hne => absurd h.devices hne⟩,
    fun u _ => ⟨h.generation.ge, fun _ => ⟨h.owner, fun _ => ⟨h.phase, h.deviceIdentity⟩⟩⟩⟩
  rw [h.phase]
  exact hp

/-- A step that opens a generation. -/
theorem keeps_newGeneration (hm : SessionInv prepares m) (hgen : m'.generation = m.generation + 1)
    (hrev : m'.devicesRevision = m.devicesRevision)
    (hlog : ∃ new, m'.log = new ++ m.log ∧ ∀ e ∈ new, e.isCall = true)
    (hready : AccountReady prepares m') : (sessionDiscipline prepares).Keeps t m m' := by
  obtain ⟨new, hlog, hcalls⟩ := hlog
  have hrevoked : ∀ g, .revoked g ∈ m'.log → g ≤ m.generation := by
    intro g hg
    rw [hlog] at hg
    rcases List.mem_append.mp hg with hg | hg
    · exact absurd hg (not_revoked_of_calls hcalls g)
    · exact hm.revokedLe g hg
  refine ⟨⟨hready, ?_, ?_, ?_⟩, ⟨by omega, hrev.ge, fun h => absurd h (by omega), new, hlog,
    fun _ => not_revoked_of_calls hcalls, fun h => absurd h (by omega)⟩,
    fun u _ => ⟨by omega, fun h => absurd h (by omega)⟩⟩
  · intro hg
    have := hrevoked _ hg
    omega
  · intro g hg
    have := hrevoked g hg
    omega
  · rw [hlog]
    exact hm.respects.append_calls hcalls

theorem accountReady_of_phase (h : m.store.phase ≠ .authenticated) : AccountReady prepares m :=
  fun hp => absurd hp h

theorem keeps_clear (hm : SessionInv prepares m) (authError : Option String) :
    (sessionDiscipline prepares).Keeps t m (m.clearAuthenticatedState t authError) :=
  keeps_newGeneration hm rfl rfl ⟨[], rfl, by simp⟩
    (accountReady_of_phase (by simp [clearAuthenticatedState, SessionMemory.set]))

theorem Quiet.drift (h : Quiet m m') (hm : SessionInv prepares m) :
    (sessionDiscipline prepares).Drift t m m' := by
  have hk := h.keeps (t := t + 1) hm
  exact ⟨hk.grow, hk.own t (Nat.ne_of_lt (Nat.lt_succ_self t)), hk.inv⟩

end Steps

section Rules

variable {prepares : Bool} {t : Tid} {α β : Type} {m : SessionMemory}
  {Q : α → SessionMemory → Prop} {Z : JsError → SessionMemory → Prop}

/-- The program keeps the discipline. -/
def Keeping (prepares : Bool) (t : Tid) (p : SessionProg α) (Q : α → SessionMemory → Prop)
    (Z : JsError → SessionMemory → Prop) (m : SessionMemory) : Prop :=
  (sessionDiscipline prepares).Safe (Segmented.exec SessionPromise.settles) t p Q Z m

/-- The assertion survives what other threads do. -/
def Steady (prepares : Bool) (t : Tid) (A : SessionMemory → Prop) : Prop :=
  ∀ m m', A m → (sessionDiscipline prepares).Drift t m m' → A m'

theorem Keeping.bind {p : SessionProg β} {f : β → SessionProg α}
    {B : β → SessionMemory → Prop} (h : Keeping prepares t p B Z m)
    (hf : ∀ b m', B b m' → Keeping prepares t (f b) Q Z m') :
    Keeping prepares t (p >>= f) Q Z m :=
  Discipline.Safe.andThen h hf

theorem Keeping.attempt {p : SessionProg α} {Q : Except JsError α → SessionMemory → Prop}
    (h : Keeping prepares t p (fun a => Q (.ok a)) (fun x => Q (.error x)) m) :
    Keeping prepares t (Prog.attempt p) Q Z m :=
  Discipline.Safe.attempt h

theorem keeping_segment {operation : Option Nat} {f : SessionMemory → α × SessionMemory}
    (h : ∀ m₁, (sessionDiscipline prepares).Drift t m m₁ →
      (sessionDiscipline prepares).Keeps t m₁ (f m₁).2 ∧ Q (f m₁).1 (f m₁).2) :
    Keeping prepares t (segment operation f) Q Z m := by
  rintro m₁ hd r m₂ ⟨rfl, rfl⟩
  exact h m₁ hd

theorem keeping_whenCurrent {operation : Nat} {stale : α}
    {f : SessionMemory → α × SessionMemory}
    (hstale : ∀ m₁, (sessionDiscipline prepares).Drift t m m₁ → Q stale m₁)
    (h : ∀ m₁, (sessionDiscipline prepares).Drift t m m₁ → m₁.isCurrent operation = true →
      (sessionDiscipline prepares).Keeps t m₁ (f m₁).2 ∧ Q (f m₁).1 (f m₁).2) :
    Keeping prepares t (segment (some operation) (whenCurrent operation stale f)) Q Z m := by
  refine keeping_segment fun m₁ hd => ?_
  unfold whenCurrent
  split_ifs with hcur
  · exact h m₁ hd hcur
  · exact ⟨Discipline.Keeps.refl hd.inv, hstale m₁ hd⟩

/-- A segment that only makes calls. -/
theorem keeping_quiet {A : SessionMemory → Prop} {operation : Option Nat}
    {f : SessionMemory → α × SessionMemory} (hA : Steady prepares t A) (h : A m)
    (hf : ∀ m, Quiet m (f m).2) :
    Keeping prepares t (segment operation f) (fun _ m' => A m') Z m := by
  refine keeping_segment fun m₁ hd => ⟨(hf m₁).keeps hd.inv, ?_⟩
  exact hA _ _ (hA _ _ h hd) ((hf m₁).drift hd.inv)

/-- Awaiting a call. -/
theorem keeping_settled {A : SessionMemory → Prop} (hA : Steady prepares t A) (h : A m)
    (g : SessionGateway) (call : Nat) :
    Keeping prepares t (settled g call)
      (fun reply m' => A m' ∧ .resolved call g reply ∈ m'.log) (fun _ m' => A m') m := by
  intro m₁ hd r m₂ hx
  have hA₁ := hA _ _ h hd
  cases r with
  | error x =>
      obtain rfl : m₂ = m₁ := hx
      exact ⟨Discipline.Keeps.refl hd.inv, hA₁⟩
  | ok a =>
      obtain rfl : m₂ = { m₁ with log := .resolved call g a :: m₁.log } := hx
      have hquiet : Quiet m₁ { m₁ with log := .resolved call g a :: m₁.log } :=
        ⟨rfl, rfl, rfl, rfl, rfl, rfl, rfl, rfl, le_rfl, [_], rfl, by simp [SessionEvent.isCall]⟩
      exact ⟨hquiet.keeps hd.inv, hA _ _ hA₁ (hquiet.drift hd.inv), List.mem_cons_self⟩

theorem keeping_ret {a : α} (h : Q a m) : Keeping prepares t (Prog.ret a) Q Z m :=
  h

theorem keeping_throw {x : JsError} (h : Z x m) :
    Keeping prepares t (Prog.throw x : SessionProg α) Q Z m :=
  h

theorem Keeping.mono {p : SessionProg α} {Q' : α → SessionMemory → Prop}
    {Z' : JsError → SessionMemory → Prop} (h : Keeping prepares t p Q Z m)
    (hQ : ∀ a m', Q a m' → Q' a m') (hZ : ∀ x m', Z x m' → Z' x m') :
    Keeping prepares t p Q' Z' m :=
  Discipline.Safe.mono h hQ hZ

end Rules

section Assertions

variable {prepares : Bool} {t : Tid} {operation : Nat} {m m' : SessionMemory}

/-- The operation opens a session: the thread owns the generation, and no
account is shown yet. -/
def Opening (t : Tid) (operation : Nat) (m : SessionMemory) : Prop :=
  operation ≤ m.generation ∧
    (m.generation = operation → m.owner = t ∧ m.store.phase ≠ .authenticated)

/-- The device identity has been compared with the account. -/
def Matched (t : Tid) (operation : Nat) (user : CurrentUser) (m : SessionMemory) : Prop :=
  Opening t operation m ∧
    (m.generation = operation → m.store.deviceIdentity.map DeviceIdentity.id = some user.deviceId)

/-- The operation works on an account that is shown and stays. -/
def Serving (operation : Nat) (m : SessionMemory) : Prop :=
  operation ≤ m.generation ∧ (m.generation = operation →
    m.store.phase = .authenticated ∧ m.store.signingOut = false)

/-- A device list asked for after all revocations, as long as the revision is
current. -/
def Asked (operation revision call : Nat) (m : SessionMemory) : Prop :=
  revision ≤ m.devicesRevision ∧
    (revision = m.devicesRevision → StartedAfter operation call m.log)

theorem isCurrent_iff :
    m.isCurrent operation = true ↔ m.active = true ∧ operation = m.generation := by
  simp [SessionMemory.isCurrent]

theorem steady_opening : Steady prepares t (Opening t operation) := by
  rintro m m' ⟨hle, h⟩ hd
  have hgen : m.generation ≤ m'.generation := hd.grow.generation
  refine ⟨by omega, fun heq => ?_⟩
  have hsame : m'.generation = m.generation := by omega
  obtain ⟨howner, hphase⟩ := h (by omega)
  obtain ⟨ho, hs⟩ := hd.own.same hsame
  rw [ho, (hs howner).1]
  exact ⟨howner, hphase⟩

theorem steady_matched {user : CurrentUser} :
    Steady prepares t (Matched t operation user) := by
  rintro m m' ⟨hopen, h⟩ hd
  refine ⟨steady_opening m m' hopen hd, fun heq => ?_⟩
  have hgen : m.generation ≤ m'.generation := hd.grow.generation
  have hle := hopen.1
  have hsame : m'.generation = m.generation := by omega
  have heq' : m.generation = operation := by omega
  obtain ⟨-, hs⟩ := hd.own.same hsame
  rw [(hs (hopen.2 heq').1).2]
  exact h heq'

theorem steady_serving : Steady prepares t (Serving operation) := by
  rintro m m' ⟨hle, h⟩ hd
  have hgen : m.generation ≤ m'.generation := hd.grow.generation
  refine ⟨by omega, fun heq => ?_⟩
  have hsame : m'.generation = m.generation := by omega
  obtain ⟨hphase, hout⟩ := h (by omega)
  obtain ⟨-, -, hp, hs⟩ := hd.grow.same hsame
  exact ⟨hp hphase, hs.trans hout⟩

theorem steady_asked {revision call : Nat} :
    Steady prepares t (Asked operation revision call) := by
  rintro m m' ⟨hle, h⟩ hd
  have hrev : m.devicesRevision ≤ m'.devicesRevision := hd.grow.revision
  refine ⟨by omega, fun heq => ?_⟩
  have hsame : m'.devicesRevision = m.devicesRevision := by omega
  obtain ⟨new, hlog, hrevoked, -⟩ := hd.grow.log
  rw [hlog]
  exact (h (by omega)).append (hrevoked hsame operation)

theorem steady_true : Steady prepares t (fun _ => True) :=
  fun _ _ _ _ => trivial

theorem steady_and {A B : SessionMemory → Prop} (hA : Steady prepares t A)
    (hB : Steady prepares t B) : Steady prepares t (fun m => A m ∧ B m) :=
  fun m m' h hd => ⟨hA m m' h.1 hd, hB m m' h.2 hd⟩

theorem steady_mem {e : SessionEvent} : Steady prepares t (fun m => e ∈ m.log) := by
  intro m m' h hd
  obtain ⟨new, hlog, -⟩ := hd.grow.log
  rw [hlog]
  exact List.mem_append_right _ h

end Assertions

section Programs

variable {prepares : Bool} {t : Tid} {operation : Nat} {m m' : SessionMemory}

/-- The owner of the generation stores a device identity before an account is
shown. -/
theorem keeps_identity (hm : SessionInv prepares m) (hopen : Opening t operation m)
    (hcur : m.isCurrent operation = true) (device : DeviceIdentity) :
    (sessionDiscipline prepares).Keeps t m
        (m.set fun st => { st with deviceIdentity := some device }) ∧
      Opening t operation (m.set fun st => { st with deviceIdentity := some device }) := by
  obtain ⟨-, hgen⟩ := isCurrent_iff.mp hcur
  obtain ⟨howner, hphase⟩ := hopen.2 hgen.symm
  refine ⟨⟨⟨accountReady_of_phase hphase, hm.revokedPhase, hm.revokedLe, hm.respects⟩,
    ⟨le_rfl, le_rfl, fun _ => ⟨rfl, rfl, id, rfl⟩, [], rfl, by simp, fun _ h => absurd rfl h⟩,
    fun u hu => ⟨le_rfl, fun _ => ⟨rfl, fun ho => ?_⟩⟩⟩, hopen⟩
  exact absurd (ho.symm.trans howner) hu

/-- Two steps of one thread. -/
theorem keeps_trans {m₁ m₂ : SessionMemory} (h₁ : (sessionDiscipline prepares).Keeps t m m₁)
    (h₂ : (sessionDiscipline prepares).Keeps t m₁ m₂) :
    (sessionDiscipline prepares).Keeps t m m₂ :=
  ⟨h₂.inv, SessionGrows.trans h₁.grow h₂.grow,
    fun u hu => Undisturbed.trans (h₁.own u hu) (h₂.own u hu)⟩

theorem keeping_useIdentity (username password : String) (device : DeviceIdentity)
    {Z : JsError → SessionMemory → Prop} (h : Opening t operation m) :
    Keeping prepares t (segment (some operation) (useIdentity username password operation device))
      (fun _ m' => Opening t operation m') Z m := by
  refine keeping_whenCurrent (fun m₁ hd => steady_opening _ _ h hd) fun m₁ hd hcur => ?_
  obtain ⟨hk, hopen⟩ := keeps_identity hd.inv (steady_opening _ _ h hd) hcur device
  have hcall := Quiet.startCall (.login username password device)
    (m₁.set fun st => { st with deviceIdentity := some device })
  exact ⟨keeps_trans hk (hcall.keeps hk.inv),
    steady_opening _ _ hopen (hcall.drift hk.inv)⟩

theorem keeping_loginWithDeviceReplacement (username password : String)
    (h : Opening t operation m) :
    Keeping prepares t (loginWithDeviceReplacement username password operation)
      (fun _ m' => Opening t operation m') (fun _ _ => True) m := by
  refine (keeping_quiet steady_opening h (Quiet.startCall _)).bind fun call m h => ?_
  refine ((keeping_settled steady_opening h _ _).mono (fun _ _ h => h)
    (fun _ _ _ => trivial)).bind fun device m h => ?_
  refine (keeping_useIdentity username password device h.1).bind fun call m h => ?_
  cases call with
  | none => exact keeping_ret h
  | some call =>
      refine Keeping.bind (B := fun _ m' => Opening t operation m') (Keeping.attempt
        ((keeping_settled steady_opening h _ _).mono (fun _ _ h => h.1) (fun _ _ h => h)))
        fun answer m h => ?_
      cases answer with
      | ok _ => exact keeping_ret h
      | error error =>
          have hfail : Keeping prepares t
              (segment (some operation) (handleLoginFailure operation error))
              (fun _ m' => Opening t operation m') (fun _ _ => True) m := by
            refine keeping_whenCurrent (fun m₁ hd => steady_opening _ _ h hd)
              fun m₁ hd _ => ?_
            have hopen := steady_opening _ _ h hd
            split
            · have hcall := Quiet.startCall .identitiesReplace m₁
              exact ⟨hcall.keeps hd.inv, steady_opening _ _ hopen (hcall.drift hd.inv)⟩
            · exact ⟨Discipline.Keeps.refl hd.inv, hopen⟩
          refine hfail.bind fun step m h => ?_
          cases step with
          | superseded => exact keeping_ret h
          | rethrow => exact keeping_throw trivial
          | replace call =>
              refine ((keeping_settled steady_opening h _ _).mono (fun _ _ h => h)
                (fun _ _ _ => trivial)).bind fun device m h => ?_
              refine (keeping_useIdentity username password device h.1).bind fun call m h => ?_
              cases call with
              | none => exact keeping_ret h
              | some call =>
                  exact (keeping_settled steady_opening h _ _).mono (fun _ _ h => h.1)
                    (fun _ _ _ => trivial)

/-- Showing an account whose device matches and whose inbox is prepared. -/
theorem keeping_finishAccount (user : CurrentUser) (devices : List Device) (devicesCall : Nat)
    (h : Matched t operation user m) (hlisted : .resolved devicesCall .getDevices devices ∈ m.log)
    (hprepared : prepares = true → ∃ call, .resolved call (.prepareInbox user) () ∈ m.log) :
    Keeping prepares t
      (segment (some operation) (finishAccount operation user devices devicesCall))
      (fun _ _ => True) (fun _ _ => True) m := by
  refine keeping_whenCurrent (fun _ _ => trivial) fun m₁ hd hcur => ⟨?_, trivial⟩
  obtain ⟨-, hgen⟩ := isCurrent_iff.mp hcur
  obtain ⟨hopen, hmatch⟩ := steady_matched _ _ h hd
  obtain ⟨howner, hphase⟩ := hopen.2 hgen.symm
  obtain ⟨device, hdevice, hid⟩ := Option.map_eq_some_iff.mp (hmatch hgen.symm)
  have hnone : .revoked operation ∉ m₁.log := by
    intro hmem
    rw [hgen] at hmem
    exact hphase (hd.inv.revokedPhase hmem)
  refine ⟨⟨?_, ?_, ?_, ?_⟩, ⟨le_rfl, le_rfl, fun _ => ⟨rfl, rfl, fun _ => rfl, rfl⟩, [_], rfl,
    by simp, fun _ _ => ⟨devicesCall, by simp [hgen]⟩⟩, fun u hu => ⟨le_rfl, fun _ =>
      ⟨rfl, fun ho => absurd (ho.symm.trans howner) hu⟩⟩⟩
  · intro _
    refine ⟨user, device, rfl, hdevice, hid.symm, fun hp => ?_⟩
    obtain ⟨call, hcall⟩ := hprepared hp
    exact ⟨call, List.mem_cons_of_mem _ (steady_mem _ _ hcall hd)⟩
  · intro _
    rfl
  · intro g hg
    rcases List.mem_cons.mp hg with hg | hg
    · cases hg
    · exact hd.inv.revokedLe g hg
  · exact ⟨startedAfter_of_none hnone, steady_mem _ _ hlisted hd, hd.inv.respects⟩

theorem keeping_loadAccount (h : Opening t operation m) :
    Keeping prepares t (loadAccount prepares operation) (fun _ _ => True) (fun _ _ => True) m := by
  refine Keeping.bind (B := fun _ m' => Opening t operation m') ?_ fun calls m h => ?_
  · exact keeping_quiet steady_opening h
      fun m => (Quiet.startCall .getCurrentUser m).trans (Quiet.startCall .getDevices _)
  refine Keeping.bind (B := fun answer m' => Opening t operation m' ∧
    .resolved calls.2 .getDevices answer.2 ∈ m'.log) ?_ fun answer m h => ?_
  · intro m₁ hd r m₂ hx
    have hopen := steady_opening _ _ h hd
    cases r with
    | error x =>
        obtain rfl : m₂ = m₁ := hx
        exact ⟨Discipline.Keeps.refl hd.inv, keeping_throw trivial⟩
    | ok answer =>
        obtain rfl : m₂ = { m₁ with
          log := .resolved calls.2 .getDevices answer.2 ::
            .resolved calls.1 .getCurrentUser answer.1 :: m₁.log } := hx
        have hquiet : Quiet m₁ { m₁ with
            log := .resolved calls.2 .getDevices answer.2 ::
              .resolved calls.1 .getCurrentUser answer.1 :: m₁.log } :=
          ⟨rfl, rfl, rfl, rfl, rfl, rfl, rfl, rfl, le_rfl, [_, _], rfl,
            by simp [SessionEvent.isCall]⟩
        exact ⟨hquiet.keeps hd.inv, steady_opening _ _ hopen (hquiet.drift hd.inv),
          List.mem_cons_self⟩
  · obtain ⟨user, devices⟩ := answer
    obtain ⟨h, hlisted⟩ := h
    have hcheck : Keeping prepares t
        (segment (some operation) (checkAccount prepares operation user))
        (fun step m' => match step with
          | .prepare call => (Matched t operation user m' ∧
              .resolved calls.2 .getDevices devices ∈ m'.log) ∧ (call = none → prepares = false)
          | _ => True) (fun _ _ => True) m := by
      refine keeping_whenCurrent (fun _ _ => trivial) fun m₁ hd hcur => ?_
      obtain ⟨-, hgen⟩ := isCurrent_iff.mp hcur
      have hopen := steady_opening _ _ h hd
      have hlisted := steady_mem _ _ hlisted hd
      simp only
      split_ifs with hmismatch hprepares
      · exact ⟨(Quiet.startCall _ m₁).keeps hd.inv, trivial⟩
      · have hquiet := Quiet.startCall (.prepareInbox user) m₁
        refine ⟨hquiet.keeps hd.inv, ⟨?_, List.mem_cons_of_mem _ hlisted⟩, by simp⟩
        exact steady_matched _ _ ⟨hopen, fun _ => not_not.mp hmismatch⟩ (hquiet.drift hd.inv)
      · exact ⟨Discipline.Keeps.refl hd.inv, ⟨⟨hopen, fun _ => not_not.mp hmismatch⟩, hlisted⟩,
          fun _ => by simpa using hprepares⟩
    refine hcheck.bind fun step m h => ?_
    cases step with
    | superseded => exact keeping_ret trivial
    | mismatch call =>
        refine ((keeping_settled steady_true trivial _ _).mono (fun _ _ h => h)
          (fun _ _ _ => trivial)).bind fun _ m _ => ?_
        exact keeping_throw trivial
    | prepare call =>
        obtain ⟨hmatched, hcall⟩ := h
        cases call with
        | none =>
            refine keeping_finishAccount user devices _ hmatched.1 hmatched.2 fun hp => ?_
            rw [hcall rfl] at hp
            cases hp
        | some call =>
            refine ((keeping_settled (steady_and steady_matched steady_mem) hmatched _ _).mono
              (fun _ _ h => h) (fun _ _ _ => trivial)).bind fun _ m h => ?_
            exact keeping_finishAccount user devices _ h.1.1 h.1.2 fun _ => ⟨call, h.2⟩

theorem keeping_finishAuthenticate (error : Option JsError) (registered : Bool) :
    Keeping prepares t (segment (some operation) (finishAuthenticate operation error registered))
      (fun _ _ => True) (fun _ _ => True) m := by
  refine keeping_whenCurrent (fun _ _ => trivial) fun m₁ hd _ => ⟨?_, trivial⟩
  exact Quiet.keeps ⟨rfl, rfl, rfl, rfl, rfl, rfl, rfl, rfl, le_rfl, [], rfl, by simp⟩ hd.inv

theorem keeping_signIn (username password : String) (h : Opening t operation m) :
    Keeping prepares t (signIn prepares username password operation) (fun _ _ => True)
      (fun _ _ => True) m := by
  refine (keeping_loginWithDeviceReplacement username password h).bind fun _ m h => ?_
  refine (keeping_quiet steady_opening h fun m => Quiet.refl m).bind fun current m h => ?_
  cases current with
  | false => exact keeping_ret trivial
  | true => exact keeping_loadAccount h

/-- The end of `authenticate`. -/
theorem keeping_signInAndFinish (username password : String) (registered : Bool)
    (h : Opening t operation m) :
    Keeping prepares t
      (do
        match ← Prog.attempt (signIn prepares username password operation) with
        | .error error =>
            segment (some operation) (finishAuthenticate operation (some error) registered)
        | .ok _ => segment (some operation) (finishAuthenticate operation none registered))
      (fun _ _ => True) (fun _ _ => True) m := by
  refine Keeping.bind (B := fun _ _ => True)
    (Keeping.attempt (keeping_signIn username password h)) fun answer m _ => ?_
  cases answer with
  | error x => exact keeping_finishAuthenticate _ _
  | ok _ => exact keeping_finishAuthenticate _ _

theorem keeping_authenticate (username password : String) (registering : Bool) :
    Keeping prepares t (authenticate prepares t username password registering) (fun _ _ => True)
      (fun _ _ => True) m := by
  have hbegin : Keeping prepares t (segment none (beginAuthenticate t))
      (fun operation m' => ∀ n ∈ operation, Opening t n m') (fun _ _ => True) m := by
    refine keeping_segment fun m₁ hd => ?_
    unfold beginAuthenticate
    split_ifs with hbusy
    · exact ⟨Discipline.Keeps.refl hd.inv, by simp⟩
    · have hphase : m₁.store.phase = .anonymous := by
        simp only [Bool.or_eq_true, decide_eq_true_eq, not_or, not_not] at hbusy
        exact hbusy.1.1.2
      have hne : m₁.store.phase ≠ .authenticated := by simp [hphase]
      refine ⟨keeps_newGeneration hd.inv rfl rfl ⟨[], rfl, by simp⟩
        (accountReady_of_phase hne), ?_⟩
      rintro n ⟨rfl⟩
      exact ⟨le_rfl, fun _ => ⟨rfl, hne⟩⟩
  refine hbegin.bind fun operation m h => ?_
  cases operation with
  | none => exact keeping_ret trivial
  | some operation =>
      have hopen := h operation rfl
      cases registering with
      | false => exact keeping_signInAndFinish (trim username) password false hopen
      | true =>
          refine (keeping_quiet steady_opening hopen (Quiet.startCall _)).bind
            fun call m h => ?_
          refine Keeping.bind (B := fun _ m' => Opening t operation m') (Keeping.attempt
            ((keeping_settled steady_opening h _ _).mono (fun _ _ h => h.1) (fun _ _ h => h)))
            fun answer m h => ?_
          cases answer with
          | error x => exact keeping_finishAuthenticate _ _
          | ok _ =>
              refine (keeping_quiet steady_opening h fun m => Quiet.refl m).bind
                fun current m h => ?_
              cases current with
              | false => exact keeping_finishAuthenticate _ _
              | true => exact keeping_signInAndFinish (trim username) password true h

/-- Closing the session, from the first segment of `signOut` on. -/
theorem keeps_beginSignOut (hm : SessionInv prepares m) :
    (sessionDiscipline prepares).Keeps t m (beginSignOut t m).2 := by
  unfold beginSignOut
  split_ifs with hbusy
  · exact Discipline.Keeps.refl hm
  · refine keeps_newGeneration hm rfl rfl ⟨[_], rfl, by simp [SessionEvent.isCall]⟩ ?_
    intro hphase
    obtain ⟨user, device, huser, hdevice, hid, hprepared⟩ := hm.ready hphase
    refine ⟨user, device, huser, hdevice, hid, fun hp => ?_⟩
    obtain ⟨call, hcall⟩ := hprepared hp
    exact ⟨call, List.mem_cons_of_mem _ hcall⟩

theorem keeping_awaitSignOut (revoked : Bool) (call : Nat) :
    Keeping prepares t (awaitSignOut t revoked operation call) (fun _ _ => True)
      (fun _ _ => True) m := by
  refine Keeping.bind (B := fun _ _ => True) (Keeping.attempt
    ((keeping_settled steady_true trivial _ _).mono (fun _ _ _ => trivial)
      (fun _ _ _ => trivial))) fun answer m _ => ?_
  cases answer with
  | ok _ =>
      exact keeping_whenCurrent (fun _ _ => trivial)
        fun m₁ hd _ => ⟨keeps_clear hd.inv none, trivial⟩
  | error x =>
      exact keeping_whenCurrent (fun _ _ => trivial)
        fun m₁ hd _ => ⟨keeps_clear hd.inv (some (signOutWarning revoked x)), trivial⟩

theorem keeping_logout :
    Keeping prepares t (logout t) (fun _ _ => True) (fun _ _ => True) m := by
  refine Keeping.bind (B := fun _ _ => True)
    (keeping_segment fun m₁ hd => ⟨keeps_beginSignOut hd.inv, trivial⟩) fun step m _ => ?_
  cases step with
  | none => exact keeping_ret trivial
  | some step => exact keeping_awaitSignOut false step.2

theorem keeping_restoreSession (call : Nat) (h : Opening t operation m) :
    Keeping prepares t (restoreSession prepares t operation call) (fun _ _ => True)
      (fun _ _ => True) m := by
  refine ((keeping_settled steady_opening h _ _).mono (fun _ _ h => h)
    (fun _ _ _ => trivial)).bind fun device m h => ?_
  have hidentity : Keeping prepares t
      (segment (some operation) (restoreIdentity operation device))
      (fun _ m' => Opening t operation m') (fun _ _ => True) m := by
    refine keeping_whenCurrent (fun m₁ hd => steady_opening _ _ h.1 hd) fun m₁ hd hcur => ?_
    obtain ⟨hk, hopen⟩ := keeps_identity hd.inv (steady_opening _ _ h.1 hd) hcur device
    have hcall := Quiet.startCall .restoreSession
      (m₁.set fun st => { st with deviceIdentity := some device })
    exact ⟨keeps_trans hk (hcall.keeps hk.inv), steady_opening _ _ hopen (hcall.drift hk.inv)⟩
  refine hidentity.bind fun call m h => ?_
  cases call with
  | none => exact keeping_ret trivial
  | some call =>
      refine ((keeping_settled steady_opening h _ _).mono (fun _ _ h => h)
        (fun _ _ _ => trivial)).bind fun restored m h => ?_
      have hanswer : Keeping prepares t
          (segment (some operation) (restoreAnswer t operation restored))
          (fun load m' => load = true → Opening t operation m') (fun _ _ => True) m := by
        refine keeping_whenCurrent (fun _ _ h => by cases h) fun m₁ hd _ => ?_
        cases restored with
        | true => exact ⟨Discipline.Keeps.refl hd.inv, fun _ => steady_opening _ _ h.1 hd⟩
        | false => exact ⟨keeps_clear hd.inv none, fun h => by cases h⟩
      refine hanswer.bind fun load m h => ?_
      cases load with
      | false => exact keeping_ret trivial
      | true => exact keeping_loadAccount (h rfl)

theorem keeping_restore :
    Keeping prepares t (restore prepares t) (fun _ _ => True) (fun _ _ => True) m := by
  have hbegin : Keeping prepares t (segment none (beginRestore t))
      (fun step m' => Opening t step.1 m') (fun _ _ => True) m := by
    refine keeping_segment fun m₁ hd => ?_
    have hphase : (beginRestore t m₁).2.store.phase ≠ .authenticated := by
      simp [beginRestore, SessionMemory.set, startCall]
    exact ⟨keeps_newGeneration hd.inv rfl rfl ⟨[_], rfl, by simp [SessionEvent.isCall]⟩
      (accountReady_of_phase hphase), le_rfl, fun _ => ⟨rfl, hphase⟩⟩
  refine hbegin.bind fun step m h => ?_
  refine Keeping.bind (B := fun _ _ => True)
    (Keeping.attempt (keeping_restoreSession step.2 h)) fun answer m _ => ?_
  cases answer with
  | ok _ => exact keeping_ret trivial
  | error x =>
      exact keeping_whenCurrent (fun _ _ => trivial)
        fun m₁ hd _ => ⟨keeps_clear hd.inv _, trivial⟩

/-- A device list that is asked for now. -/
theorem beginRefresh_spec (m : SessionMemory) :
    Quiet m (beginRefresh m).2 ∧
      (m.active = true → m.store.phase = .authenticated → m.store.signingOut = false →
        (beginRefresh m).2.devicesRevision = m.devicesRevision + 1) ∧
      ∀ step ∈ (beginRefresh m).1, Asked step.1 step.2.1 step.2.2 (beginRefresh m).2 := by
  unfold beginRefresh
  split_ifs with hbusy
  · refine ⟨Quiet.refl m, fun ha hp hs => ?_, by simp⟩
    simp [ha, hp, hs] at hbusy
  · refine ⟨⟨rfl, rfl, rfl, rfl, rfl, rfl, rfl, rfl, Nat.le_succ _, [_], rfl,
      by simp [SessionEvent.isCall]⟩, fun _ _ _ => rfl, ?_⟩
    rintro step ⟨rfl⟩
    exact ⟨le_rfl, fun _ => startedAfter_now _ _ _⟩

theorem keeping_awaitRefresh {revision call : Nat} (h : Asked operation revision call m) :
    Keeping prepares t (awaitRefresh operation revision call) (fun _ _ => True)
      (fun _ _ => True) m := by
  refine Keeping.bind (B := fun answer m' => Asked operation revision call m' ∧
      ∀ devices, answer = .ok devices → .resolved call .getDevices devices ∈ m'.log)
    (Keeping.attempt ((keeping_settled steady_asked h _ _).mono ?_ ?_)) fun answer m h => ?_
  · rintro devices m' ⟨hasked, hlisted⟩
    refine ⟨hasked, ?_⟩
    rintro _ ⟨rfl⟩
    exact hlisted
  · intro x m' hasked
    exact ⟨hasked, by simp⟩
  refine keeping_whenCurrent (fun _ _ => trivial) fun m₁ hd hcur => ⟨?_, trivial⟩
  obtain ⟨-, hgen⟩ := isCurrent_iff.mp hcur
  obtain ⟨-, hasked⟩ := steady_asked _ _ h.1 hd
  split_ifs with hrev
  · cases answer with
    | error x =>
        exact Quiet.keeps ⟨rfl, rfl, rfl, rfl, rfl, rfl, rfl, rfl, le_rfl, [], rfl, by simp⟩ hd.inv
    | ok devices =>
        have hlisted := steady_mem _ _ (h.2 devices rfl) hd
        refine ⟨⟨?_, hd.inv.revokedPhase ∘ ?_, ?_, hasked hrev, hlisted, hd.inv.respects⟩,
          ⟨le_rfl, le_rfl, fun _ => ⟨rfl, rfl, id, rfl⟩, [_], rfl, by simp,
            fun _ _ => ⟨call, by simp [hgen]⟩⟩,
          fun u hu => ⟨le_rfl, fun _ => ⟨rfl, fun _ => ⟨rfl, rfl⟩⟩⟩⟩
        · intro hphase
          obtain ⟨user, device, huser, hdevice, hid, hprepared⟩ := hd.inv.ready hphase
          refine ⟨user, device, huser, hdevice, hid, fun hp => ?_⟩
          obtain ⟨n, hn⟩ := hprepared hp
          exact ⟨n, List.mem_cons_of_mem _ hn⟩
        · intro hg
          rcases List.mem_cons.mp hg with hg | hg
          · cases hg
          · exact hg
        · intro g hg
          rcases List.mem_cons.mp hg with hg | hg
          · cases hg
          · exact hd.inv.revokedLe g hg
  · exact Discipline.Keeps.refl hd.inv

theorem keeping_refreshDevices :
    Keeping prepares t refreshDevices (fun _ _ => True) (fun _ _ => True) m := by
  refine Keeping.bind
    (B := fun step m' => ∀ s ∈ step, Asked s.1 s.2.1 s.2.2 m')
    (keeping_segment fun m₁ hd => ⟨(beginRefresh_spec m₁).1.keeps hd.inv,
      (beginRefresh_spec m₁).2.2⟩) fun step m h => ?_
  cases step with
  | none => exact keeping_ret trivial
  | some step => exact keeping_awaitRefresh (h step rfl)

/-- What a completed revocation of another device does: the log records it,
and the device list is asked for again under a new revision. -/
theorem afterRevoke_other {device : Device} (hother : device.isCurrent = false)
    (hcur : m.isCurrent operation = true) (hserving : Serving operation m) :
    ∃ call, afterRevoke t operation device m =
      (.refresh m.generation (m.devicesRevision + 1) call,
        { m with
          store := { m.store with accountError := none }
          devicesRevision := m.devicesRevision + 1
          calls := m.calls + 1
          log := .started call .getDevices :: .revoked operation :: m.log }) := by
  obtain ⟨hactive, hgen⟩ := isCurrent_iff.mp hcur
  obtain ⟨hphase, hout⟩ := hserving.2 hgen.symm
  refine ⟨m.calls, ?_⟩
  simp [afterRevoke, whenCurrent, hcur, hother, beginRefresh, hactive, hphase, hout,
    SessionMemory.set, startCall]

theorem keeps_revoked (call : Nat) (hm : SessionInv prepares m)
    (hcur : m.isCurrent operation = true) (hserving : Serving operation m) :
    (sessionDiscipline prepares).Keeps t m
      { m with
        store := { m.store with accountError := none }
        devicesRevision := m.devicesRevision + 1
        calls := m.calls + 1
        log := .started call .getDevices :: .revoked operation :: m.log } := by
  obtain ⟨-, hgen⟩ := isCurrent_iff.mp hcur
  have hphase := (hserving.2 hgen.symm).1
  refine ⟨⟨?_, fun _ => hphase, ?_, hm.respects⟩,
    ⟨le_rfl, Nat.le_succ _, fun _ => ⟨rfl, rfl, id, rfl⟩, [_, _], rfl, ?_,
      fun _ h => absurd rfl h⟩,
    fun u _ => ⟨le_rfl, fun _ => ⟨rfl, fun _ => ⟨rfl, rfl⟩⟩⟩⟩
  · intro _
    obtain ⟨user, device, huser, hdevice, hid, hprepared⟩ := hm.ready hphase
    refine ⟨user, device, huser, hdevice, hid, fun hp => ?_⟩
    obtain ⟨n, hn⟩ := hprepared hp
    exact ⟨n, List.mem_cons_of_mem _ (List.mem_cons_of_mem _ hn)⟩
  · intro g hg
    simp only [List.mem_cons, SessionEvent.revoked.injEq] at hg
    rcases hg with hg | hg | hg
    · cases hg
    · exact hg.trans_le hgen.le
    · exact hm.revokedLe g hg
  · intro hsame
    exact absurd hsame (Nat.succ_ne_self _)

theorem beginRevoke_spec (deviceId : String) (m : SessionMemory) :
    Quiet m (beginRevoke deviceId m).2 ∧
      ∀ step ∈ (beginRevoke deviceId m).1, Serving step.1 (beginRevoke deviceId m).2 := by
  unfold beginRevoke
  split_ifs with hbusy
  · exact ⟨Quiet.refl m, by simp⟩
  · split
    · exact ⟨Quiet.refl m, by simp⟩
    · split_ifs with hrevoked
      · exact ⟨Quiet.refl m, by simp⟩
      · refine ⟨⟨rfl, rfl, rfl, rfl, rfl, rfl, rfl, rfl, Nat.le_succ _, [_], rfl,
          by simp [SessionEvent.isCall]⟩, ?_⟩
        simp only [Bool.or_eq_true, decide_eq_true_eq, not_or, not_not] at hbusy
        rintro step ⟨rfl⟩
        have hout : m.store.signingOut = false := by simpa using hbusy.2
        exact ⟨le_rfl, fun _ => ⟨hbusy.1.1.2, hout⟩⟩

theorem keeping_revoke (deviceId : String) (device : Device) (call : Nat)
    (h : Serving operation m) :
    Keeping prepares t (revoke t deviceId operation device call) (fun _ _ => True)
      (fun _ _ => True) m := by
  refine ((keeping_settled steady_serving h _ _).mono (fun _ _ h => h.1)
    (fun _ _ _ => trivial)).bind fun _ m h => ?_
  have hafter : Keeping prepares t (segment (some operation) (afterRevoke t operation device))
      (fun step m' => match step with
        | .refresh operation revision call => Asked operation revision call m'
        | _ => True) (fun _ _ => True) m := by
    refine keeping_segment fun m₁ hd => ?_
    by_cases hcur : m₁.isCurrent operation = true
    · have hserving := steady_serving _ _ h hd
      cases hown : device.isCurrent with
      | true =>
          have hk := keeps_beginSignOut (t := t) hd.inv
          simp only [afterRevoke, whenCurrent, hcur, hown, if_true]
          split
          · rename_i heq
            rw [heq] at hk
            exact ⟨hk, trivial⟩
          · rename_i heq
            rw [heq] at hk
            exact ⟨hk, trivial⟩
      | false =>
          obtain ⟨call, heq⟩ := afterRevoke_other (t := t) hown hcur hserving
          obtain ⟨-, hgen⟩ := isCurrent_iff.mp hcur
          rw [heq]
          refine ⟨keeps_revoked call hd.inv hcur hserving, le_rfl, fun _ => ?_⟩
          exact startedAfter_now _ _ _
    · simp only [afterRevoke, whenCurrent, hcur]
      exact ⟨Discipline.Keeps.refl hd.inv, trivial⟩
  refine hafter.bind fun step m h => ?_
  cases step with
  | stop => exact keeping_ret trivial
  | signOut operation call => exact keeping_awaitSignOut true call
  | refresh operation revision call => exact keeping_awaitRefresh h

theorem keeping_finishRevoke (error : Option JsError) :
    Keeping prepares t (segment (some operation) (finishRevoke operation error))
      (fun _ _ => True) (fun _ _ => True) m := by
  refine keeping_whenCurrent (fun _ _ => trivial) fun m₁ hd _ => ⟨?_, trivial⟩
  exact Quiet.keeps ⟨rfl, rfl, rfl, rfl, rfl, rfl, rfl, rfl, le_rfl, [], rfl, by simp⟩ hd.inv

theorem keeping_revokeDevice (deviceId : String) :
    Keeping prepares t (revokeDevice t deviceId) (fun _ _ => True) (fun _ _ => True) m := by
  refine Keeping.bind (B := fun step m' => ∀ s ∈ step, Serving s.1 m')
    (keeping_segment fun m₁ hd => ⟨(beginRevoke_spec deviceId m₁).1.keeps hd.inv,
      (beginRevoke_spec deviceId m₁).2⟩) fun step m h => ?_
  cases step with
  | none => exact keeping_ret trivial
  | some step =>
      refine Keeping.bind (B := fun _ _ => True)
        (Keeping.attempt (keeping_revoke deviceId step.2.1 step.2.2 (h step rfl)))
        fun answer m _ => ?_
      cases answer with
      | ok _ => exact keeping_finishRevoke none
      | error x => exact keeping_finishRevoke (some x)

theorem keeps_dispose (hm : SessionInv prepares m) :
    (sessionDiscipline prepares).Keeps t m (disposeSession t m).2 :=
  keeps_newGeneration hm rfl rfl ⟨[], rfl, by simp⟩ hm.ready

theorem keeps_sessionExpired (hm : SessionInv prepares m) :
    (sessionDiscipline prepares).Keeps t m (sessionExpired t m).2 := by
  unfold sessionExpired
  split_ifs with hlive
  · exact keeps_clear hm _
  · exact Discipline.Keeps.refl hm

theorem keeping_prog (op : SessionOp) :
    Keeping prepares t (op.prog prepares t) (fun _ _ => True) (fun _ _ => True) m := by
  cases op with
  | restore => exact keeping_restore
  | login username password =>
      exact (keeping_authenticate username password false).bind fun _ _ _ => keeping_ret trivial
  | register username password =>
      exact (keeping_authenticate username password true).bind fun _ _ _ => keeping_ret trivial
  | refreshDevices => exact keeping_refreshDevices
  | revokeDevice deviceId => exact keeping_revokeDevice deviceId
  | logout => exact keeping_logout
  | clearAuthError =>
      refine keeping_segment fun m₁ hd => ⟨?_, trivial⟩
      exact Quiet.keeps ⟨rfl, rfl, rfl, rfl, rfl, rfl, rfl, rfl, le_rfl, [], rfl, by simp⟩ hd.inv
  | dispose => exact keeping_segment fun m₁ hd => ⟨keeps_dispose hd.inv, trivial⟩
  | sessionExpired => exact keeping_segment fun m₁ hd => ⟨keeps_sessionExpired hd.inv, trivial⟩

/-- The session store keeps the discipline. -/
theorem session_respected :
    (sessionDiscipline prepares).Respected (sessionSystem prepares) where
  start t op m m' hm _ hs := by
    obtain rfl : m' = m := hs
    exact ⟨Discipline.Keeps.refl hm, keeping_prog op⟩
  stop _ _ _ _ hs := by cases hs
  env _ _ _ hs := by cases hs

end Programs

section Superseded

variable {prepares : Bool} {t : Tid} {operation : Nat}

/-- The call continues a named operation, and leaves the store alone unless
that operation is current. -/
def Guarded : SessionCall → Prop
  | .segment none _ => False
  | .segment (some operation) f =>
      ∀ m : SessionMemory, m.isCurrent operation = false → (f m).2.store = m.store
  | .settle _ => True

theorem guarded_settled (g : SessionGateway) (call : Nat) :
    Prog.Calls Guarded (settled g call) :=
  calls_awaits trivial

theorem guarded_whenCurrent {α : Type} {stale : α} {f : SessionMemory → α × SessionMemory} :
    Prog.Calls Guarded
      (segment (some operation) (whenCurrent operation stale f) : SessionProg α) := by
  refine ⟨fun m hm => ?_, fun _ => trivial⟩
  simp [whenCurrent, hm]

/-- A segment that does not write the store. -/
theorem guarded_reads {α : Type} {f : SessionMemory → α × SessionMemory}
    (hf : ∀ m, (f m).2.store = m.store) :
    Prog.Calls Guarded (segment (some operation) f : SessionProg α) :=
  ⟨fun m _ => hf m, fun _ => trivial⟩

theorem guarded_loadAccount : Prog.Calls Guarded (loadAccount prepares operation) := by
  refine (guarded_reads fun _ => rfl).bind fun calls => ?_
  refine Prog.Calls.bind (calls_awaits trivial) fun answer => ?_
  refine Prog.Calls.bind guarded_whenCurrent fun step => ?_
  rcases step with - | call | (- | call)
  · trivial
  · exact (guarded_settled _ _).bind fun _ => trivial
  · exact guarded_whenCurrent
  · exact (guarded_settled _ _).bind fun _ => guarded_whenCurrent

theorem guarded_loginWithDeviceReplacement (username password : String) :
    Prog.Calls Guarded (loginWithDeviceReplacement username password operation) := by
  refine (guarded_reads fun _ => rfl).bind fun call => ?_
  refine (guarded_settled _ _).bind fun device => ?_
  refine Prog.Calls.bind guarded_whenCurrent fun call => ?_
  cases call with
  | none => trivial
  | some call =>
      refine (guarded_settled _ _).attempt.bind fun answer => ?_
      cases answer with
      | ok _ => trivial
      | error error =>
          refine Prog.Calls.bind guarded_whenCurrent fun step => ?_
          cases step with
          | superseded => trivial
          | rethrow => trivial
          | replace call =>
              refine (guarded_settled _ _).bind fun device => ?_
              refine Prog.Calls.bind guarded_whenCurrent fun call => ?_
              cases call with
              | none => trivial
              | some call => exact guarded_settled _ _

theorem guarded_signIn (username password : String) :
    Prog.Calls Guarded (signIn prepares username password operation) := by
  refine (guarded_loginWithDeviceReplacement username password).bind fun _ => ?_
  refine (guarded_reads fun _ => rfl).bind fun current => ?_
  cases current with
  | false => trivial
  | true => exact guarded_loadAccount

theorem guarded_finish (registered : Bool) (answer : Except JsError Unit) :
    Prog.Calls Guarded
      (match answer with
        | .error error =>
            segment (some operation) (finishAuthenticate operation (some error) registered)
        | .ok _ =>
            segment (some operation) (finishAuthenticate operation none registered) :
        SessionProg Bool) := by
  cases answer with
  | ok _ => exact guarded_whenCurrent
  | error x => exact guarded_whenCurrent

theorem guarded_awaitSignOut (revoked : Bool) (call : Nat) :
    Prog.Calls Guarded (awaitSignOut t revoked operation call) := by
  refine (guarded_settled _ _).attempt.bind fun answer => ?_
  cases answer with
  | ok _ => exact guarded_whenCurrent
  | error x => exact guarded_whenCurrent

theorem guarded_restoreSession (call : Nat) :
    Prog.Calls Guarded (restoreSession prepares t operation call) := by
  refine (guarded_settled _ _).bind fun device => ?_
  refine Prog.Calls.bind guarded_whenCurrent fun call => ?_
  cases call with
  | none => trivial
  | some call =>
      refine (guarded_settled _ _).bind fun restored => ?_
      refine Prog.Calls.bind guarded_whenCurrent fun load => ?_
      cases load with
      | false => trivial
      | true => exact guarded_loadAccount

theorem guarded_awaitRefresh (revision call : Nat) :
    Prog.Calls Guarded (awaitRefresh operation revision call) :=
  (guarded_settled _ _).attempt.bind fun _ => guarded_whenCurrent

theorem guarded_revoke (deviceId : String) (device : Device) (call : Nat) :
    Prog.Calls Guarded (revoke t deviceId operation device call) := by
  refine (guarded_settled _ _).bind fun _ => ?_
  refine Prog.Calls.bind guarded_whenCurrent fun step => ?_
  cases step with
  | stop => trivial
  | signOut operation call => exact guarded_awaitSignOut true call
  | refresh operation revision call => exact guarded_awaitRefresh revision call

/-- An operation begins with a segment of its own. -/
theorem begins_segment {α β : Type} {f : SessionMemory → α × SessionMemory}
    {h : α → SessionProg β} (hh : ∀ a, Prog.Calls Guarded (h a)) :
    ∃ e k, segment none f >>= h = .eff e k ∧ ∀ r, Prog.Calls Guarded (k r) :=
  ⟨_, _, rfl, hh⟩

/-- After its first segment an operation only makes guarded calls. -/
theorem guarded_prog (t : Tid) (op : SessionOp) :
    ∃ e k, op.prog prepares t = .eff e k ∧ ∀ r, Prog.Calls Guarded (k r) := by
  cases op with
  | restore =>
      refine begins_segment fun step => ?_
      refine Prog.Calls.bind (guarded_restoreSession _).attempt fun answer => ?_
      cases answer with
      | ok _ => trivial
      | error x => exact guarded_whenCurrent
  | login username password =>
      refine ⟨_, _, rfl, fun operation => Prog.Calls.bind ?_ fun _ => trivial⟩
      cases operation with
      | none => trivial
      | some operation =>
          exact (guarded_signIn _ _).attempt.bind fun answer => guarded_finish false answer
  | register username password =>
      refine ⟨_, _, rfl, fun operation => Prog.Calls.bind ?_ fun _ => trivial⟩
      cases operation with
      | none => trivial
      | some operation =>
          refine (guarded_reads fun _ => rfl).bind fun call => ?_
          refine (guarded_settled _ _).attempt.bind fun answer => ?_
          cases answer with
          | error x => exact guarded_whenCurrent
          | ok _ =>
              refine (guarded_reads fun _ => rfl).bind fun current => ?_
              cases current with
              | false => exact guarded_whenCurrent
              | true =>
                  exact (guarded_signIn _ _).attempt.bind fun answer => guarded_finish true answer
  | refreshDevices =>
      refine begins_segment fun step => ?_
      cases step with
      | none => trivial
      | some step => exact guarded_awaitRefresh _ _
  | revokeDevice deviceId =>
      refine begins_segment fun step => ?_
      cases step with
      | none => trivial
      | some step =>
          refine Prog.Calls.bind (guarded_revoke _ _ _).attempt fun answer => ?_
          cases answer with
          | ok _ => exact guarded_whenCurrent
          | error x => exact guarded_whenCurrent
  | logout =>
      refine begins_segment fun step => ?_
      cases step with
      | none => trivial
      | some step => exact guarded_awaitSignOut false _
  | clearAuthError => exact ⟨_, _, rfl, fun _ => trivial⟩
  | dispose => exact ⟨_, _, rfl, fun _ => trivial⟩
  | sessionExpired => exact ⟨_, _, rfl, fun _ => trivial⟩

end Superseded

section Runs

variable {prepares : Bool} {p p' p'' : Pool SessionCall SessionCall.Answer JsError SessionMemory}
  {t : Tid}

/-- The store right after `createSessionStore`. -/
def Fresh (m : SessionMemory) : Prop :=
  m = {}

theorem fresh_inv (m : SessionMemory) (h : Fresh m) :
    (sessionDiscipline prepares).inv m ∧ ∀ t, (sessionDiscipline prepares).idle t m := by
  obtain rfl := h
  exact ⟨⟨accountReady_of_phase (by simp), by simp, by simp, trivial⟩, fun _ => trivial⟩

theorem SessionPromise.settles_store {g : SessionPromise} {m m' : SessionMemory}
    {r : Except JsError g.Reply} (h : g.settles m r m') : m'.store = m.store := by
  cases g with
  | response g call =>
      cases r with
      | ok a =>
          obtain rfl : m' = _ := h
          rfl
      | error x =>
          obtain rfl : m' = m := h
          rfl
  | loaded userCall devicesCall =>
      cases r with
      | ok a =>
          obtain rfl : m' = _ := h
          rfl
      | error x =>
          obtain rfl : m' = m := h
          rfl

/-- What changes the store is the first segment of an operation or a segment of
a current one. -/
theorem store_change (hp : System.Reachable (sessionSystem prepares) Fresh p)
    (hs : System.Step (sessionSystem prepares) (.act t) p p')
    (hne : p'.shared.store ≠ p.shared.store) :
    (∃ op : SessionOp, p.threads t = some (op.prog prepares t)) ∨
      ∃ (g : Nat) (α : Type) (f : SessionMemory → α × SessionMemory) (k : α → SessionProg Unit),
        p.threads t = some (.eff (.segment (some g) f) k) ∧ p.shared.isCurrent g = true := by
  cases hs with
  | act ht hx =>
      rcases hp.begun guarded_prog t _ ht with ⟨op, hop⟩ | hcalls
      · exact .inl ⟨op, ht.trans (congrArg some hop)⟩
      · rename_i e k r m'
        refine .inr ?_
        cases e with
        | segment operation f =>
            obtain ⟨-, rfl⟩ := hx
            cases operation with
            | none => exact hcalls.1.elim
            | some g =>
                refine ⟨g, _, f, k, ht, ?_⟩
                by_contra hstale
                exact hne (hcalls.1 _ (by simpa using hstale))
        | settle g => exact absurd (SessionPromise.settles_store hx) hne

/-- Main result.  In every run: an authenticated phase shows an account of this
device with a prepared inbox; what changes the store later is a new call from
outside or an operation that is not superseded; and a device list set in a
generation was asked for after every revocation that completed before in it. -/
theorem session_store_is_safe (prepares : Bool)
    (p : Pool SessionCall SessionCall.Answer JsError SessionMemory)
    (hp : System.Reachable (sessionSystem prepares) Fresh p) :
    (p.shared.store.phase = .authenticated →
      ∃ user device, p.shared.store.user = some user ∧
        p.shared.store.deviceIdentity = some device ∧ user.deviceId = device.id ∧
        (prepares = true → ∃ call, .resolved call (.prepareInbox user) () ∈ p.shared.log)) ∧
    (∀ p' p'' t, System.Reaches (sessionSystem prepares) p p' →
      System.Step (sessionSystem prepares) (.act t) p' p'' →
      p''.shared.store ≠ p'.shared.store →
      (∃ op : SessionOp, p'.threads t = some (op.prog prepares t)) ∨
        ∃ (g : Nat) (α : Type) (f : SessionMemory → α × SessionMemory) (k : α → SessionProg Unit),
          p'.threads t = some (.eff (.segment (some g) f) k) ∧
            p'.shared.isCurrent g = true ∧ p.shared.generation ≤ g) ∧
    (∀ p', System.Reaches (sessionSystem prepares) p p' →
      p'.shared.generation = p.shared.generation →
      p'.shared.store.devices ≠ p.shared.store.devices →
      ∃ new call, p'.shared.log = new ++ p.shared.log ∧
        .devicesSet p.shared.generation call p'.shared.store.devices ∈ new) ∧
    ∀ later between old g call devices,
      p.shared.log = later ++ .devicesSet g call devices :: (between ++ .revoked g :: old) →
      .started call .getDevices ∈ between ∧ .resolved call .getDevices devices ∈ p.shared.log := by
  have hholds := Discipline.sound session_respected fresh_inv hp
  have hgrows : ∀ p', System.Reaches (sessionSystem prepares) p p' →
      SessionGrows p.shared p'.shared :=
    fun p' => Discipline.grows session_respected fresh_inv hp
  refine ⟨hholds.inv.ready, ?_, ?_, ?_⟩
  · intro p' p'' t hrun hs hne
    rcases store_change (hp.trans hrun) hs hne with hop | ⟨g, α, f, k, ht, hcur⟩
    · exact .inl hop
    · have hgen := (isCurrent_iff.mp hcur).2
      have hle := (hgrows p' hrun).generation
      exact .inr ⟨g, α, f, k, ht, hcur, by omega⟩
  · intro p' hrun hsame hne
    obtain ⟨new, hlog, -, hdevices⟩ := (hgrows p' hrun).log
    obtain ⟨call, hcall⟩ := hdevices hsame hne
    exact ⟨new, call, hlog, hcall⟩
  · intro later between old g call devices hlog
    have hrespects := hholds.inv.respects
    rw [hlog] at hrespects
    obtain ⟨hstarted, hresolved⟩ := hrespects.started
    refine ⟨hstarted, ?_⟩
    rw [hlog]
    exact List.mem_append_right _ (List.mem_cons_of_mem _ hresolved)

/-- The identity and the account of a client. -/
def aliceDevice : DeviceIdentity := ⟨"phone", "Phone"⟩

def aliceUser : CurrentUser where
  id := "alice"
  username := "alice"
  status := "ACTIVE"
  createdAt := "2026-01-01T00:00:00Z"
  deviceId := "phone"
  sessionId := "s1"

/-- `restore` opens a session. -/
theorem reachable_restored :
    ∃ p, System.Reachable (sessionSystem true) Fresh p ∧
      p.shared.store.phase = .authenticated ∧ p.shared.store.user = some aliceUser := by
  have h : System.Reachable (sessionSystem true) Fresh (System.idle {}) := .idle rfl
  have h := h.starts 0 .restore rfl rfl
  have h := h.acts 0 rfl _ ⟨rfl, rfl⟩
  have h := h.acts 0 rfl (.ok aliceDevice) rfl
  have h := h.acts 0 rfl _ ⟨rfl, rfl⟩
  have h := h.acts 0 rfl (.ok true) rfl
  have h := h.acts 0 rfl _ ⟨rfl, rfl⟩
  have h := h.acts 0 rfl _ ⟨rfl, rfl⟩
  have h := h.acts 0 rfl (.ok (aliceUser, [])) rfl
  have h := h.acts 0 rfl _ ⟨rfl, rfl⟩
  have h := h.acts 0 rfl (.ok ()) rfl
  have h := h.acts 0 rfl _ ⟨rfl, rfl⟩
  exact ⟨_, h, rfl, rfl⟩

theorem session_store_is_safe_restored :
    ∃ p, System.Reachable (sessionSystem true) Fresh p ∧
      p.shared.store.phase = .authenticated ∧
      ∃ call, .resolved call (.prepareInbox aliceUser) () ∈ p.shared.log := by
  obtain ⟨p, hp, hphase, huser⟩ := reachable_restored
  obtain ⟨user, device, huser', -, -, hprepared⟩ := (session_store_is_safe true p hp).1 hphase
  rw [huser, Option.some.injEq] at huser'
  rw [huser']
  exact ⟨p, hp, hphase, hprepared rfl⟩

end Runs

end Client
end SecureMessenger

import SecureMessenger.Server.MessageTransactions

/-!
# The transactions of AuthService

Login, refresh, logout and device revocation keep the locking discipline.  A
refresh commits a rotation only for an active session, and a token that has
been rotated out leaves its session revoked.
-/

namespace SecureMessenger
namespace Server

open Lib
open Lib.Discipline

/-! ## Which rows change -/

theorem sessionOf_iff {db : Db} {user_id session_id : UUID} :
    SessionOf db user_id session_id ↔
      ∃ device_id, (session_id, device_id) ∈ db.sessions.map (fun s => (s.id, s.device_id)) ∧
        (device_id, user_id) ∈ db.devices.map fun d => (d.id, d.user_id) := by
  simp only [SessionOf, List.mem_map, Prod.mk.injEq]
  constructor
  · rintro ⟨s, hs, hid, d, hd, hdid, huser⟩
    exact ⟨s.device_id, ⟨s, hs, hid, rfl⟩, d, hd, hdid, huser⟩
  · rintro ⟨device_id, ⟨s, hs, hid, hdev⟩, d, hd, hdid, huser⟩
    exact ⟨s, hs, hid, d, hd, hdid.trans hdev.symm, huser⟩

/-- An update of a device that keeps everything but its name and its times. -/
structure KeepsStatus (f : Device → Device) : Prop where
  id : ∀ d, (f d).id = d.id
  user : ∀ d, (f d).user_id = d.user_id
  revoked : ∀ d, (f d).revoked_at = d.revoked_at

theorem KeepsStatus.ite {f : Device → Device} (hf : KeepsStatus f) (device_id : UUID) :
    KeepsStatus fun d => if d.id = device_id then f d else d := by
  constructor <;> intro d <;> split
  · exact hf.id d
  · rfl
  · exact hf.user d
  · rfl
  · exact hf.revoked d
  · rfl

section Devices

variable {f : Device → Device} (hf : KeepsStatus f) (l : List Device)

include hf

theorem exists_active_map (user_id id : UUID) :
    (∃ d ∈ l.map f, d.id = id ∧ d.user_id = user_id ∧ d.revoked_at = none) ↔
      ∃ d ∈ l, d.id = id ∧ d.user_id = user_id ∧ d.revoked_at = none := by
  simp [hf.id, hf.user, hf.revoked]

theorem exists_revoked_map (id : UUID) :
    (∃ d ∈ l.map f, d.id = id ∧ d.revoked_at ≠ none) ↔
      ∃ d ∈ l, d.id = id ∧ d.revoked_at ≠ none := by
  simp [hf.id, hf.revoked]

theorem KeepsStatus.keepsDevice : KeepsDevice f :=
  ⟨hf.id, hf.user, fun d h => by rw [hf.revoked]; exact h⟩

end Devices

theorem deviceUsers_map {f : Device → Device} (hf : KeepsDevice f) (l : List Device) :
    (l.map f).map (fun d => (d.id, d.user_id)) = l.map fun d => (d.id, d.user_id) :=
  map_key_map (fun d => by rw [hf.id, hf.user]) l

theorem keepsStatus_named (name : String) (now : Instant) :
    KeepsStatus fun d => { d with name := name, last_seen_at := now } :=
  ⟨fun _ => rfl, fun _ => rfl, fun _ => rfl⟩

theorem keepsStatus_seen (now : Instant) : KeepsStatus fun d => { d with last_seen_at := now } :=
  ⟨fun _ => rfl, fun _ => rfl, fun _ => rfl⟩

/-- A session outside the condition of an update is not changed. -/
theorem row_updateSessions {db : Db} {p : AuthSession → Bool} {f : AuthSession → AuthSession}
    (hf : KeepsSession f) {id : UUID} {s : AuthSession}
    (hs : row (·.id) id db.sessions = some s) (hp : p s = false) :
    row (·.id) id (db.updateSessions p f).sessions = some s := by
  have hrow := row_map (hf.ite p).id id db.sessions
  rw [hs] at hrow
  simpa [Db.updateSessions, hp] using hrow

theorem sessionDevices_map {f : AuthSession → AuthSession} (hf : KeepsSession f)
    (p : AuthSession → Bool) (l : List AuthSession) :
    (l.map fun s => if p s then f s else s).map (fun s => (s.id, s.device_id)) =
      l.map fun s => (s.id, s.device_id) :=
  map_key_map (fun s => by rw [(hf.ite p).id, (hf.ite p).device]) l

theorem same_revokeSession {db : Db} {id : UUID} {now : Instant} {r : Resource}
    (hr : r ≠ .session id) : Same r db (revokeSession id now db) := by
  cases r with
  | chat id' =>
      exact ⟨fun _ h => h, fun _ => rfl⟩
  | user id' =>
      refine ⟨fun _ => Iff.rfl, fun s => ?_⟩
      rw [sessionOf_iff, sessionOf_iff]
      unfold revokeSession Db.updateSessions
      rw [sessionDevices_map (keepsSession_revoke now)]
  | mailbox id' =>
      exact fun _ h => h
  | session id' =>
      intro s hs
      refine ⟨row_updateSessions (keepsSession_revoke now) hs ?_, fun _ hd => hd⟩
      have hne : id' ≠ id := fun h => hr (by rw [h])
      simp [row_key hs, hne]
  | envelope id' =>
      trivial
  | device id' =>
      trivial

theorem same_rotateSession {db : Db} {id device_id : UUID} {old_hash new_hash : String}
    {now : Instant} {r : Resource} (hr : r ≠ .session id) :
    Same r db (rotateSession id device_id old_hash new_hash now db) := by
  have hstatus := (keepsStatus_seen now).ite device_id
  have hf : KeepsSession fun s =>
      { s with refresh_token_hash := new_hash, last_used_at := now } :=
    ⟨fun _ => rfl, fun _ => rfl, fun _ h => h⟩
  cases r with
  | chat id' =>
      exact ⟨fun _ h => h, fun _ => rfl⟩
  | user id' =>
      constructor
      · intro d
        exact and_congr_right fun _ => exists_active_map hstatus db.devices id' d
      · intro s
        rw [sessionOf_iff, sessionOf_iff]
        unfold rotateSession Db.updateDevice Db.updateSessions
        dsimp only
        rw [sessionDevices_map hf, deviceUsers_map hstatus.keepsDevice]
  | mailbox id' =>
      exact fun _ h => h
  | session id' =>
      intro s hs
      constructor
      · have hne : id' ≠ id := fun h => hr (by rw [h])
        exact row_updateSessions hf hs (by simp [row_key hs, hne])
      · intro _ hd
        exact fun h => hd ((exists_revoked_map hstatus db.devices s.device_id).mp h)
  | envelope id' =>
      trivial
  | device id' =>
      trivial

/-- A login changes the devices and the sessions of its user only. -/
theorem same_register {db : Db} {device : Device} {auth_session : AuthSession}
    (hu : (insertDevice device db).uniqueKeys) (hactive : device.revoked_at = none)
    (hdevice : auth_session.device_id = device.id) {r : Resource}
    (hr : r ≠ .user device.user_id) :
    Same r db (insertSession auth_session (insertDevice device db)) := by
  cases r with
  | chat id =>
      exact ⟨fun _ h => h, fun _ => rfl⟩
  | user id =>
      have hne : device.user_id ≠ id := fun h => hr (by rw [h])
      constructor
      · intro d
        refine and_congr_right fun _ => ?_
        simp [insertSession, insertDevice, or_and_right, exists_or, hne]
      · intro s
        simp only [SessionOf, insertSession, insertDevice]
        constructor
        · rintro ⟨s₀, hs₀, hid, d, hd, hdid, huser⟩
          have hd₀ : d ∈ db.devices := by
            rcases List.mem_append.mp hd with hd | hd
            · exact hd
            · rw [List.mem_singleton.mp hd] at huser
              exact absurd huser hne
          rcases List.mem_append.mp hs₀ with hs₀ | hs₀
          · exact ⟨s₀, hs₀, hid, d, hd₀, hdid, huser⟩
          · -- the new session belongs to the new device
            rw [List.mem_singleton.mp hs₀, hdevice] at hdid
            have hn := hu.devices
            unfold insertDevice at hn
            rw [List.map_append, List.nodup_append] at hn
            exact absurd hdid (hn.2.2 _ (List.mem_map_of_mem hd₀) _ (by simp))
        · rintro ⟨s₀, hs₀, hid, d, hd, hdid, huser⟩
          exact ⟨s₀, List.mem_append_left _ hs₀, hid, d, List.mem_append_left _ hd, hdid, huser⟩
  | mailbox id =>
      exact fun _ h => row_append h _
  | session id =>
      intro s hs
      refine ⟨row_append hs _, fun _ hd => ?_⟩
      rintro ⟨d, hmem, hid, hrev⟩
      rcases List.mem_append.mp hmem with hmem | hmem
      · exact hd ⟨d, hmem, hid, hrev⟩
      · rw [List.mem_singleton.mp hmem] at hrev
        exact hrev hactive
  | envelope id =>
      trivial
  | device id =>
      trivial

theorem same_login {db : Db} (hu : db.uniqueKeys) {device : Device} (hmem : device ∈ db.devices)
    {name : String} {now : Instant} {auth_session : AuthSession}
    (hdevice : auth_session.device_id = device.id) {r : Resource}
    (hr : r ≠ .user device.user_id) :
    Same r db (insertSession auth_session
      (db.updateDevice device.id fun d => { d with name := name, last_seen_at := now })) := by
  have hstatus := (keepsStatus_named name now).ite device.id
  cases r with
  | chat id =>
      exact ⟨fun _ h => h, fun _ => rfl⟩
  | user id =>
      have hne : device.user_id ≠ id := fun h => hr (by rw [h])
      constructor
      · intro d
        exact and_congr_right fun _ => exists_active_map hstatus db.devices id d
      · intro s
        rw [sessionOf_iff, sessionOf_iff]
        unfold insertSession Db.updateDevice
        dsimp only
        rw [deviceUsers_map hstatus.keepsDevice, List.map_append]
        constructor
        · rintro ⟨device_id, hs, hd⟩
          rcases List.mem_append.mp hs with hs | hs
          · exact ⟨device_id, hs, hd⟩
          · simp only [List.map_cons, List.map_nil, List.mem_singleton, Prod.mk.injEq] at hs
            obtain ⟨d, hd₀, heq⟩ := List.mem_map.mp hd
            simp only [Prod.mk.injEq] at heq
            have := eq_of_key hu.devices hd₀ hmem (heq.1.trans (hs.2.trans hdevice))
            rw [this] at heq
            exact absurd heq.2 hne
        · rintro ⟨device_id, hs, hd⟩
          exact ⟨device_id, List.mem_append_left _ hs, hd⟩
  | mailbox id =>
      exact fun _ h => h
  | session id =>
      intro s hs
      refine ⟨row_append hs _, fun _ hd => ?_⟩
      exact fun h => hd ((exists_revoked_map hstatus db.devices s.device_id).mp h)
  | envelope id =>
      trivial
  | device id =>
      trivial

/-- A device revocation changes the device set of its user and the sessions it
has locked, which are all the sessions of the device still active. -/
theorem same_revokeDeviceRows {db : Db} {device_id user_id : UUID} {ids : List UUID}
    {now : Instant}
    (hdevice : ∀ d ∈ db.devices, d.id = device_id → d.user_id = user_id)
    (hids : ∀ s ∈ db.sessions, s.device_id = device_id → s.revoked_at = none → s.id ∈ ids)
    {r : Resource} (huser : r ≠ .user user_id) (hsessions : ∀ id ∈ ids, r ≠ .session id) :
    Same r db (revokeDeviceRows device_id ids now db) := by
  cases r with
  | chat id =>
      exact ⟨fun _ h => h, fun _ => rfl⟩
  | user id =>
      have hne : user_id ≠ id := fun h => huser (by rw [h])
      constructor
      · intro x
        refine and_congr_right fun _ => ?_
        simp only [revokeDeviceRows, Db.updateSessions, Db.updateDevice]
        constructor
        · rintro ⟨d, hd, hid, hu, hrev⟩
          obtain ⟨d₀, hd₀, rfl⟩ := List.mem_map.mp hd
          by_cases h₀ : d₀.id = device_id
          · simp [h₀] at hrev
          · simp only [h₀, if_false] at hid hu hrev
            exact ⟨d₀, hd₀, hid, hu, hrev⟩
        · rintro ⟨d₀, hd₀, hid, hu, hrev⟩
          have h₀ : d₀.id ≠ device_id := fun h => hne ((hdevice d₀ hd₀ h).symm.trans hu)
          refine ⟨_, List.mem_map_of_mem hd₀, ?_⟩
          simp only [h₀, if_false]
          exact ⟨hid, hu, hrev⟩
      · intro s
        rw [sessionOf_iff, sessionOf_iff]
        unfold revokeDeviceRows Db.updateSessions Db.updateDevice
        dsimp only
        rw [sessionDevices_map (keepsSession_revoke now),
          deviceUsers_map ((keepsDevice_revoke now).ite device_id)]
  | mailbox id =>
      exact fun _ h => h
  | session id =>
      intro s hs
      have hnot : id ∉ ids := fun h => hsessions id h rfl
      refine ⟨row_updateSessions (keepsSession_revoke now) hs (by simp [row_key hs, hnot]), ?_⟩
      intro hrev hd
      rintro ⟨d, hmem, hid, hdrev⟩
      obtain ⟨d₀, hd₀, rfl⟩ := List.mem_map.mp hmem
      by_cases h₀ : d₀.id = device_id
      · -- an active session of the revoked device would have been locked
        have hsd : s.device_id = device_id := by
          simp only [h₀, if_true] at hid
          exact hid.symm
        have := hids s (row_mem hs) hsd hrev
        rw [row_key hs] at this
        exact hnot this
      · simp only [h₀, if_false] at hid hdrev
        exact hd ⟨d₀, hd₀, hid, hdrev⟩
  | envelope id =>
      trivial
  | device id =>
      trivial

section Transactions

variable {sec : Security} {t : Tid} {op : Op} {w : World}

/-! ## Login -/

theorem safe_authenticate_and_lock_user (hid : w.pending t = id) (request : LoginRequest)
    {Q : User → World → Prop} {Z : PyError → World → Prop}
    (h : ∀ user w', Since sec t w w' → w'.pending t = w.pending t →
      Holding w' t (.user user.id) .update → user ∈ w'.db.users → Q user w')
    (hz : ∀ x w', Since sec t w w' → Z x w') :
    Tx sec t (authenticate_and_lock_user sec request) Q Z w := by
  unfold authenticate_and_lock_user
  refine Safe.bind (safe_query fun w₁ hs₁ hp₁ => ?_)
  split
  · exact hz _ w₁ hs₁
  split
  · exact hz _ w₁ hs₁
  refine Safe.bind (safe_selectLocked (fun w₂ hs₂ _ _ => ?_) (fun user w₂ hs₂ hp₂ hh hu => ?_)
    fun w₂ hs₂ => hz _ w₂ (hs₁.trans hs₂))
  · exact hz _ w₂ (hs₁.trans hs₂)
  · dsimp only
    split
    · exact hz _ w₂ (hs₁.trans hs₂)
    · rw [hp₂, hp₁, hid] at hu
      exact h user w₂ (hs₁.trans hs₂) (hp₂.trans hp₁) hh (row_mem hu)

/-- The writes of `_register_or_update_device`. -/
inductive Registration (w : World) (user_id device_id : UUID) : (Db → Db) → Prop
  | new (device : Device) (hid : device.id = device_id) (huser : device.user_id = user_id)
      (hactive : device.revoked_at = none) :
      Registration w user_id device_id (insertDevice device)
  | known (d : Device) (hd : d ∈ w.db.devices) (hid : d.id = device_id)
      (huser : d.user_id = user_id) (name : String) (now : Instant) :
      Registration w user_id device_id
        (Db.updateDevice device_id fun d => { d with name := name, last_seen_at := now })

theorem Registration.since {user_id device_id : UUID} {g : Db → Db} {w' : World}
    (h : Registration w user_id device_id g) (hs : Since sec t w w') :
    Registration w' user_id device_id g := by
  cases h with
  | new device hid huser hactive =>
      exact .new device hid huser hactive
  | known d hd hid huser name now =>
      obtain ⟨d', hd', hid', huser', -⟩ := hs.grow.db.devices d hd
      exact .known d' hd' (hid'.trans hid) (huser'.trans huser) name now

theorem safe_register_or_update_device (hid : w.pending t = id) (user : User)
    (request : LoginRequest) (now : Instant) {Q : Device → World → Prop}
    {Z : PyError → World → Prop}
    (h : ∀ (device : Device) w', Since sec t w w' →
      Registration w' user.id device.id (w'.pending t) → Q device w')
    (hz : ∀ x w', Since sec t w w' → Z x w' ∧ Z x (w'.close t)) :
    Tx sec t (register_or_update_device user request now) Q Z w := by
  unfold register_or_update_device
  refine Safe.bind (safe_query fun w₁ hs₁ hp₁ => ?_)
  have hid₁ : w₁.pending t = id := hp₁.trans hid
  rw [hid₁]
  split
  · refine Safe.bind (safe_write fun w₂ hs₂ hp₂ => ?_)
    have hs := hs₁.trans hs₂
    refine Safe.bind (Safe.attempt (safe_flush (fun w₃ hs₃ hp₃ hu => ?_) (fun w₃ hs₃ => ?_)
      fun w₃ hs₃ => ?_))
    · refine h _ w₃ (hs.trans hs₃) ?_
      rw [hp₃, hp₂, hid₁]
      exact .new _ rfl rfl rfl
    · refine Safe.bind (safe_rollback fun w₄ hs₄ => ?_)
      exact (hz _ w₄ ((hs.trans hs₃).trans hs₄)).2
    · exact (hz _ w₃ (hs.trans hs₃)).1
  · rename_i device hdevice
    dsimp only
    split
    · exact (hz _ w₁ hs₁).1
    rename_i huser
    split
    · exact (hz _ w₁ hs₁).1
    refine Safe.bind (safe_lock (fun w₂ hs₂ hp₂ _ => ?_) fun w₂ hs₂ => (hz _ w₂ (hs₁.trans hs₂)).1)
    refine Safe.bind (safe_write fun w₃ hs₃ hp₃ => ?_)
    refine h device w₃ ((hs₁.trans hs₂).trans hs₃) ?_
    rw [hp₃, hp₂, hid₁]
    have hmem : device ∈ w₁.db.devices := row_mem hdevice
    exact (Registration.known device hmem rfl (not_not.mp huser) request.device_name now).since
      (hs₂.trans hs₃)

/-- The hashes after a login. -/
theorem hashKnown_insertSession {db : Db} {auth_session : AuthSession} {h : String}
    (hk : HashKnown (insertSession auth_session db) h) :
    HashKnown db h ∨ h = auth_session.refresh_token_hash := by
  rcases hk with ⟨s, hs, rfl⟩ | hk
  · rcases List.mem_append.mp hs with hs | hs
    · exact Or.inl (Or.inl ⟨s, hs, rfl⟩)
    · rw [List.mem_singleton.mp hs]
      exact Or.inr rfl
  · exact Or.inl (Or.inr hk)

theorem committable_login {request : LoginRequest} (hop : w.op t = some (.login request))
    (hout : w.outcome t = none) (hi : Inv sec w) {user : User} (huser : user ∈ w.db.users)
    (hlocked : Holding w t (.user user.id) .update) {device_id : UUID} {g : Db → Db}
    (hg : Registration w user.id device_id g) {auth_session : AuthSession} {token : String}
    (hdrawn : token ∈ w.drawn t)
    (hhash : auth_session.refresh_token_hash = sec.hash_refresh_token token)
    (hfresh : sec.Distinct → ¬HashKnown w.db (sec.hash_refresh_token token))
    (hdevice : auth_session.device_id = device_id)
    (hp : w.pending t = insertSession auth_session ∘ g)
    (hu : (w.pending t w.db).uniqueKeys) : Committable sec t w := by
  rw [← hhash] at hfresh
  have hne : ∀ r, w.held t r ≠ some .update → r ≠ .user user.id := by
    rintro r hr rfl
    exact hr hlocked
  have hhashes : ∀ h, HashKnown (w.pending t w.db) h →
      HashKnown (g w.db) h ∨ ∃ token ∈ w.drawn t, sec.hash_refresh_token token = h := by
    intro h hk
    rw [hp] at hk
    rcases hashKnown_insertSession hk with hk | rfl
    · exact Or.inl hk
    · exact Or.inr ⟨token, hdrawn, hhash.symm⟩
  rw [hp] at hu
  cases hg with
  | new device hid huser' hactive =>
      refine ⟨⟨_, hop, ?_⟩, fun r hr => ?_, hhashes, hout⟩
      · rw [hp]
        refine Effect.register request w.db device auth_session ?_ (hdevice.trans hid.symm) hfresh
        rw [huser']
        exact List.mem_map_of_mem huser
      · rw [hp]
        exact same_register (uniqueKeys_of_insertSession hu) hactive (hdevice.trans hid.symm)
          (by rw [huser']; exact hne r hr)
  | known d hd hid huser' name now =>
      refine ⟨⟨_, hop, ?_⟩, fun r hr => ?_, hhashes, hout⟩
      · rw [hp]
        refine Effect.login request w.db device_id name now auth_session ?_ hdevice hfresh
        rw [← hid]
        exact List.mem_map_of_mem hd
      · rw [hp, ← hid]
        exact same_login hi.wf.unique hd (hdevice.trans hid.symm)
          (by rw [huser']; exact hne r hr)

theorem safe_login {request : LoginRequest} (hb : Begun sec t (.login request) w) :
    Tx sec t (login sec request)
      (fun r w' => Ended sec t (.login request) (.ok (.tokens r)) w')
      (fun x w' => Ended sec t (.login request) (.error x) w') w := by
  have hz : ∀ x w', Since sec t w w' → Ended sec t (.login request) (.error x) w' :=
    fun x w' hs => hb.ended hs fun _ _ _ _ => trivial
  have hzc : ∀ x w', Since sec t w w' → Ended sec t (.login request) (.error x) (w'.close t) := by
    intro x w' hs
    have hb' := hb.close hs
    exact hb'.ended (Since.refl hb'.inv) fun _ _ _ _ => trivial
  unfold login
  refine Safe.bind (safe_authenticate_and_lock_user hb.pending request
    (fun user w₁ hs₁ hp₁ hlocked huser => ?_) hz)
  refine Safe.bind (safe_now fun now w₂ hs₂ hp₂ => ?_)
  refine Safe.bind (safe_register_or_update_device ((hp₂.trans hp₁).trans hb.pending) user request
    now (fun device w₃ hs₃ hreg => ?_) fun x w₃ hs₃ =>
      ⟨hz x w₃ ((hs₁.trans hs₂).trans hs₃), hzc x w₃ ((hs₁.trans hs₂).trans hs₃)⟩)
  refine Safe.bind (safe_token fun token w₄ hs₄ hp₄ hdrawn hfresh => ?_)
  refine Safe.bind (safe_uuid4 fun id w₅ hs₅ hp₅ => ?_)
  refine Safe.bind (safe_write fun w₆ hs₆ hp₆ => ?_)
  have hs := (((hs₁.trans hs₂).trans hs₃).trans hs₄).trans (hs₅.trans hs₆)
  refine Safe.bind (Safe.attempt (safe_commit (fun w₇ hs₇ hp₇ hu => ?_)
    (fun w₇ hs₇ hp₇ hu hi => ?_) (fun w₇ hs₇ _ _ => ?_) fun w₇ hs₇ => ?_))
  · have hs₄' := (hs₅.trans hs₆).trans hs₇
    have hs₁' := (hs₂.trans hs₃).trans (hs₄.trans hs₄')
    have hpend := hp₇.trans hp₆
    rw [hp₅, hp₄] at hpend
    refine committable_login ((hs.trans hs₇).op.trans hb.op)
      ((hs.trans hs₇).outcome.trans hb.outcome) hs₇.inv
      ?_ (hs₁'.holding hlocked) (hreg.since (hs₄.trans hs₄')) (hs₄'.drawn token hdrawn) (by rfl)
      (fun hd hk => hfresh hd (hs₄'.fresh hd token hdrawn hk)) (by rfl) hpend hu
    rw [hs₁'.grow.db.users]
    exact huser
  · exact ⟨hi, trivial, (hs.trans hs₇).op.trans hb.op, (hs.trans hs₇).outcome.trans hb.outcome⟩
  · refine Safe.bind (safe_rollback fun w₈ hs₈ => ?_)
    exact hzc _ w₈ ((hs.trans hs₇).trans hs₈)
  · exact hz _ w₇ (hs.trans hs₇)

/-! ## Refresh and logout -/

theorem consumed_unique {db : Db} (hw : Wf db) {hash : String} {id id' : UUID}
    (h : Consumed db hash id) (h' : Consumed db hash id') : id = id' := by
  obtain ⟨x, hx, hhash, hid⟩ := h
  obtain ⟨x', hx', hhash', hid'⟩ := h'
  have := eq_of_key hw.unique.tokenHistory hx hx' (hhash.trans hhash'.symm)
  rw [← hid, ← hid', this]

/-- A consumed token leads to its session. -/
theorem sessionByConsumed_of_consumed {db : Db} (hw : Wf db) {hash : String} {id : UUID}
    (h : Consumed db hash id) : ∃ s, db.sessionByConsumed hash = some s ∧ s.id = id := by
  obtain ⟨x, hx, hhash, hid⟩ := h
  obtain ⟨s, hs, hsid⟩ := List.mem_map.mp (hw.history_session x hx)
  cases hfind : db.sessionByConsumed hash with
  | none =>
      have := List.find?_eq_none.mp hfind s hs
      simp only [List.any_eq_true, decide_eq_true_eq, not_exists, not_and] at this
      exact absurd hsid.symm (this x hx hhash)
  | some s' =>
      refine ⟨s', rfl, ?_⟩
      have hp := List.find?_some hfind
      simp only [List.any_eq_true, decide_eq_true_eq] at hp
      obtain ⟨x', hx', hhash', hid'⟩ := hp
      have := eq_of_key hw.unique.tokenHistory hx' hx (hhash'.trans hhash.symm)
      rw [← hid', this, hid]

theorem consumed_of_sessionByConsumed {db : Db} {hash : String} {s : AuthSession}
    (h : db.sessionByConsumed hash = some s) : Consumed db hash s.id := by
  have hp := List.find?_some h
  simp only [List.any_eq_true, decide_eq_true_eq] at hp
  obtain ⟨x, hx, hhash, hid⟩ := hp
  exact ⟨x, hx, hhash, hid⟩

theorem mem_of_sessionByHash {db : Db} {hash : String} {s : AuthSession}
    (h : db.sessionByHash hash = some s) : s ∈ db.sessions ∧ s.refresh_token_hash = hash := by
  refine ⟨List.mem_of_find?_eq_some h, ?_⟩
  have := List.find?_some h
  simpa using this

/-- A current token has not been consumed. -/
theorem not_consumed_of_current {db : Db} (hr : Rotation db) {hash : String} {s : AuthSession}
    (h : db.sessionByHash hash = some s) (id : UUID) : ¬Consumed db hash id := by
  rintro ⟨x, hx, hhash, -⟩
  obtain ⟨hs, hcur⟩ := mem_of_sessionByHash h
  exact hr x hx s hs (hhash.trans hcur.symm)

/-- What has to hold of a request that presents a token: a session it was
rotated out of is revoked. -/
def FamilyRevoked (sec : Security) (t : Tid) (token : String) (w : World) : Prop :=
  sec.Distinct → ∀ id, Consumed (w.began t) (sec.hash_refresh_token token) id →
    SessionRevoked w.db id

/-- The transaction that revokes the locked session. -/
theorem committable_revoke (hop : w.op t = some op) (hout : w.outcome t = none)
    (hrevokes : op.revokes = true) {id : UUID} {now : Instant}
    (hlocked : Holding w t (.session id) .update)
    (hp : w.pending t = revokeSession id now) : Committable sec t w := by
  refine ⟨⟨op, hop, ?_⟩, fun r hr => ?_, fun h hk => ?_, hout⟩
  · rw [hp]
    exact Effect.revoke op w.db id now hrevokes
  · rw [hp]
    refine same_revokeSession ?_
    rintro rfl
    exact hr hlocked
  · rw [hp] at hk
    left
    rcases hk with ⟨s, hs, hh⟩ | hk
    · obtain ⟨s₀, hs₀, rfl⟩ := List.mem_map.mp hs
      refine Or.inl ⟨s₀, hs₀, ?_⟩
      rw [← hh]
      split <;> rfl
    · exact Or.inr hk

theorem uniqueKeys_revokeSession {db : Db} (h : db.uniqueKeys) (id : UUID) (now : Instant) :
    (revokeSession id now db).uniqueKeys :=
  uniqueKeys_updateSessions h (keepsSession_revoke now) (fun _ => rfl) _

theorem sessionRevoked_revokeSession {db : Db} {s : AuthSession} (hs : s ∈ db.sessions)
    (now : Instant) : SessionRevoked (revokeSession s.id now db) s.id := by
  refine ⟨_, List.mem_map_of_mem hs, ?_⟩
  simp

/-- The transaction has revoked the session, or has found it revoked. -/
def Revoking (t : Tid) (session_id : UUID) (w : World) : Prop :=
  (∃ now, w.pending t = revokeSession session_id now) ∨
    (w.pending t = id ∧ SessionRevoked w.db session_id)

/-- Revoke a locked session unless it is revoked. -/
theorem safe_revoke (hb : Begun sec t op w) {s : AuthSession} (hs : s ∈ w.db.sessions)
    {α : Type} {p : Session α} {Q : α → World → Prop} {Z : PyError → World → Prop}
    (h : ∀ w', Since sec t w w' → Revoking t s.id w' → Tx sec t p Q Z w') :
    Tx sec t (do
      if s.revoked_at.isNone then
        let now ← utcNow
        write (revokeSession s.id now)
      p) Q Z w := by
  dsimp only
  split
  · refine Safe.bind (safe_now fun now w₁ hs₁ hp₁ => ?_)
    refine Safe.bind (safe_write fun w₂ hs₂ hp₂ => ?_)
    refine h w₂ (hs₁.trans hs₂) (Or.inl ⟨now, ?_⟩)
    rw [hp₂, hp₁, hb.pending]
    rfl
  · rename_i hrev
    refine h w (Since.refl hb.inv) (Or.inr ⟨hb.pending, s, hs, rfl, ?_⟩)
    intro hnone
    simp [hnone] at hrev

/-- The commit of a revocation: it never violates a key. -/
theorem safe_commit_revoke (hb : Begun sec t op w) (hrevokes : op.revokes = true)
    {s : AuthSession} (hs : s ∈ w.db.sessions)
    (hlocked : Holding w t (.session s.id) .update) {w₀ : World} (hs₀ : Since sec t w w₀)
    (hr : Revoking t s.id w₀) {Q : Unit → World → Prop} {Z : PyError → World → Prop}
    (h : ∀ w', Begun sec t op w' → w'.began t = w.began t → Grows w.db w'.db →
      SessionRevoked w'.db s.id → Q () w')
    (hz : ∀ w', Since sec t w w' → Z .database w') : Tx sec t Server.commit Q Z w₀ := by
  have hunique : ∀ w₁, Since sec t w₀ w₁ → w₁.pending t = w₀.pending t →
      (w₁.pending t w₁.db).uniqueKeys := by
    intro w₁ hs₁ hp₁
    rw [hp₁]
    rcases hr with ⟨now, hp⟩ | ⟨hp, -⟩
    · rw [hp]
      exact uniqueKeys_revokeSession hs₁.inv.wf.unique _ _
    · rw [hp]
      exact hs₁.inv.wf.unique
  refine safe_commit (fun w₁ hs₁ hp₁ _ => ?_) (fun w₁ hs₁ hp₁ _ hi => ?_)
    (fun w₁ hs₁ hp₁ hu => absurd (hunique w₁ hs₁ hp₁) hu) fun w₁ hs₁ => hz w₁ (hs₀.trans hs₁)
  · have hs' := hs₀.trans hs₁
    rcases hr with ⟨now, hp⟩ | ⟨hp, -⟩
    · exact committable_revoke (hs'.op.trans hb.op) (hs'.outcome.trans hb.outcome) hrevokes
        (hs'.holding hlocked) (hp₁.trans hp)
    · exact committable_nothing (hs'.op.trans hb.op) (hs'.outcome.trans hb.outcome)
        (hp₁.trans hp)
  · have hs' := hs₀.trans hs₁
    have hafter : Grows w₁.db (w₁.pending t w₁.db) ∧ SessionRevoked (w₁.pending t w₁.db) s.id := by
      rcases hr with ⟨now, hp⟩ | ⟨hp, hrev⟩
      · rw [hp₁, hp]
        obtain ⟨s', hmem, hid, -⟩ := hs'.grow.db.sessions s hs
        refine ⟨grows_revokeSession s.id now w₁.db, ?_⟩
        rw [← hid]
        exact sessionRevoked_revokeSession hmem now
      · rw [hp₁, hp]
        exact ⟨Grows.refl _, hs₁.grow.db.sessionRevoked hrev⟩
    exact h _ (hb.commit hs' hi hafter.1) hs'.began (hs'.grow.db.trans hafter.1) hafter.2

/-- A consumed token is always found. -/
theorem safe_lock_consumed_session (hb : Begun sec t op w) {hash : String}
    {Q : Option AuthSession → World → Prop} {Z : PyError → World → Prop}
    (hnone : ∀ w', Since sec t w w' → w'.pending t = w.pending t →
      (∀ id, ¬Consumed (w'.began t) hash id) → Q none w')
    (hsome : ∀ s w', Since sec t w w' → w'.pending t = w.pending t →
      Holding w' t (.session s.id) .update → s ∈ w'.db.sessions → Consumed w'.db hash s.id →
      Q (some s) w')
    (hz : ∀ w', Since sec t w w' → Z .database w') :
    Tx sec t (lock_consumed_session hash) Q Z w := by
  refine safe_selectLocked (fun w₁ hs₁ hp₁ hlost => ?_) (fun s w₁ hs₁ hp₁ hh hf => ?_) hz
  · refine hnone w₁ hs₁ hp₁ fun id hc => hlost ⟨.session id, fun w₂ hs₂ hp₂ => ?_⟩
    rw [hs₁.began] at hc
    obtain ⟨s, hs, rfl⟩ := sessionByConsumed_of_consumed hs₂.inv.wf
      ((hb.began.trans hs₂.grow.db).consumed hc)
    rw [hp₂, hb.pending]
    show Option.map _ (w₂.db.sessionByConsumed hash) = _
    rw [hs]
    rfl
  · rw [hp₁, hb.pending] at hf
    exact hsome s w₁ hs₁ hp₁ hh (List.mem_of_find?_eq_some hf) (consumed_of_sessionByConsumed hf)

/-- The revoked session is the one the token was rotated out of. -/
theorem familyRevoked_of_revoked {token : String} {id : UUID}
    (hb : Begun sec t op w) (hc : Consumed w.db (sec.hash_refresh_token token) id)
    (hr : SessionRevoked w.db id) : FamilyRevoked sec t token w := by
  intro _ id' hc'
  rw [consumed_unique hb.inv.wf (hb.began.consumed hc') hc]
  exact hr

theorem familyRevoked_of_not_consumed {token : String}
    (h : sec.Distinct → ∀ id, ¬Consumed (w.began t) (sec.hash_refresh_token token) id) :
    FamilyRevoked sec t token w :=
  fun hd id hc => absurd hc (h hd id)

theorem Begun.refresh_error {token : String} (hb : Begun sec t (.refresh token) w) {w' : World}
    (hi : Inv sec w') (hop : w'.op t = w.op t) (hout : w'.outcome t = w.outcome t) {x : PyError}
    (h : x ≠ .database → FamilyRevoked sec t token w') :
    Ended sec t (.refresh token) (.error x) w' := by
  refine ⟨hi, ⟨?_, fun hd hx id hc => ?_⟩, hop.trans hb.op, hout.trans hb.outcome⟩
  · intro tokens htok
    cases htok
  · exact h (fun hxd => hx (by rw [hxd])) hd id hc

theorem safe_refreshConsumed {token : String} (hb : Begun sec t (.refresh token) w) :
    Tx sec t (refreshConsumed (sec.hash_refresh_token token))
      (fun r w' => Ended sec t (.refresh token) (.ok (.tokens r)) w')
      (fun x w' => Ended sec t (.refresh token) (.error x) w') w := by
  have hz : ∀ w', Since sec t w w' → Ended sec t (.refresh token) (.error .database) w' :=
    fun w' hs => hb.refresh_error hs.inv hs.op hs.outcome fun h => absurd rfl h
  unfold refreshConsumed
  refine Safe.bind (safe_lock_consumed_session hb (fun w₁ hs₁ hp₁ hnone => ?_)
    (fun s w₁ hs₁ hp₁ hh hs hc => ?_) hz)
  · exact hb.refresh_error hs₁.inv hs₁.op hs₁.outcome
      fun _ => familyRevoked_of_not_consumed fun _ => hnone
  · have hb₁ := hb.since hs₁ hp₁
    refine safe_revoke hb₁ hs fun w₂ hs₂ hr => ?_
    refine Safe.bind (safe_commit_revoke hb₁ rfl hs hh hs₂ hr (fun w₃ hb₃ _ hg hrev => ?_)
      fun w₃ hs₃ => hz w₃ (hs₁.trans hs₃))
    exact hb₃.refresh_error hb₃.inv rfl rfl
      fun _ => familyRevoked_of_revoked hb₃ (hg.consumed hc) hrev

/-- A session read as active under its lock. -/
structure Live (t : Tid) (s : AuthSession) (w : World) : Prop where
  locked : Holding w t (.session s.id) .update
  row : row (·.id) s.id w.db.sessions = some s
  session : s.revoked_at = none
  device : ¬DeviceRevoked w.db s.device_id

theorem Live.since {s : AuthSession} {w' : World} (h : Live t s w) (hs : Since sec t w w') :
    Live t s w' := by
  obtain ⟨hrow, hdevice⟩ := hs.same _ h.locked.ne_none s h.row
  exact ⟨hs.holding h.locked, hrow, h.session, hdevice h.session h.device⟩

theorem Live.not_revoked {s : AuthSession} (h : Live t s w) (hi : Inv sec w) :
    ¬Revoked w.db s.id := by
  rintro ⟨s', hs', hid, hrev⟩
  have heq : s' = s := eq_of_key hi.wf.unique.sessions hs' (row_mem h.row) hid
  rw [heq] at hrev
  rcases hrev with hrev | hrev
  · exact hrev h.session
  · exact h.device hrev

theorem committable_rotate {refresh_token : String}
    (hop : w.op t = some (.refresh refresh_token)) (hout : w.outcome t = none)
    {s : AuthSession} (hlive : Live t s w)
    (hhash : s.refresh_token_hash = sec.hash_refresh_token refresh_token)
    {token : String} {now : Instant} (hdrawn : token ∈ w.drawn t)
    (hfresh : sec.Distinct → ¬HashKnown w.db (sec.hash_refresh_token token))
    (hp : w.pending t = rotateSession s.id s.device_id (sec.hash_refresh_token refresh_token)
      (sec.hash_refresh_token token) now) : Committable sec t w := by
  refine ⟨⟨_, hop, ?_⟩, fun r hr => ?_, fun h hk => ?_, hout⟩
  · rw [hp]
    exact Effect.rotate refresh_token w.db s _ now (row_mem hlive.row) hhash hlive.session
      hlive.device hfresh
  · rw [hp]
    refine same_rotateSession ?_
    rintro rfl
    exact hr hlive.locked
  · rw [hp] at hk
    rcases hk with ⟨s', hs', rfl⟩ | ⟨x, hx, rfl⟩
    · obtain ⟨s₀, hs₀, rfl⟩ := List.mem_map.mp hs'
      split
      · exact Or.inr ⟨token, hdrawn, rfl⟩
      · exact Or.inl (Or.inl ⟨s₀, hs₀, rfl⟩)
    · rcases List.mem_append.mp hx with hx | hx
      · exact Or.inl (Or.inr ⟨x, hx, rfl⟩)
      · rw [List.mem_singleton.mp hx]
        exact Or.inl (Or.inl ⟨s, row_mem hlive.row, hhash⟩)

theorem deviceById_not_revoked {db : Db} (hu : db.uniqueKeys) {id : UUID} {d : Device}
    (h : db.deviceById id = some d) (hrev : d.revoked_at = none) : ¬DeviceRevoked db id := by
  rintro ⟨d', hd', hid, hrev'⟩
  have hkey : d.id = id := row_key h
  have heq : d' = d := eq_of_key hu.devices hd' (row_mem h) (hid.trans hkey.symm)
  rw [heq] at hrev'
  exact hrev' hrev

theorem active_of_is_session_active {now : Instant} {user : User} {device : Device}
    {s : AuthSession} (h : is_session_active now user device s = true) :
    device.revoked_at = none ∧ s.revoked_at = none := by
  simp only [is_session_active, Bool.and_eq_true, Option.isNone_iff_eq_none] at h
  exact ⟨h.1.1.1.2, h.1.1.2⟩

theorem safe_refreshCurrent {token : String} (hb : Begun sec t (.refresh token) w) {s : AuthSession}
    (hlocked : Holding w t (.session s.id) .update)
    (hcurrent : w.db.sessionByHash (sec.hash_refresh_token token) = some s) :
    Tx sec t (refreshCurrent sec (sec.hash_refresh_token token) s)
      (fun r w' => Ended sec t (.refresh token) (.ok (.tokens r)) w')
      (fun x w' => Ended sec t (.refresh token) (.error x) w') w := by
  obtain ⟨hmem, hhash⟩ := mem_of_sessionByHash hcurrent
  have hnot : sec.Distinct → ∀ id, ¬Consumed (w.began t) (sec.hash_refresh_token token) id :=
    fun hd id hc =>
      not_consumed_of_current (hb.inv.rotation hd) hcurrent id (hb.began.consumed hc)
  have hz : ∀ x w', Since sec t w w' → Ended sec t (.refresh token) (.error x) w' := by
    intro x w' hs
    refine hb.refresh_error hs.inv hs.op hs.outcome fun _ => familyRevoked_of_not_consumed ?_
    rw [hs.began]
    exact hnot
  have hrow : row (·.id) s.id w.db.sessions = some s := row_of_mem hb.inv.wf.unique.sessions hmem
  unfold refreshCurrent
  refine Safe.bind (safe_query fun w₁ hs₁ hp₁ => ?_)
  rw [hp₁, hb.pending]
  split
  · exact hz _ w₁ hs₁
  rename_i device hdevice
  refine Safe.bind (safe_query fun w₂ hs₂ hp₂ => ?_)
  split
  · exact hz _ w₂ (hs₁.trans hs₂)
  refine Safe.bind (safe_now fun checked w₃ hs₃ hp₃ => ?_)
  have hs := (hs₁.trans hs₂).trans hs₃
  split
  · exact hz _ w₃ hs
  rename_i hactive
  simp only [Bool.not_eq_true, Bool.not_eq_false'] at hactive
  obtain ⟨hdev, hses⟩ := active_of_is_session_active hactive
  have hlive : Live t s w₁ := by
    refine ⟨hs₁.holding hlocked, (hs₁.same _ hlocked.ne_none s hrow).1, hses, ?_⟩
    exact deviceById_not_revoked hs₁.inv.wf.unique hdevice hdev
  have hid : device.id = s.device_id := row_key hdevice
  refine Safe.bind (safe_now fun now w₄ hs₄ hp₄ => ?_)
  refine Safe.bind (safe_token fun rotated w₅ hs₅ hp₅ hdrawn hfresh => ?_)
  refine Safe.bind (safe_lock (fun w₆ hs₆ hp₆ _ => ?_)
    fun w₆ hs₆ => hz _ w₆ ((hs.trans (hs₄.trans hs₅)).trans hs₆))
  refine Safe.bind (safe_write fun w₇ hs₇ hp₇ => ?_)
  have hs' := (hs.trans (hs₄.trans hs₅)).trans (hs₆.trans hs₇)
  have hpend : w₇.pending t = rotateSession s.id s.device_id (sec.hash_refresh_token token)
      (sec.hash_refresh_token rotated) now := by
    rw [hp₇, hp₆, hp₅, hp₄, hp₃, hp₂, hp₁, hb.pending, hid]
    rfl
  refine Safe.bind (safe_commit (fun w₈ hs₈ hp₈ _ => ?_) (fun w₈ hs₈ hp₈ hu hi => ?_)
    (fun w₈ hs₈ _ _ => hz _ w₈ (hs'.trans hs₈)) fun w₈ hs₈ => hz _ w₈ (hs'.trans hs₈))
  · have hs₅' := (hs₆.trans hs₇).trans hs₈
    exact committable_rotate ((hs'.trans hs₈).op.trans hb.op)
      ((hs'.trans hs₈).outcome.trans hb.outcome)
      (hlive.since ((hs₂.trans hs₃).trans ((hs₄.trans hs₅).trans hs₅'))) hhash
      (hs₅'.drawn rotated hdrawn) (fun hd hk => hfresh hd (hs₅'.fresh hd rotated hdrawn hk))
      (hp₈.trans hpend)
  · have hs₅' := (hs₆.trans hs₇).trans hs₈
    have hlive₈ := hlive.since ((hs₂.trans hs₃).trans ((hs₄.trans hs₅).trans hs₅'))
    refine ⟨hi, ⟨fun tokens htok => ?_, fun hd _ id hc => ?_⟩, (hs'.trans hs₈).op.trans hb.op,
      (hs'.trans hs₈).outcome.trans hb.outcome⟩
    · simp only [Except.ok.injEq, Result.tokens.injEq] at htok
      subst htok
      refine ⟨⟨t, w₈.db, w₈.pending t w₈.db⟩, ?_, ⟨⟨s, row_mem hlive₈.row, rfl, hhash⟩,
        hlive₈.not_revoked hs₈.inv, ?_⟩⟩
      · rw [commitsOf_commit_self]
        exact List.mem_cons_self
      · show Consumed (w₈.pending t w₈.db) _ _
        rw [hp₈, hpend]
        exact ⟨⟨sec.hash_refresh_token token, s.id, now⟩, by simp [rotateSession], rfl, rfl⟩
    · have hbegan : (w₈.commit t).began t = w.began t := (hs'.trans hs₈).began
      rw [hbegan] at hc
      exact absurd hc (hnot hd id)

theorem safe_refresh {token : String} (hb : Begun sec t (.refresh token) w) :
    Tx sec t (refresh sec token)
      (fun r w' => Ended sec t (.refresh token) (.ok (.tokens r)) w')
      (fun x w' => Ended sec t (.refresh token) (.error x) w') w := by
  unfold refresh
  refine Safe.bind (safe_selectLocked (fun w₁ hs₁ hp₁ _ => ?_) (fun s w₁ hs₁ hp₁ hh hf => ?_)
    fun w₁ hs₁ => ?_)
  · exact safe_refreshConsumed (hb.since hs₁ hp₁)
  · rw [hp₁, hb.pending] at hf
    dsimp only
    split
    · exact safe_refreshConsumed (hb.since hs₁ hp₁)
    · exact safe_refreshCurrent (hb.since hs₁ hp₁) hh hf
  · exact hb.refresh_error hs₁.inv hs₁.op hs₁.outcome fun h => absurd rfl h

theorem Begun.logout_ended {token : String} (hb : Begun sec t (.logout token) w) {w' : World}
    (hi : Inv sec w') (hop : w'.op t = w.op t) (hout : w'.outcome t = w.outcome t)
    {o : Except PyError Result}
    (h : o ≠ .error .database → FamilyRevoked sec t token w') :
    Ended sec t (.logout token) o w' :=
  ⟨hi, fun hd ho id hc => h ho hd id hc, hop.trans hb.op, hout.trans hb.outcome⟩

/-- The end of a logout that has found a session. -/
theorem safe_logoutSession {token : String} (hb : Begun sec t (.logout token) w) {s : AuthSession}
    (hs : s ∈ w.db.sessions) (hlocked : Holding w t (.session s.id) .update)
    (h : ∀ w', Begun sec t (.logout token) w' → w'.began t = w.began t → Grows w.db w'.db →
      SessionRevoked w'.db s.id → FamilyRevoked sec t token w') :
    Tx sec t (logoutSession (some s))
      (fun _ w' => Ended sec t (.logout token) (.ok .done) w')
      (fun x w' => Ended sec t (.logout token) (.error x) w') w := by
  unfold logoutSession
  refine safe_revoke hb hs fun w₁ hs₁ hr => ?_
  refine safe_commit_revoke hb rfl hs hlocked hs₁ hr
    (fun w₂ hb₂ hbegan hg hrev => ?_) fun w₂ hs₂ => ?_
  · exact hb₂.logout_ended hb₂.inv rfl rfl fun _ => h w₂ hb₂ hbegan hg hrev
  · exact hb.logout_ended hs₂.inv hs₂.op hs₂.outcome fun h => absurd rfl h

theorem safe_logout {token : String} (hb : Begun sec t (.logout token) w) :
    Tx sec t (logout sec token)
      (fun _ w' => Ended sec t (.logout token) (.ok .done) w')
      (fun x w' => Ended sec t (.logout token) (.error x) w') w := by
  have hz : ∀ w', Since sec t w w' → Ended sec t (.logout token) (.error .database) w' :=
    fun w' hs => hb.logout_ended hs.inv hs.op hs.outcome fun h => absurd rfl h
  unfold logout
  refine Safe.bind (safe_selectLocked (fun w₁ hs₁ hp₁ _ => ?_) (fun s w₁ hs₁ hp₁ hh hf => ?_) hz)
  · have hb₁ := hb.since hs₁ hp₁
    refine Safe.bind (safe_lock_consumed_session hb₁ (fun w₂ hs₂ hp₂ hnone => ?_)
      (fun s w₂ hs₂ hp₂ hh hs hc => ?_) fun w₂ hs₂ => hz w₂ (hs₁.trans hs₂))
    · -- an unknown token: nothing to revoke
      have hb₂ := hb₁.since hs₂ hp₂
      have hfam : ∀ w', w'.began t = w₂.began t → FamilyRevoked sec t token w' := by
        intro w' hw'
        refine familyRevoked_of_not_consumed fun _ => ?_
        rw [hw']
        exact hnone
      refine safe_commit (fun w₃ hs₃ hp₃ _ => ?_) (fun w₃ hs₃ _ _ hi => ?_)
        (fun w₃ hs₃ _ _ => ?_) fun w₃ hs₃ => hz w₃ ((hs₁.trans hs₂).trans hs₃)
      · exact committable_nothing (hs₃.op.trans hb₂.op) (hs₃.outcome.trans hb₂.outcome)
          (hp₃.trans hb₂.pending)
      · exact hb₂.logout_ended hi hs₃.op hs₃.outcome fun _ => hfam _ hs₃.began
      · exact hb₂.logout_ended hs₃.inv hs₃.op hs₃.outcome fun _ => hfam _ hs₃.began
    · exact safe_logoutSession (hb₁.since hs₂ hp₂) hs hh
        fun w₃ hb₃ _ hg hrev => familyRevoked_of_revoked hb₃ (hg.consumed hc) hrev
  · rw [hp₁, hb.pending] at hf
    have hb₁ := hb.since hs₁ hp₁
    refine safe_logoutSession hb₁ (mem_of_sessionByHash hf).1 hh fun w₂ _ hbegan _ _ => ?_
    refine familyRevoked_of_not_consumed fun hd id hc => ?_
    rw [hbegan] at hc
    exact not_consumed_of_current (hb₁.inv.rotation hd) hf id (hb₁.began.consumed hc)

/-! ## Device revocation and authentication -/

/-- The sessions `revoke_device` has locked are all the active ones of the
device. -/
theorem locked_sessions {w₀ w₁ : World} {user_id device_id : UUID}
    (hlocked : Holding w₀ t (.user user_id) .update)
    {device : Device} (hd : device ∈ w₀.db.devices) (hid : device.id = device_id)
    (huser : device.user_id = user_id) (hs : Since sec t w₀ w₁) {s : AuthSession}
    (hmem : s ∈ w₁.db.sessions) (hdev : s.device_id = device_id) (hrev : s.revoked_at = none) :
    s.id ∈ (w₀.db.sessions.filter fun s =>
      decide (s.device_id = device_id) && s.revoked_at.isNone).map (·.id) := by
  -- the session already existed, since the user is locked
  obtain ⟨d', hd', hid', huser', -⟩ := hs.grow.db.devices device hd
  have hof : SessionOf w₁.db user_id s.id :=
    ⟨s, hmem, rfl, d', hd', by rw [hid', hid, hdev], by rw [huser', huser]⟩
  obtain ⟨s₀, hs₀, hsid, -⟩ := ((hs.same _ hlocked.ne_none).2 s.id).mp hof
  -- and it is not revoked now, so it was not then
  obtain ⟨s₁, hs₁, hid₁, hdev₁, hrev₁⟩ := hs.grow.db.sessions s₀ hs₀
  have heq : s₁ = s := eq_of_key hs.inv.wf.unique.sessions hs₁ hmem (hid₁.trans hsid)
  subst heq
  refine List.mem_map.mpr ⟨s₀, List.mem_filter.mpr ⟨hs₀, ?_⟩, hsid⟩
  simp only [Bool.and_eq_true, decide_eq_true_eq, Option.isNone_iff_eq_none]
  refine ⟨hdev₁.symm.trans hdev, ?_⟩
  by_contra hne
  exact hrev₁ hne hrev

theorem committable_revokeDevice {principal : Principal} {device_id : UUID}
    (hop : w.op t = some (.revokeDevice principal device_id)) (hout : w.outcome t = none)
    (hi : Inv sec w) (huser : Holding w t (.user principal.user_id) .update)
    {device : Device} (hd : device ∈ w.db.devices) (hid : device.id = device_id)
    (hdu : device.user_id = principal.user_id) {ids : List UUID} {now : Instant}
    (hsessions : ∀ id ∈ ids, Holding w t (.session id) .update)
    (hids : ∀ s ∈ w.db.sessions, s.device_id = device_id → s.revoked_at = none → s.id ∈ ids)
    (hp : w.pending t = revokeDeviceRows device_id ids now) : Committable sec t w := by
  refine ⟨⟨_, hop, ?_⟩, fun r hr => ?_, fun h hk => ?_, hout⟩
  · rw [hp]
    exact Effect.revokeDevice principal device_id w.db ids now
  · rw [hp]
    have hne : r ≠ .user principal.user_id := by
      rintro rfl
      exact hr huser
    refine same_revokeDeviceRows (fun d hdm hdid => ?_) hids hne ?_
    · rw [eq_of_key hi.wf.unique.devices hdm hd (hdid.trans hid.symm)]
      exact hdu
    · rintro id hmem rfl
      exact hr (hsessions id hmem)
  · rw [hp] at hk
    left
    rcases hk with ⟨s, hs, hh⟩ | hk
    · obtain ⟨s₀, hs₀, rfl⟩ := List.mem_map.mp hs
      refine Or.inl ⟨s₀, hs₀, ?_⟩
      rw [← hh]
      split <;> rfl
    · exact Or.inr hk

theorem safe_revoke_device {principal : Principal} {device_id : UUID}
    (hb : Begun sec t (.revokeDevice principal device_id) w) :
    Tx sec t (revoke_device principal device_id)
      (fun _ w' => Ended sec t (.revokeDevice principal device_id) (.ok .done) w')
      (fun x w' => Ended sec t (.revokeDevice principal device_id) (.error x) w') w := by
  have hend : ∀ o w', Since sec t w w' →
      Ended sec t (.revokeDevice principal device_id) o w' :=
    fun o w' hs => hb.ended hs fun _ _ _ _ => trivial
  unfold revoke_device
  refine Safe.bind (safe_selectLocked (fun w₁ hs₁ hp₁ hlost => ?_) (fun u w₁ hs₁ hp₁ hh hu => ?_)
    fun w₁ hs₁ => hend _ w₁ hs₁)
  · -- without a user there is no device either
    refine Safe.bind (safe_query fun w₂ hs₂ hp₂ => ?_)
    split
    · exact hend _ w₂ (hs₁.trans hs₂)
    · rename_i device hdevice
      rw [hp₂, hp₁, hb.pending] at hdevice
      obtain ⟨hfind, huser⟩ := Option.filter_eq_some_iff.mp hdevice
      simp only [decide_eq_true_eq] at huser
      refine absurd ⟨.user principal.user_id, fun w₃ hs₃ hp₃ => ?_⟩ hlost
      have hmem := hs₂.inv.wf.device_user device (row_mem hfind)
      rw [huser, (hs₁.trans hs₂).grow.db.users, ← hs₃.grow.db.users] at hmem
      obtain ⟨u, hu, hkey⟩ := List.mem_map.mp hmem
      have hrow : row (fun u : User => u.id) u.id w₃.db.users = some u :=
        row_of_mem hs₃.inv.wf.unique.1 hu
      rw [hp₃, hb.pending, ← hkey]
      exact congrArg (Option.map fun u : User => Resource.user u.id) hrow
  · rw [hp₁, hb.pending] at hu
    have hkey : u.id = principal.user_id := row_key hu
    rw [hkey] at hh
    refine Safe.bind (safe_query fun w₂ hs₂ hp₂ => ?_)
    have hs' := hs₁.trans hs₂
    split
    · exact hend _ w₂ hs'
    · rename_i device hdevice
      rw [hp₂, hp₁, hb.pending] at hdevice
      obtain ⟨hfind, huser⟩ := Option.filter_eq_some_iff.mp hdevice
      simp only [decide_eq_true_eq] at huser
      have hdm : device ∈ w₂.db.devices := row_mem hfind
      have hdid : device.id = device_id := row_key hfind
      split
      · refine Safe.bind (safe_now fun now w₃ hs₃ hp₃ => ?_)
        refine Safe.bind (safe_lock (fun w₄ hs₄ hp₄ _ => ?_)
          fun w₄ hs₄ => hend _ w₄ ((hs'.trans hs₃).trans hs₄))
        refine Safe.bind (safe_query fun w₅ hs₅ hp₅ => ?_)
        have hs₅' := ((hs'.trans hs₃).trans hs₄).trans hs₅
        have hid₅ : w₅.pending t = id := by
          rw [hp₅, hp₄, hp₃, hp₂, hp₁, hb.pending]
        rw [hid₅, hdid]
        refine Safe.bind (safe_lockAll _ hs₅.inv (fun w₆ hs₆ hp₆ hlocked => ?_)
          fun w₆ hs₆ => hend _ w₆ (hs₅'.trans hs₆))
        refine Safe.bind (safe_write fun w₇ hs₇ hp₇ => ?_)
        have hs₇' := (hs₅'.trans hs₆).trans hs₇
        rw [hp₆, hid₅] at hp₇
        refine safe_commit_last hb hs₇' (fun w₈ hs₈ hop hout hp₈ => ?_) fun _ _ _ _ _ => trivial
        have hs₂₅ := (hs₃.trans hs₄).trans hs₅
        have hs₅₈ := (hs₆.trans hs₇).trans hs₈
        obtain ⟨d₅, hd₅, hid₅', hu₅, -⟩ := hs₂₅.grow.db.devices device hdm
        obtain ⟨d₈, hd₈, hid₈, hu₈, -⟩ := (hs₂₅.trans hs₅₈).grow.db.devices device hdm
        have hh₅ := (hs₂.trans hs₂₅).holding hh
        refine committable_revokeDevice hop hout hs₈.inv (hs₅₈.holding hh₅) hd₈
          (hid₈.trans hdid) (hu₈.trans huser) (fun id hmem => ?_) ?_ (by
            rw [hp₈, hp₇]
            rfl)
        · exact (hs₇.trans hs₈).holding (hlocked _ (List.mem_map_of_mem hmem))
        · intro s hmem hdev hrev
          exact locked_sessions hh₅ hd₅ (hid₅'.trans hdid) (hu₅.trans huser) hs₅₈ hmem hdev hrev
      · exact hend _ w₂ hs'

/-- A session that authenticates a request is active when it is read. -/
theorem safe_authenticate_access_token {claims : AccessTokenClaims}
    (hb : Begun sec t (.authenticate claims) w) :
    Tx sec t (authenticate_access_token claims)
      (fun r w' => Ended sec t (.authenticate claims) (.ok (.principal r)) w')
      (fun x w' => Ended sec t (.authenticate claims) (.error x) w') w := by
  have hz : ∀ x w', Since sec t w w' → Ended sec t (.authenticate claims) (.error x) w' :=
    fun x w' hs => hb.ended hs fun _ _ _ _ => trivial
  unfold authenticate_access_token
  refine Safe.bind (safe_query fun w₁ hs₁ hp₁ => ?_)
  split
  · exact hz _ w₁ hs₁
  rename_i user device s hrow
  rw [hp₁, hb.pending] at hrow
  refine Safe.bind (safe_now fun now w₂ hs₂ _ => ?_)
  dsimp only
  split
  · exact hz _ w₂ (hs₁.trans hs₂)
  rename_i hok
  simp only [not_or, Bool.not_eq_false] at hok
  obtain ⟨hdev, hses⟩ := active_of_is_session_active hok.2.2.2.2
  refine ⟨hs₂.inv, ⟨w₁.db, ?_, ?_⟩, (hs₁.trans hs₂).op.trans hb.op,
    (hs₁.trans hs₂).outcome.trans hb.outcome⟩
  · rw [(hs₁.trans hs₂).began]
    exact hb.began.trans hs₁.grow.db
  · rintro ⟨s', hs', hid, hrev⟩
    simp only [id, bind, Option.bind_eq_some_iff] at hrow
    obtain ⟨s₀, hfind, d₀, hdfind, u₀, -, hpair⟩ := hrow
    simp only [pure, Option.some.injEq, Prod.mk.injEq] at hpair
    obtain ⟨-, rfl, rfl⟩ := hpair
    have heq : s' = s₀ :=
      eq_of_key hs₁.inv.wf.unique.sessions hs' (row_mem hfind) (hid.trans (row_key hfind).symm)
    rw [heq] at hrev
    rcases hrev with hrev | hrev
    · exact hrev hses
    · exact deviceById_not_revoked hs₁.inv.wf.unique hdfind hdev hrev

end Transactions

end Server
end SecureMessenger

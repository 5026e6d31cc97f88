import SecureMessenger.Server.LockOrder
import SecureMessenger.Server.MessageTransactions

/-!
# The service functions follow their lock plans

`Takes` runs a service function until its transaction ends and collects the
row locks it asks for.  Every query is answered from some database that fits
the schema, not the same one each time: other transactions commit in between.
Whatever the answers, the locks are those of the transaction's plan, in its
order.  The plans have in addition what the database takes on its own, the
references and the rows that are flushed again.
-/

namespace SecureMessenger
namespace Server

open Lib Lib.Locks

/-- The rows of the database have the owners of the schema. -/
structure Schema.Fits (S : Schema) (db : Db) : Prop where
  devices : ∀ d ∈ db.devices, d.user_id = S.user d.id
  sessions : ∀ s ∈ db.sessions, s.device_id = S.device s.id ∧ S.session s.refresh_token_hash = s.id
  history : ∀ h ∈ db.tokenHistory, S.session h.token_hash = h.auth_session_id

/-- A lock a service function asks for. -/
abbrev LockRequest := Resource × LockMode

/-- From `done` on, the lock requests of the program satisfy `Q` up to the end
of its transaction; a program that returns before satisfies `post`. -/
def Takes (S : Schema) (Q : List LockRequest → Prop) : {α : Type} → Session α →
    List LockRequest → (α → List LockRequest → Prop) → Prop
  | _, .ret a, done, post => post a done
  | _, .throw _, _, _ => True
  | _, .eff (.query f) k, done, post => ∀ db, S.Fits db → Takes S Q (k (f db)) done post
  | _, .eff (.lock r mode) k, done, post =>
      Q (done ++ [(r, mode)]) ∧ ∀ a, Takes S Q (k a) (done ++ [(r, mode)]) post
  | _, .eff .commit _, _, _ => True
  | _, .eff .rollback _, _, _ => True
  | _, .eff _ k, done, post => ∀ a, Takes S Q (k a) done post
  | _, .loop _ _ _, _, _ => False

variable {S : Schema} {Q : List LockRequest → Prop}

theorem Takes.bind {α β : Type} {p : Session α} {f : α → Session β} {done : List LockRequest}
    {post : β → List LockRequest → Prop}
    (h : Takes S Q p done fun a done' => Takes S Q (f a) done' post) :
    Takes S Q (p >>= f) done post := by
  induction p generalizing done with
  | ret a => exact h
  | throw x => trivial
  | eff c k ih =>
      cases c with
      | query g => exact fun db hdb => ih (g db) (h db hdb)
      | lock r mode => exact ⟨h.1, fun a => ih a (h.2 a)⟩
      | commit => trivial
      | rollback => trivial
      | _ => exact fun a => ih a (h a)
  | loop l body k => exact h

theorem Takes.imp {Q' : List LockRequest → Prop} (hQ : ∀ ls, Q ls → Q' ls) {α : Type}
    {p : Session α} {done : List LockRequest} {post post' : α → List LockRequest → Prop}
    (hpost : ∀ a d, post a d → post' a d) (h : Takes S Q p done post) :
    Takes S Q' p done post' := by
  induction p generalizing done with
  | ret a => exact hpost a done h
  | throw x => trivial
  | eff c k ih =>
      cases c with
      | query g => exact fun db hdb => ih (g db) hpost (h db hdb)
      | lock r mode => exact ⟨hQ _ h.1, fun a => ih a hpost (h.2 a)⟩
      | commit => trivial
      | rollback => trivial
      | _ => exact fun a => ih a hpost (h a)
  | loop l body k => exact h

theorem Takes.mono {α : Type} {p : Session α} {done : List LockRequest}
    {post post' : α → List LockRequest → Prop} (hpost : ∀ a d, post a d → post' a d)
    (h : Takes S Q p done post) : Takes S Q p done post' :=
  h.imp (fun _ hQ => hQ) hpost

/-- Sequencing with what the first part leaves. -/
theorem Takes.next {α β : Type} {p : Session α} {f : α → Session β} {done : List LockRequest}
    {P : α → List LockRequest → Prop} {post : β → List LockRequest → Prop}
    (h : Takes S Q p done P) (hf : ∀ a d, P a d → Takes S Q (f a) d post) :
    Takes S Q (p >>= f) done post :=
  (h.mono hf).bind

theorem Takes.lock {r : Resource} {mode : LockMode} {done : List LockRequest}
    (hQ : Q (done ++ [(r, mode)])) :
    Takes S Q (Server.lock r mode) done fun _ d => d = done ++ [(r, mode)] := by
  refine ⟨hQ, fun a => ?_⟩
  cases a with
  | ok => rfl
  | error x => trivial

/-- The locks of a list, one after the other. -/
theorem Takes.lockAll {mode : LockMode} {rs : List Resource} {done : List LockRequest}
    (hQ : ∀ ls, ls <+: done ++ rs.map (·, mode) → Q ls) :
    Takes S Q (lockAll mode rs) done fun _ d => d = done ++ rs.map (·, mode) := by
  induction rs generalizing done with
  | nil => exact (List.append_nil done).symm
  | cons r rs ih =>
      unfold Server.lockAll
      refine .next (Takes.lock (hQ _ ⟨rs.map (·, mode), by simp⟩)) ?_
      rintro _ _ rfl
      refine .mono ?_ (ih fun ls hls => hQ ls ?_)
      · rintro _ _ rfl
        simp
      · simpa using hls

/-- A locking query of at most one row. -/
theorem Takes.selectLocked {α : Type} {key : α → Resource} {mode : LockMode} {f : Db → Option α}
    {done : List LockRequest} (r : Resource)
    (hkey : ∀ db x, S.Fits db → f db = some x → key x = r) (hQ : Q (done ++ [(r, mode)])) :
    Takes S Q (selectLocked key mode f) done fun x d =>
      (d = done ∧ x = none) ∨ (d = done ++ [(r, mode)] ∧ ∀ y, x = some y →
        ∃ db, S.Fits db ∧ f db = some y) := by
  unfold Server.selectLocked
  refine .bind fun db hdb => ?_
  simp only [Takes]
  cases hf : f db with
  | none => exact .inl ⟨rfl, rfl⟩
  | some x =>
      rw [← hkey db x hdb hf] at hQ ⊢
      refine .next (Takes.lock hQ) ?_
      rintro _ _ rfl db' hdb'
      exact .inr ⟨rfl, fun y hy => ⟨db', hdb', (Option.filter_eq_some_iff.mp hy).1⟩⟩

/-- The request for a lock of a plan, if the service function makes it. -/
def RowLock.request (l : RowLock) : Option LockRequest :=
  match l.mode with
  | .share => some (l.row, .share)
  | .noKeyUpdate => some (l.row, .update)
  | .forUpdate => some (l.row, .update)
  | .keyShare => none
  | .insert => none

/-- The requests are the first ones of the transaction's plan. -/
def Schema.Follows (S : Schema) (tx : Transaction) (ls : List LockRequest) : Prop :=
  ls <+: (S.locks tx).filterMap RowLock.request

/-! ### Sessions -/

theorem session_of_hash {db : Db} {hash : String} {s : AuthSession} (hdb : S.Fits db)
    (h : Db.sessionByHash hash db = some s) :
    s ∈ db.sessions ∧ s.refresh_token_hash = hash ∧ s.id = S.session hash := by
  have hmem := List.mem_of_find?_eq_some h
  have hhash : s.refresh_token_hash = hash := by simpa using List.find?_some h
  refine ⟨hmem, hhash, ?_⟩
  rw [← hhash]
  exact (hdb.sessions s hmem).2.symm

theorem session_of_consumed {db : Db} {hash : String} {s : AuthSession} (hdb : S.Fits db)
    (h : Db.sessionByConsumed hash db = some s) : s.id = S.session hash := by
  have hany := List.find?_some h
  simp only [List.any_eq_true, decide_eq_true_eq] at hany
  obtain ⟨x, hx, hhash, hid⟩ := hany
  rw [← hhash, hdb.history x hx, hid]

section Tokens

variable {hash : String} {done : List LockRequest}

theorem takes_lock_current_session (hQ : Q (done ++ [(.session (S.session hash), .update)])) :
    Takes S Q (lock_current_session hash) done fun x d =>
      (d = done ∧ x = none) ∨ (d = done ++ [(.session (S.session hash), .update)] ∧
        ∀ y, x = some y → ∃ db, S.Fits db ∧ Db.sessionByHash hash db = some y) :=
  Takes.selectLocked _
    (fun _ _ hdb hx => congrArg Resource.session (session_of_hash hdb hx).2.2) hQ

theorem takes_lock_consumed_session (hQ : Q (done ++ [(.session (S.session hash), .update)])) :
    Takes S Q (lock_consumed_session hash) done fun _ d =>
      d = done ∨ d = done ++ [(.session (S.session hash), .update)] :=
  .mono (fun _ _ h => h.imp And.left And.left) (Takes.selectLocked _
    (fun _ _ hdb hx => congrArg Resource.session (session_of_consumed hdb hx)) hQ)

end Tokens

/-- The requests of a plan that begins with two locks on a session. -/
theorem follows_sessionLocks {tx : Transaction} {session_id : UUID}
    (htx : S.locks tx = Schema.sessionLocks session_id) {done : List LockRequest}
    (hdone : done = [] ∨ done = [(.session session_id, .update)]) :
    S.Follows tx (done ++ [(.session session_id, .update)]) := by
  unfold Schema.Follows
  rw [htx]
  rcases hdone with rfl | rfl <;> exact ⟨_, rfl⟩

/-- `logout` takes the session of its token. -/
theorem takes_logout (sec : Security) (token : String) :
    Takes S (S.Follows (.logout (S.session (sec.hash_refresh_token token))))
      (logout sec token) [] fun _ _ => True := by
  have hend : ∀ (auth_session : Option AuthSession) (done : List LockRequest),
      Takes S (S.Follows (.logout (S.session (sec.hash_refresh_token token))))
        (logoutSession auth_session) done fun _ _ => True := by
    intro auth_session done
    cases auth_session with
    | none => trivial
    | some auth_session =>
        unfold logoutSession
        simp only
        split
        · exact fun _ _ => trivial
        · trivial
  unfold logout
  refine .next (takes_lock_current_session (follows_sessionLocks rfl (.inl rfl))) ?_
  intro x d hd
  cases x with
  | some auth_session => exact hend _ _
  | none =>
      have hd' := hd.imp And.left And.left
      refine .next (takes_lock_consumed_session (follows_sessionLocks rfl hd')) ?_
      exact fun y d' _ => hend y d'

/-- The branch of `refresh` for a token that is not current. -/
theorem takes_refreshConsumed {hash : String} {done : List LockRequest}
    (hQ : Q (done ++ [(.session (S.session hash), .update)])) :
    Takes S Q (refreshConsumed hash) done fun _ _ => True := by
  unfold refreshConsumed
  refine .next (takes_lock_consumed_session hQ) ?_
  intro y d _
  cases y with
  | none => trivial
  | some reused_session =>
      simp only
      split
      · exact fun _ _ => trivial
      · trivial

/-- `refresh` takes the session of its token, then its device. -/
theorem takes_refresh (sec : Security) (token : String) :
    Takes S (fun ls => ∃ tx, (tx = .refresh (S.session (sec.hash_refresh_token token)) true ∨
        tx = .refreshConsumed (S.session (sec.hash_refresh_token token))) ∧ S.Follows tx ls)
      (refresh sec token) [] fun _ _ => True := by
  unfold refresh
  refine .next (takes_lock_current_session ⟨_, .inr rfl, follows_sessionLocks rfl (.inl rfl)⟩) ?_
  intro x d hd
  have hconsumed : Takes S (fun ls => ∃ tx,
      (tx = .refresh (S.session (sec.hash_refresh_token token)) true ∨
        tx = .refreshConsumed (S.session (sec.hash_refresh_token token))) ∧ S.Follows tx ls)
      (refreshConsumed (sec.hash_refresh_token token)) d fun _ _ => True :=
    takes_refreshConsumed ⟨_, .inr rfl, follows_sessionLocks rfl (hd.imp And.left And.left)⟩
  cases x with
  | none => exact hconsumed
  | some auth_session =>
      simp only
      split
      · exact hconsumed
      · rcases hd with ⟨-, hnone⟩ | ⟨rfl, hsome⟩
        · cases hnone
        · obtain ⟨db, hdb, hfind⟩ := hsome auth_session rfl
          obtain ⟨hmem, hhash, hid⟩ := session_of_hash hdb hfind
          unfold refreshCurrent
          refine .bind fun db₁ hdb₁ => ?_
          simp only [Takes]
          cases hdevice : Db.deviceById auth_session.device_id db₁ with
          | none => trivial
          | some device =>
              refine .bind fun db₂ hdb₂ => ?_
              simp only [Takes]
              cases huser : Db.userById device.user_id db₂ with
              | none => trivial
              | some user =>
                  refine .bind fun checked => ?_
                  simp only [Takes]
                  split
                  · trivial
                  · refine .bind fun now => .bind fun rotated_token => ?_
                    have hrow : device.id =
                      S.device (S.session (sec.hash_refresh_token token)) := by
                      have hfound : device.id = auth_session.device_id := by
                        simpa using List.find?_some hdevice
                      rw [hfound, (hdb.sessions auth_session hmem).1, hid]
                    refine ⟨⟨_, .inl rfl, ?_⟩, fun a => ?_⟩
                    · rw [hrow]
                      exact ⟨_, rfl⟩
                    · cases a with
                      | ok => exact fun _ => trivial
                      | error x => trivial

/-- `revoke_device` takes the user, the device and then the sessions.  The
user of an authenticated request is registered. -/
theorem takes_revoke_device (principal : Principal) (device_id : UUID)
    (hprincipal : ∀ db, S.Fits db → (db.userById principal.user_id).isSome) :
    Takes S (fun ls => ∃ ids, S.Follows (.revokeDevice principal.user_id device_id ids) ls)
      (revoke_device principal device_id) [] fun _ _ => True := by
  have hid : ∀ {db : Db} {user : User}, db.userById principal.user_id = some user →
      user.id = principal.user_id := by
    intro db user hfind
    simpa using List.find?_some hfind
  unfold revoke_device
  refine .next (p := Server.selectLocked _ _ _) (P := fun _ d =>
    d = [(.user principal.user_id, .update)]) ?_ ?_
  · unfold Server.selectLocked
    refine .bind fun db hdb => ?_
    simp only [Takes]
    obtain ⟨user, hfind⟩ := Option.isSome_iff_exists.mp (hprincipal db hdb)
    rw [hfind]
    refine .next (Takes.lock ?_) ?_
    · rw [hid hfind]
      exact ⟨[], _, rfl⟩
    · rintro _ _ rfl db' hdb'
      simp only [Takes]
      rw [hid hfind]
      rfl
  rintro _ _ rfl
  refine .bind fun db hdb => ?_
  simp only [Takes]
  cases hdevice : (db.deviceById device_id).filter fun d =>
      decide (d.user_id = principal.user_id) with
  | none => trivial
  | some device =>
      simp only
      obtain ⟨hfind, howner⟩ := Option.filter_eq_some_iff.mp hdevice
      have hrow : device.id = device_id := by simpa using List.find?_some hfind
      have huser : S.user device_id = principal.user_id := by
        rw [← hrow, ← hdb.devices device (List.mem_of_find?_eq_some hfind)]
        simpa using howner
      have hplan : ∀ ids, (∀ s ∈ ids, S.device s = device_id) →
          (S.locks (.revokeDevice principal.user_id device_id ids)).filterMap RowLock.request =
            [(.user principal.user_id, .update), (.device device_id, .update)] ++
              (ids.map Resource.session).map (·, LockMode.update) := by
        intro ids hids
        have hfilter : ids.filter (fun s => decide (S.device s = device_id)) = ids :=
          List.filter_eq_self.mpr fun s hs => decide_eq_true (hids s hs)
        simp [Schema.locks, huser, hfilter, RowLock.request, List.filterMap_map,
          Function.comp_def]
      split
      · refine .bind fun now => ?_
        rw [hrow]
        refine .next (Takes.lock ?_) ?_
        · refine ⟨[], ?_⟩
          unfold Schema.Follows
          rw [hplan [] (by simp)]
          exact ⟨_, rfl⟩
        · rintro _ _ rfl
          refine .bind fun db' hdb' => ?_
          simp only [Takes]
          refine .next (Takes.lockAll fun ls hls => ⟨(db'.sessions.filter fun s =>
            decide (s.device_id = device_id) && s.revoked_at.isNone).map (·.id), ?_⟩)
            fun _ _ _ _ => trivial
          unfold Schema.Follows
          rw [hplan]
          · exact hls
          · intro s hs
            obtain ⟨row, hrow', rfl⟩ := List.mem_map.mp hs
            obtain ⟨hmem, hcond⟩ := List.mem_filter.mp hrow'
            rw [← (hdb'.sessions row hmem).1]
            simp only [Bool.and_eq_true, decide_eq_true_eq] at hcond
            exact hcond.1
      · trivial

/-- `acknowledge` takes its envelope. -/
theorem takes_acknowledge (principal : Principal) (envelope_id : UUID) :
    Takes S (S.Follows (.acknowledge envelope_id)) (acknowledge principal envelope_id) []
      fun _ _ => True := by
  unfold acknowledge
  refine .bind fun now => ?_
  refine .next (P := fun _ _ => True) ?_ ?_
  · unfold acknowledge_envelope
    refine .next (Takes.selectLocked (.envelope envelope_id) ?_ ⟨[], rfl⟩) ?_
    · intro db e _ hfind
      have hid : e.id = envelope_id := by
        have := List.find?_some hfind
        simp only [decide_eq_true_eq] at this
        exact this.1
      rw [hid]
    · intro x d _
      cases x with
      | none => trivial
      | some envelope =>
          refine .bind fun _ => .bind fun db _ => ?_
          simp only [Takes]
          split <;> trivial
  · intro x d _
    match x with
    | none => trivial
    | some (envelope, sender_user_id) =>
        refine .bind fun db _ => ?_
        trivial

/-- `login` takes the user, then a device it knows. -/
theorem takes_login (sec : Security) (request : LoginRequest) :
    Takes S (fun ls => ∃ user_id known, S.Follows (.login user_id request.device_id known) ls)
      (login sec request) [] fun _ _ => True := by
  unfold login
  refine .next (P := fun (user : User) d => d = [(.user user.id, .update)]) ?_ ?_
  · unfold authenticate_and_lock_user
    refine .bind fun db _ => ?_
    simp only [Takes]
    cases hfind : Db.userByName request.username db with
    | none => trivial
    | some found =>
        simp only
        split
        · trivial
        · have hid : ∀ {db : Db} {user : User}, Db.userById found.id db = some user →
              user.id = found.id := by
            intro db user hfind
            simpa using List.find?_some hfind
          refine .next (Takes.selectLocked (.user found.id) ?_ ⟨found.id, true, ?_⟩) ?_
          · intro db user _ hfind
            rw [hid hfind]
          · exact ⟨_, rfl⟩
          · intro x d hd
            cases x with
            | none => trivial
            | some user =>
                simp only
                split
                · trivial
                · rcases hd with ⟨-, hnone⟩ | ⟨rfl, hsome⟩
                  · cases hnone
                  · obtain ⟨db, -, hfind⟩ := hsome user rfl
                    simp only [Prog.pure_eq, Takes]
                    rw [hid hfind]
                    rfl
  rintro user _ rfl
  refine .bind fun now => .next (P := fun _ _ => True) ?_ ?_
  · unfold register_or_update_device
    refine .bind fun db hdb => ?_
    simp only [Takes]
    cases hfind : Db.deviceById request.device_id db with
    | none =>
        refine .bind fun _ => fun a => ?_
        cases a with
        | ok => trivial
        | error x =>
            cases x <;> trivial
    | some device =>
        simp only
        split
        · trivial
        · rename_i howner
          split
          · trivial
          · have hrow : device.id = request.device_id := by simpa using List.find?_some hfind
            have huser : S.user request.device_id = user.id := by
              rw [← hrow, ← hdb.devices device (List.mem_of_find?_eq_some hfind)]
              exact not_not.mp howner
            rw [hrow]
            refine .next (Takes.lock ⟨user.id, true, ?_⟩) fun _ _ _ _ => trivial
            unfold Schema.Follows
            simp only [Schema.locks, if_pos huser]
            exact ⟨_, rfl⟩
  · intro device d _
    refine .bind fun token => .bind fun id => .bind fun _ => ?_
    trivial

/-! ### Messages -/

/-- The transactions of a send. -/
def SendRuns (principal : Principal) (chat_id : UUID) (tx : Transaction) : Prop :=
  (∃ ids, tx = .resend ids) ∨ ∃ other devices, tx = .send principal chat_id other devices

theorem takes_get_message_by_client_id (device_id client_message_id : UUID)
    (done : List LockRequest) :
    Takes S Q (get_message_by_client_id device_id client_message_id) done fun _ d => d = done := by
  unfold get_message_by_client_id
  refine .bind fun db _ => ?_
  simp only [Takes]
  split
  · rfl
  · exact .bind fun _ _ => rfl

theorem follows_resend (ids : List UUID) {ls : List LockRequest}
    (h : ls <+: (ids.map Resource.envelope).map (·, LockMode.update)) :
    S.Follows (.resend ids) ls := by
  unfold Schema.Follows Schema.locks
  simpa [List.filterMap_map, RowLock.request, Function.comp_def] using h

theorem follows_send {principal : Principal} {chat_id other : UUID} {devices : List UUID}
    {ls : List LockRequest}
    (h : ls <+: [(.chat chat_id, .update)] ++
      (sortedPair other principal.user_id).map (fun u => (.user u, .share)) ++
      (S.recipients principal.user_id other devices).map (fun d => (.mailbox d, .update))) :
    S.Follows (.send principal chat_id other devices) ls := by
  unfold Schema.Follows Schema.locks
  rw [List.filterMap_append]
  refine h.trans ?_
  simp [List.filterMap_append, List.filterMap_map, RowLock.request, Function.comp_def]

/-- A stored message is found: the purge takes its envelopes. -/
theorem takes_lookup {principal : Principal} {chat_id client_message_id : UUID} :
    Takes S (fun ls => ∃ tx, SendRuns principal chat_id tx ∧ S.Follows tx ls)
      (lookup principal client_message_id) [] fun _ d => d = [] := by
  unfold lookup
  refine .next (takes_get_message_by_client_id _ _ _) ?_
  rintro x _ rfl
  cases x with
  | none => rfl
  | some existing =>
      refine .bind fun now => .next (P := fun _ _ => True) ?_ fun _ _ _ => trivial
      unfold purge_expired_for_message executeUpdate
      refine .bind fun db _ => ?_
      simp only [Takes]
      refine .next (Takes.lockAll fun ls hls => ⟨_, .inl ⟨_, rfl⟩, follows_resend _ hls⟩) ?_
      intro _ d _
      exact .bind fun _ _ _ => trivial

/-- The users are locked in the order of the list. -/
theorem takes_lock_device_sets {ids : List UUID} {done : List LockRequest}
    (hQ : ∀ ls, ls <+: done ++ ids.map (fun u => (.user u, .share)) → Q ls) :
    Takes S Q (lock_device_sets ids) done fun _ d =>
      d = done ++ ids.map fun u => (.user u, .share) := by
  induction ids generalizing done with
  | nil => exact (List.append_nil done).symm
  | cons user_id ids ih =>
      unfold lock_device_sets lock_device_set
      refine .bind (.next (Takes.selectLocked (.user user_id) ?_ (hQ _ ?_)) ?_)
      · intro db user _ hfind
        have hid : user.id = user_id := by simpa using List.find?_some hfind
        rw [hid]
      · exact ⟨ids.map fun u => (.user u, .share), by simp⟩
      · intro x d hd
        cases x with
        | none => trivial
        | some user =>
            rcases hd with ⟨-, hnone⟩ | ⟨rfl, -⟩
            · cases hnone
            · change Takes S Q (lock_device_sets ids) _ _
              refine .mono ?_ (ih fun ls hls => hQ ls ?_)
              · rintro _ _ rfl
                simp
              · simpa using hls

/-- The recipients a send has read belong to the two users. -/
theorem owner_of_recipient {db db' : Db} (hdb : S.Fits db) (hdb' : S.Fits db')
    {principal : Principal} {other d : UUID}
    (h : d ∈ (recipient_devices principal.device_id
      (db.activeDevices other ++ db'.activeDevices principal.user_id)).map (·.id)) :
    S.user d = other ∨ S.user d = principal.user_id := by
  obtain ⟨device, hdevice, rfl⟩ := List.mem_map.mp h
  unfold recipient_devices at hdevice
  rw [List.mem_insertionSort, List.mem_filter] at hdevice
  rcases List.mem_append.mp hdevice.1 with hmem | hmem
  · obtain ⟨hmem, howner, -⟩ := mem_activeDevices.mp hmem
    exact .inl ((hdb.devices device hmem).symm.trans howner)
  · obtain ⟨hmem, howner, -⟩ := mem_activeDevices.mp hmem
    exact .inr ((hdb'.devices device hmem).symm.trans howner)

/-- The mailboxes of recipients, as selected, are the recipients of the plan. -/
theorem recipients_eq {db : Db} {ids : List UUID} {sender_id other : UUID}
    (hids : ∀ d ∈ ids, S.user d = other ∨ S.user d = sender_id) :
    S.recipients sender_id other ((db.mailboxesOf ids).map (·.device_id)) =
      (db.mailboxesOf ids).map (·.device_id) := by
  have howners : ∀ d ∈ (db.mailboxesOf ids).map (·.device_id),
      decide (S.user d = other ∨ S.user d = sender_id) = true := by
    intro d hd
    obtain ⟨b, hb, rfl⟩ := List.mem_map.mp hd
    exact decide_eq_true (hids _ (mem_mailboxesOf.mp hb).2)
  have hsorted : ((db.mailboxesOf ids).map (·.device_id)).Pairwise (· ≤ ·) := by
    rw [List.pairwise_map]
    exact List.pairwise_insertionSort (fun a b : DeviceMailbox => a.device_id ≤ b.device_id) _
  unfold Schema.recipients
  rw [List.filter_eq_self.mpr howners]
  exact hsorted.insertionSort_eq

/-- The mailboxes come after the chat and the users. -/
theorem takes_lock_mailboxes {principal : Principal} {chat_id other_user_id : UUID}
    {ids : List UUID}
    (hids : ∀ d ∈ ids, S.user d = other_user_id ∨ S.user d = principal.user_id) :
    Takes S (fun ls => ∃ tx, SendRuns principal chat_id tx ∧ S.Follows tx ls) (lock_mailboxes ids)
      ([(.chat chat_id, .update)] ++
        (sortedPair other_user_id principal.user_id).map fun u => (.user u, .share))
      fun _ _ => True := by
  unfold lock_mailboxes
  refine .bind fun db _ => ?_
  simp only [Takes]
  refine .next (Takes.lockAll fun ls hls => ?_) fun _ _ _ _ _ => trivial
  refine ⟨.send principal chat_id other_user_id ((db.mailboxesOf ids).map (·.device_id)),
    .inr ⟨other_user_id, _, rfl⟩, follows_send ?_⟩
  rw [recipients_eq hids]
  simpa [Function.comp_def] using hls

/-- The locks of `_lock_destination_mailboxes`, under the lock of the chat. -/
theorem takes_lock_destination_mailboxes (principal : Principal) (chat_id other_user_id : UUID)
    (supplied_device_ids : List UUID) :
    Takes S (fun ls => ∃ tx, SendRuns principal chat_id tx ∧ S.Follows tx ls)
      (lock_destination_mailboxes principal other_user_id supplied_device_ids)
      [(.chat chat_id, .update)] fun _ _ => True := by
  unfold lock_destination_mailboxes
  refine .next (takes_lock_device_sets fun ls hls =>
    ⟨_, .inr ⟨other_user_id, [], rfl⟩, follows_send (hls.trans ⟨_, rfl⟩)⟩) ?_
  rintro _ _ rfl
  refine .bind fun db hdb => ?_
  simp only [Takes]
  split
  · trivial
  refine .bind fun db' hdb' => ?_
  simp only [Takes]
  split
  · trivial
  split
  · trivial
  have howners : ∀ d ∈ ((recipient_devices principal.device_id (db.activeDevices other_user_id ++
      db'.activeDevices principal.user_id)).map fun d => (d.id, d.user_id)).map (·.1),
      S.user d = other_user_id ∨ S.user d = principal.user_id := by
    intro d hd
    rw [List.map_map] at hd
    exact owner_of_recipient hdb hdb' hd
  refine .next (takes_lock_mailboxes howners) fun mailboxes _ _ => ?_
  split
  · trivial
  · trivial

theorem takes_create_envelopes (message : Message) (supplied : List Supplied)
    (device_users : List (UUID × UUID)) (mailboxes : List DeviceMailbox)
    (done : List LockRequest) :
    Takes S Q (create_envelopes message supplied device_users mailboxes) done
      fun _ _ => True := by
  induction mailboxes with
  | nil => trivial
  | cons mailbox rest ih =>
      unfold create_envelopes
      split
      · exact .bind fun id => .next ih fun _ _ _ => trivial
      · trivial

/-- **`send` takes the chat, the users and the mailboxes.** -/
theorem takes_send (principal : Principal) (request : SendMessageRequest) :
    Takes S (fun ls => ∃ tx, SendRuns principal request.chat_id tx ∧ S.Follows tx ls)
      (send principal request) [] fun _ _ => True := by
  unfold send
  refine .next takes_lookup ?_
  rintro x _ rfl
  cases x with
  | some existing => trivial
  | none =>
      refine .bind fun db _ => ?_
      simp only [Takes]
      split
      · trivial
      · rename_i other_user_id _
        refine .next (P := fun _ d => d = []) ?_ ?_
        · cases validate_envelopes [] request.envelopes with
          | ok supplied => rfl
          | error x => trivial
        rintro supplied _ rfl
        unfold lock_chat
        refine .next (Takes.selectLocked (.chat request.chat_id) ?_
          ⟨_, .inr ⟨other_user_id, [], rfl⟩, follows_send ⟨_, rfl⟩⟩) ?_
        · intro db chat _ hfind
          have hid : chat.id = request.chat_id := by
            have := List.find?_some hfind
            simp only [Bool.and_eq_true, decide_eq_true_eq] at this
            exact this.1.1
          rw [hid]
        · intro x d hd
          cases x with
          | none => trivial
          | some chat =>
              rcases hd with ⟨-, hnone⟩ | ⟨rfl, -⟩
              · cases hnone
              · unfold sendLocked
                refine .next (takes_get_message_by_client_id _ _ _) ?_
                rintro x _ rfl
                cases x with
                | some existing => trivial
                | none =>
                    refine .next (takes_lock_destination_mailboxes _ _ _ _) ?_
                    rintro ⟨mailboxes, device_users⟩ d -
                    refine .bind fun now => .bind fun id => ?_
                    refine .next (takes_create_envelopes _ _ _ _ _) fun envelopes d _ => ?_
                    exact .bind fun _ => trivial

theorem takes_notified_devices (user_ids : List UUID) (done : List LockRequest) :
    Takes S Q (notified_devices user_ids) done fun _ _ => True := by
  induction user_ids with
  | nil => trivial
  | cons user_id rest ih =>
      unfold notified_devices
      exact .bind fun db _ => .next ih fun _ _ _ => trivial

/-- Under the lock of the chat an advance takes no other. -/
theorem takes_advanceLocked (principal : Principal) (chat_id : UUID) (last_read_seq : Int)
    (other_user_id : UUID) (chat : Chat) (done : List LockRequest) :
    Takes S Q (advanceLocked principal chat_id last_read_seq other_user_id chat) done
      fun _ _ => True := by
  unfold advanceLocked
  split
  · trivial
  refine .next (P := fun _ _ => True) ?_ fun known d _ => ?_
  · unfold position_known
    split
    · trivial
    · exact fun _ _ => trivial
  split
  · trivial
  refine .bind fun db _ => ?_
  simp only [Takes]
  unfold saveReadState
  split
  · refine .bind fun now => .bind fun _ => .bind fun flushed => ?_
    cases flushed with
    | ok => exact .next (takes_notified_devices _ _) fun devices d _ => .bind trivial
    | error x => trivial
  · exact .bind trivial

/-- `advance` takes the chat. -/
theorem takes_advance (principal : Principal) (chat_id : UUID) (last_read_seq : Int) :
    Takes S (S.Follows (.advance chat_id)) (advance principal chat_id last_read_seq) []
      fun _ _ => True := by
  unfold advance
  refine .bind fun db _ => ?_
  simp only [Takes]
  split
  · trivial
  · unfold lock_chat
    refine .next (Takes.selectLocked (.chat chat_id) ?_ ⟨[], rfl⟩) ?_
    · intro db chat _ hfind
      have hid : chat.id = chat_id := by
        have := List.find?_some hfind
        simp only [Bool.and_eq_true, decide_eq_true_eq] at this
        exact this.1.1
      rw [hid]
    · intro x d hd
      cases x with
      | none => trivial
      | some chat => exact takes_advanceLocked _ _ _ _ _ _

/-- The transactions of a request. -/
def Schema.Serves (S : Schema) (sec : Security) : Op → Transaction → Prop
  | .send principal request, tx => SendRuns principal request.chat_id tx
  | .acknowledge _ envelope_id, tx => tx = .acknowledge envelope_id
  | .login request, tx => ∃ user_id known, tx = .login user_id request.device_id known
  | .refresh token, tx =>
      tx = .refresh (S.session (sec.hash_refresh_token token)) true ∨
        tx = .refreshConsumed (S.session (sec.hash_refresh_token token))
  | .logout token, tx => tx = .logout (S.session (sec.hash_refresh_token token))
  | .revokeDevice principal device_id, tx =>
      ∃ ids, tx = .revokeDevice principal.user_id device_id ids
  | .advance _ chat_id _, tx => tx = .advance chat_id
  | _, _ => False

/-- **The requests lock rows in the order of their plans**, whatever other
transactions commit in between. -/
theorem requests_follow_plans (sec : Security) {op : Op} {tx₀ : Transaction}
    (hserves : S.Serves sec op tx₀)
    (hprincipal : ∀ principal device_id, op = .revokeDevice principal device_id →
      ∀ db, S.Fits db → (db.userById principal.user_id).isSome) :
    Takes S (fun ls => ∃ tx, S.Serves sec op tx ∧ S.Follows tx ls) (op.body sec) []
      fun _ _ => True := by
  cases op with
  | send principal request =>
      exact .next (takes_send principal request) fun _ _ _ => trivial
  | acknowledge principal envelope_id =>
      refine .next ((takes_acknowledge principal envelope_id).imp ?_ fun _ _ h => h)
        fun _ _ _ => trivial
      exact fun ls h => ⟨_, rfl, h⟩
  | login request =>
      refine .next ((takes_login sec request).imp ?_ fun _ _ h => h) fun _ _ _ => trivial
      rintro ls ⟨user_id, known, h⟩
      exact ⟨_, ⟨user_id, known, rfl⟩, h⟩
  | refresh token =>
      exact .next (takes_refresh sec token) fun _ _ _ => trivial
  | logout token =>
      refine .next ((takes_logout sec token).imp ?_ fun _ _ h => h) fun _ _ _ => trivial
      exact fun ls h => ⟨_, rfl, h⟩
  | revokeDevice principal device_id =>
      refine .next ((takes_revoke_device principal device_id
        (hprincipal principal device_id rfl)).imp ?_ fun _ _ h => h) fun _ _ _ => trivial
      rintro ls ⟨ids, h⟩
      exact ⟨_, ⟨ids, rfl⟩, h⟩
  | advance principal chat_id last_read_seq =>
      refine .next ((takes_advance principal chat_id last_read_seq).imp ?_ fun _ _ h => h)
        fun _ _ _ => trivial
      exact fun ls h => ⟨_, rfl, h⟩
  | lookup => exact hserves.elim
  | destinationDevices => exact hserves.elim
  | mailbox => exact hserves.elim
  | purgeExpiredBatch => exact hserves.elim
  | authenticate => exact hserves.elim
  | openDirectChat => exact hserves.elim
  | sentPage => exact hserves.elim
  | chatStates => exact hserves.elim

end Server
end SecureMessenger

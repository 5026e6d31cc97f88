import SecureMessenger.Server.AuthTransactions
import SecureMessenger.Server.ReadTransactions
import SecureMessenger.Server.DirectChatTransactions

/-!
# The server keeps its discipline

Every request keeps the locking discipline, so the invariant holds in every
state the server can reach: the database is well formed, each committed
transaction has one of the effects of its request, and each outcome means what
it says.
-/

namespace SecureMessenger
namespace Server

open Lib
open Lib.Discipline

/-- A server about to take its first request, on any well-formed database. -/
structure World.Initial (sec : Security) (w : World) : Prop where
  wf : Wf w.db
  rotation : sec.Distinct → Rotation w.db
  known : ∀ h, HashKnown w.db h → ∃ token ∈ w.issued, sec.hash_refresh_token token = h
  issued : ∀ token ∈ w.issued, token ∈ sec.tokens
  history : w.history = []
  idle : ∀ t, World.Idle t w

section Requests

variable {sec : Security} {t : Tid} {w : World}

theorem safe_body {op : Op}
    (hb : Begun sec t op w) (hnew : commitsOf t w = []) :
    Tx sec t (op.body sec) (fun r w' => Ended sec t op (.ok r) w')
      (fun x w' => Ended sec t op (.error x) w') w := by
  cases op with
  | send principal request =>
      exact Safe.bind (safe_send hb hnew)
  | lookup principal id =>
      exact Safe.bind (safe_lookup_request hb)
  | acknowledge principal id =>
      exact Safe.bind (safe_acknowledge hb)
  | destinationDevices principal chat_id =>
      exact Safe.bind (safe_destination_devices hb)
  | mailbox principal after_seq limit =>
      exact Safe.bind (safe_mailbox hb)
  | purgeExpiredBatch batch_size now =>
      exact Safe.bind (safe_purge_expired_batch hb)
  | login request =>
      exact Safe.bind (safe_login hb)
  | refresh token =>
      exact Safe.bind (safe_refresh hb)
  | logout token =>
      exact Safe.bind (safe_logout hb)
  | revokeDevice principal device_id =>
      exact Safe.bind (safe_revoke_device hb)
  | authenticate claims =>
      exact Safe.bind (safe_authenticate_access_token hb)
  | advance principal chat_id last_read_seq =>
      exact Safe.bind (safe_advance hb hnew)
  | openDirectChat requester_id target_user_id =>
      exact Safe.bind (safe_open_direct_chat hb hnew)
  | sentPage principal after limit unread_only =>
      exact Safe.bind (safe_sent_page hb)
  | chatStates principal after limit =>
      exact Safe.bind (safe_states_page hb)

theorem Ended.since {op : Op} {o : Except PyError Result} {w' : World}
    (h : Ended sec t op o w) (hs : Since sec t w w') : Ended sec t op o w' := by
  refine ⟨hs.inv, ?_, hs.op.trans h.op, hs.outcome.trans h.outcome⟩
  rw [hs.commits, hs.began]
  exact (h.result.grow hs.grow.db).tell hs.published

/-- Recording the outcome. -/
theorem keeps_finish {op : Op} {o : Except PyError Result} (h : Ended sec t op o w) :
    (serverDiscipline sec).Keeps t w
      { w with outcome := Function.update w.outcome t (some o) } := by
  have hi := h.inv
  refine ⟨⟨hi.wf, hi.locks, hi.commits, hi.order, hi.chain, hi.last, fun u o' ho => ?_,
    hi.published, hi.rotation, hi.known, hi.issued, hi.drawn, hi.owner⟩,
    ⟨Grows.refl _, ⟨[], rfl, fun _ hc => by cases hc⟩, fun _ _ hop => ⟨hop, rfl⟩, ?_⟩,
    fun u hu => ⟨rfl, rfl, rfl, rfl, by simp [hu], rfl, rfl, rfl, fun r _ => Same.refl r _,
      fun _ _ _ hk => hk⟩⟩
  · by_cases hut : u = t
    · subst hut
      simp only [Function.update_self, Option.some.injEq] at ho
      subst ho
      exact ⟨op, h.op, h.result⟩
    · simp only [Function.update_of_ne hut] at ho
      exact hi.outcomes u o' ho
  · intro u op' hnone hop
    rw [hnone] at hop
    cases hop

theorem safe_prog {op : Op}
    (hb : Begun sec t op w) (hnew : commitsOf t w = []) :
    (serverDiscipline sec).Ends (serverSystem sec) t (op.prog sec) w := by
  show Tx sec t (op.prog sec) _ _ w
  unfold Op.prog
  refine Safe.bind (Safe.attempt (Q := fun o w' => Tx sec t _ _ _ w')
    (Safe.mono (safe_body hb hnew) (fun r w₁ h₁ => ?_) fun x w₁ h₁ => ?_))
  all_goals
    refine Safe.bind (safe_rollback fun w₂ hs₂ => ?_)
    have h₂ := h₁.since hs₂
    intro w₃ hd₃ a w₄ hx
    have hx : w₄ = { w₃ with outcome := Function.update w₃.outcome t (some _) } := hx
    subst hx
    have hclose : Ended sec t op _ (w₂.close t) :=
      ⟨(localStep_close w₂).inv h₂.inv, h₂.result, h₂.op, h₂.outcome⟩
    exact ⟨keeps_finish (hclose.since (Since.of_drift hd₃)), trivial⟩

/-- A request arrives on a thread that has not been used. -/
theorem keeps_arrive (hi : Inv sec w) (hidle : World.Idle t w) (op : Op) :
    (serverDiscipline sec).Keeps t w (w.arrive t op) := by
  refine ⟨⟨hi.wf, hi.locks, ?_, hi.order, hi.chain, hi.last, ?_, ?_, hi.rotation, hi.known,
    hi.issued, hi.drawn, hi.owner⟩,
    ⟨Grows.refl _, ⟨[], rfl, fun _ hc => by cases hc⟩, ?_, ?_⟩, fun u hu => ?_⟩
  · intro c hc
    obtain ⟨op', hop', hrest⟩ := hi.commits c hc
    have hne : c.tid ≠ t := by
      intro heq
      rw [heq, hidle.op] at hop'
      cases hop'
    exact ⟨op', by simpa [World.arrive, hne] using hop', hrest⟩
  · intro u o ho
    have hne : u ≠ t := by
      intro heq
      have : w.outcome u = some o := ho
      rw [heq, hidle.outcome] at this
      cases this
    obtain ⟨op', hop', hout⟩ := hi.outcomes u o ho
    refine ⟨op', by simpa [World.arrive, hne] using hop', ?_⟩
    show Outcome sec (commitsOf u w) (w.published u) (Function.update w.began t w.db u) w.db op' o
    rw [Function.update_of_ne hne]
    exact hout
  · intro u principal chat_id last_read_seq hop d hd
    by_cases hut : u = t
    · subst hut
      have hd' : d ∈ w.published u := hd
      rw [hidle.published] at hd'
      cases hd'
    · simp only [World.arrive, Function.update_of_ne hut] at hop ⊢
      exact hi.published u principal chat_id last_read_seq hop d hd
  · intro u op' hop'
    have hne : u ≠ t := by
      intro heq
      rw [heq, hidle.op] at hop'
      cases hop'
    simpa [World.arrive, hne] using hop'
  · intro u op' hnone hop'
    by_cases hut : u = t
    · rw [hut]
      simp only [World.arrive, Function.update_self]
      exact Grows.refl _
    · simp only [World.arrive, Function.update_of_ne hut] at hop'
      rw [hnone] at hop'
      cases hop'
  · exact ⟨rfl, rfl, by simp [World.arrive, hu], by simp [World.arrive, hu], rfl, rfl, rfl, rfl,
      fun r _ => Same.refl r _, fun _ _ _ hk => hk⟩

theorem begun_arrive (hi : Inv sec w) (hidle : World.Idle t w) (op : Op) :
    Begun sec t op (w.arrive t op) where
  inv := (keeps_arrive hi hidle op).inv
  op := by simp [World.arrive]
  outcome := hidle.outcome
  pending := hidle.pending
  began := by
    simp only [World.arrive, Function.update_self]
    exact Grows.refl _

/-- The server keeps the discipline. -/
theorem server_respected :
    (serverDiscipline sec).Respected (serverSystem sec) where
  start := by
    rintro t op w w' hi hidle rfl
    exact ⟨keeps_arrive hi hidle op, safe_prog (begun_arrive hi hidle op) hidle.commits⟩
  stop := by
    rintro t w w' hi rfl
    exact ⟨(localStep_close w).keeps hi, trivial⟩
  env := fun _ _ _ h => h.elim

theorem World.Initial.inv (h : World.Initial sec w) : Inv sec w where
  wf := h.wf
  locks := by
    intro t u r _ hupd
    rw [(h.idle t).held] at hupd
    cases hupd
  commits := by
    rw [h.history]
    intro c hc
    cases hc
  order := by
    rw [h.history]
    exact List.Pairwise.nil
  chain := by
    rw [h.history]
    exact .nil
  last := by
    rw [h.history]
    intro c hc
    cases hc
  outcomes := by
    intro t o ho
    rw [(h.idle t).outcome] at ho
    cases ho
  published := by
    intro t principal chat_id last_read_seq hop
    rw [(h.idle t).op] at hop
    cases hop
  rotation := h.rotation
  known := h.known
  issued := h.issued
  drawn := by
    intro t token htok
    rw [(h.idle t).drawn] at htok
    cases htok
  owner := by
    intro t u token htok
    rw [(h.idle t).drawn] at htok
    cases htok

/-- The invariant holds in every reachable state. -/
theorem reachable_inv {p : Pool Sql Sql.Answer PyError World}
    (hp : System.Reachable (serverSystem sec) (World.Initial sec) p) : Inv sec p.shared :=
  (sound server_respected (fun _ h => ⟨h.inv, h.idle⟩) hp).inv

/-- What every run respects. -/
theorem reaches_grows {p p' : Pool Sql Sql.Answer PyError World}
    (hp : System.Reachable (serverSystem sec) (World.Initial sec) p)
    (h : System.Reaches (serverSystem sec) p p') : World.Grows p.shared p'.shared :=
  grows server_respected (fun _ h => ⟨h.inv, h.idle⟩) hp h

end Requests

/-! ## What the transactions preserve -/

section Commits

variable {sec : Security} {p p' : Pool Sql Sql.Answer PyError World}

theorem db_grantFree (t : Tid) (ids : List UUID) :
    ∀ w : World, (w.grantFree t ids).db = w.db ∧ (w.grantFree t ids).history = w.history := by
  induction ids with
  | nil => exact fun w => ⟨rfl, rfl⟩
  | cons id ids ih => exact fun w => ih (w.grant t (.envelope id) .update)

/-- The rows change only when a transaction commits. -/
theorem exec_commits {t : Tid} {c : Sql} {w w' : World} {a : c.Answer}
    (h : World.exec sec t c w a w') :
    (w'.db = w.db ∧ w'.history = w.history) ∨ w'.history = ⟨t, w.db, w'.db⟩ :: w.history := by
  cases c with
  | query f =>
      obtain ⟨-, rfl⟩ := h
      exact .inl ⟨rfl, rfl⟩
  | lock r mode =>
      rcases h with ⟨-, -, rfl⟩ | ⟨-, rfl⟩
      · exact .inl ⟨rfl, rfl⟩
      · exact .inl ⟨rfl, rfl⟩
  | lockFree f =>
      obtain ⟨locked, -, -, -, rfl⟩ := h
      exact .inl (db_grantFree t _ w)
  | commit =>
      rcases h with ⟨-, -, rfl⟩ | ⟨-, -, rfl⟩ | ⟨-, rfl⟩
      · exact .inr rfl
      · exact .inl ⟨rfl, rfl⟩
      · exact .inl ⟨rfl, rfl⟩
  | flush =>
      obtain ⟨rfl, -⟩ := h
      exact .inl ⟨rfl, rfl⟩
  | token =>
      obtain ⟨-, -, rfl⟩ := h
      exact .inl ⟨rfl, rfl⟩
  | write f => exact .inl (by obtain rfl := h; exact ⟨rfl, rfl⟩)
  | rollback => exact .inl (by obtain rfl := h; exact ⟨rfl, rfl⟩)
  | now => exact .inl (by obtain rfl := h; exact ⟨rfl, rfl⟩)
  | uuid4 => exact .inl (by obtain rfl := h; exact ⟨rfl, rfl⟩)
  | publish id => exact .inl (by obtain rfl := h; exact ⟨rfl, rfl⟩)
  | finish o => exact .inl (by obtain rfl := h; exact ⟨rfl, rfl⟩)

theorem step_commits {m : Move Op} (h : System.Step (serverSystem sec) m p p') :
    (p'.shared.db = p.shared.db ∧ p'.shared.history = p.shared.history) ∨
      ∃ t, p'.shared.history = ⟨t, p.shared.db, p'.shared.db⟩ :: p.shared.history := by
  cases h with
  | act ht hx =>
      rcases exec_commits hx with h | h
      · exact .inl h
      · exact .inr ⟨_, h⟩
  | unfold ht => exact .inl ⟨rfl, rfl⟩
  | start ht hs => exact .inl (by obtain rfl := hs; exact ⟨rfl, rfl⟩)
  | stop ht hs => exact .inl (by obtain rfl := hs; exact ⟨rfl, rfl⟩)
  | env hs => exact hs.elim

/-- What every transaction preserves holds in every committed state. -/
theorem reachable_committed {P : Db → Prop}
    (hP : ∀ {op db db'}, Effect sec op db db' → Wf db → Wf db' → P db → P db')
    (hp : System.Reachable (serverSystem sec) (fun w => World.Initial sec w ∧ P w.db) p) :
    P p.shared.db ∧ ∀ c ∈ p.shared.history, P c.before ∧ P c.after := by
  refine hp.induct (P := fun p => P p.shared.db ∧ ∀ c ∈ p.shared.history, P c.before ∧ P c.after)
    (fun w hw => ?_) fun p p' m hr ih hs => ?_
  · refine ⟨hw.2, fun c hc => ?_⟩
    have hc : c ∈ w.history := hc
    rw [hw.1.history] at hc
    cases hc
  · rcases step_commits hs with ⟨hdb, hhistory⟩ | ⟨t, hhistory⟩
    · rw [hdb, hhistory]
      exact ih
    · have hr' : System.Reachable (serverSystem sec) (World.Initial sec) p' := by
        obtain ⟨w, hw, h⟩ := hr.step hs
        exact ⟨w, hw.1, h⟩
      have hlast : (⟨t, p.shared.db, p'.shared.db⟩ : Commit) ∈ p'.shared.history :=
        hhistory ▸ List.mem_cons_self
      obtain ⟨op, -, heffect, hwf, hwf', -⟩ := (reachable_inv hr').commits _ hlast
      have hafter := hP heffect hwf hwf' ih.1
      refine ⟨hafter, fun c hc => ?_⟩
      rcases List.mem_cons.mp (hhistory ▸ hc) with rfl | hc
      · exact ⟨ih.1, hafter⟩
      · exact ih.2 c hc

end Commits

end Server
end SecureMessenger

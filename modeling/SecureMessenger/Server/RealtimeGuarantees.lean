import SecureMessenger.Server.RealtimeRuns

/-!
# What a process guarantees its sockets

An event is written to a socket only by a delivery that has authorized the
connection and has then found it to be the current one of its device; a command
is handled and answered only after its session has been authenticated again.  A
revoked session gets nothing of what is published after its revocation, and a
superseded connection never becomes current again.
-/

namespace SecureMessenger
namespace Server
namespace Realtime

open Lib

section Traces

variable {J : Type} {claims : String → Option Principal} {t : Tid}

/-- An own entry, and what is below it. -/
theorem exists_of_own {e : Entry J} {mine past : List (Entry J)} (h : own t past = e :: mine) :
    ∃ later earlier, past = later ++ e :: earlier ∧ own t earlier = mine := by
  obtain ⟨later, earlier, rfl, -, -, hrest⟩ := List.filter_eq_cons_iff.mp h
  exact ⟨later, earlier, rfl, hrest⟩

theorem exists_registered {d : UUID} {k : Connection} {trace : List (Entry J)}
    (h : connectionOf d trace = some k) :
    ∃ later u past, trace = later ++ .registered u d k :: past ∧
      ∀ e ∈ later, (∀ v k', e ≠ .registered v d k') ∧ ∀ v k', e ≠ .unregistered v d k' := by
  induction trace with
  | nil => cases h
  | cons e trace ih =>
      -- an entry about another device, or about no registration at all
      have hskip (hother : connectionOf d (e :: trace) = connectionOf d trace)
          (hr : ∀ v k', e ≠ .registered v d k') (hu : ∀ v k', e ≠ .unregistered v d k') :
          ∃ later u past, e :: trace = later ++ .registered u d k :: past ∧
            ∀ e' ∈ later, (∀ v k', e' ≠ .registered v d k') ∧
              ∀ v k', e' ≠ .unregistered v d k' := by
        obtain ⟨later, u, past, htrace, hlater⟩ := ih (hother.symm.trans h)
        refine ⟨e :: later, u, past, congrArg (e :: ·) htrace, fun e' he' => ?_⟩
        rcases List.mem_cons.mp he' with rfl | he'
        · exact ⟨hr, hu⟩
        · exact hlater e' he'
      cases e with
      | registered u d' k' =>
          by_cases hd : d' = d
          · subst hd
            obtain rfl := Option.some.inj ((if_pos rfl).symm.trans h)
            exact ⟨[], u, trace, rfl, fun e' he' => (by cases he')⟩
          · exact hskip (if_neg hd) (fun v k' heq => (by cases heq; exact hd rfl))
              fun v k' heq => (by cases heq)
      | unregistered u d' k' =>
          by_cases hd : d' = d
          · subst hd
            cases (if_pos rfl).symm.trans h
          · exact hskip (if_neg hd) (fun v k' heq => (by cases heq))
              fun v k' heq => (by cases heq; exact hd rfl)
      | _ => exact hskip rfl (fun v k' heq => (by cases heq)) fun v k' heq => (by cases heq)

theorem Sound.suffix {later past : List (Entry J)} (h : Sound claims (later ++ past)) :
    Sound claims past := by
  induction later with
  | nil => exact h
  | cons e later ih => exact ih h.2

theorem Sound.past {e : Entry J} {later past : List (Entry J)}
    (h : Sound claims (later ++ e :: past)) : Sound claims past :=
  h.suffix.2

/-- The token of a registered connection is one of its device. -/
theorem Sound.device {d : UUID} {k : Connection} {trace : List (Entry J)}
    (h : Sound claims trace) (hk : connectionOf d trace = some k) :
    ∃ principal, claims k.token = some principal ∧ principal.device_id = d := by
  obtain ⟨later, u, past, rfl, -⟩ := exists_registered hk
  obtain ⟨-, principal, event, hdevice, hown⟩ := h.justified rfl
  obtain ⟨later', earlier, rfl, -⟩ := exists_of_own hown
  exact ⟨principal, (h.past.justified rfl).1, hdevice⟩

/-- A session that has ended and not begun again. -/
theorem liveIn_ended {token : String} {later past : List (Entry J)}
    (h : ∀ live, .changed token live ∈ later → live = false) :
    liveIn token (later ++ .changed token false :: past) = false := by
  induction later with
  | nil => exact if_pos rfl
  | cons e later ih =>
      have ih := ih fun live hmem => h live (List.mem_cons_of_mem _ hmem)
      cases e with
      | changed token' live =>
          by_cases htoken : token' = token
          · subst htoken
            exact (if_pos rfl).trans (h live List.mem_cons_self)
          · exact (if_neg htoken).trans ih
      | _ => exact ih

/-- After the end of its session a token is not authenticated. -/
theorem Sound.not_authenticated {token : String} {principal : Principal}
    {later past : List (Entry J)} (h : Sound claims (later ++ .changed token false :: past))
    (hended : ∀ live, .changed token live ∈ later → live = false) :
    .authenticated t token principal ∉ later := by
  intro hmem
  obtain ⟨newer, older, rfl⟩ := List.append_of_mem hmem
  rw [List.append_assoc, List.cons_append] at h
  have hlive := (h.justified rfl).2
  rw [liveIn_ended fun live hchanged => hended live
    (List.mem_append_right _ (List.mem_cons_of_mem _ hchanged))] at hlive
  cases hlive

/-- A socket is registered once: otherwise the later registration would find the earlier one
among the entries of its task. -/
theorem Sound.registered_once {u u' : Tid} {d d' : UUID} {k k' : Connection}
    {later past : List (Entry J)} (h : Sound claims (later ++ .registered u d k :: past))
    (heq : k.websocket = k'.websocket) : .registered u' d' k' ∉ past := by
  intro hk'
  obtain ⟨hsocket, principal, event, -, hown⟩ := h.justified rfl
  obtain ⟨newer, older, rfl⟩ := List.append_of_mem hk'
  have hsocket' := (h.past.justified rfl).1
  have hu : u' = u := hsocket'.symm.trans (heq.symm.trans hsocket)
  have hmine : .registered u' d' k' ∈ own u (newer ++ .registered u' d' k' :: older) :=
    List.mem_filter.mpr ⟨List.mem_append_right _ List.mem_cons_self,
      decide_eq_true (congrArg some hu)⟩
  rw [hown] at hmine
  simp only [List.mem_cons, List.not_mem_nil, reduceCtorEq, or_self] at hmine

/-- A socket has one connection, of one device. -/
theorem Sound.registered_same {u u' : Tid} {d d' : UUID} {k k' : Connection}
    {trace : List (Entry J)} (h : Sound claims trace) (hk : .registered u d k ∈ trace)
    (hk' : .registered u' d' k' ∈ trace) (heq : k.websocket = k'.websocket) : d = d' ∧ k = k' := by
  obtain ⟨later, past, rfl⟩ := List.append_of_mem hk
  rcases List.mem_append.mp hk' with hmem | hmem
  · obtain ⟨newer, older, rfl⟩ := List.append_of_mem hmem
    rw [List.append_assoc, List.cons_append] at h
    exact absurd (List.mem_append_right _ List.mem_cons_self) (h.registered_once heq.symm)
  · rcases List.mem_cons.mp hmem with hsame | hmem
    · cases hsame
      exact ⟨rfl, rfl⟩
    · exact absurd hmem (h.registered_once heq)

/-- A superseded connection is not current again. -/
theorem Sound.superseded {u v : Tid} {d : UUID} {k k' : Connection}
    {later past : List (Entry J)} (h : Sound claims (later ++ .registered t d k' :: past))
    (hold : .registered u d k ∈ past) : .current v d k ∉ later := by
  intro hmem
  obtain ⟨newer, older, rfl⟩ := List.append_of_mem hmem
  rw [List.append_assoc, List.cons_append] at h
  obtain ⟨between, w, rest, heq, hnone⟩ := exists_registered (h.justified rfl)
  have hsound := h.past
  have hmem' : .registered t d k' ∈ older ++ .registered t d k' :: past :=
    List.mem_append_right _ List.mem_cons_self
  rw [heq] at hsound hmem'
  have hrest : .registered u d k ∈ rest := by
    rcases List.append_eq_append_iff.mp heq with ⟨extra, hbetween, hpast⟩ | ⟨extra, holder, hrest⟩
    · cases extra with
      | nil =>
          obtain ⟨-, rfl⟩ := List.cons.inj hpast
          exact hold
      | cons e extra =>
          obtain ⟨rfl, -⟩ := List.cons.inj hpast
          exact absurd rfl ((hnone (.registered t d k') (hbetween ▸
            List.mem_append_right _ List.mem_cons_self)).1 t k')
    · cases extra with
      | nil =>
          obtain ⟨-, rfl⟩ := List.cons.inj hrest
          exact hold
      | cons e extra =>
          obtain ⟨-, rfl⟩ := List.cons.inj hrest
          exact List.mem_append_right _ (List.mem_cons_of_mem _ hold)
  exact hsound.registered_once rfl hrest

/-- Who has begun to write is the one who ends it. -/
theorem Sound.ends_or_writes {c : SocketId} {frame : Frame J} {later past : List (Entry J)}
    (h : Sound claims (later ++ .begins t c frame :: past)) :
    .ends t c ∈ later ∨ writing c (later ++ .begins t c frame :: past) = some t := by
  induction later with
  | nil => exact .inr (if_pos rfl)
  | cons e later ih =>
      rcases ih h.2 with hends | hwrites
      · exact .inl (List.mem_cons_of_mem _ hends)
      · have hj := h.1
        cases e with
        | begins u c' frame' =>
            by_cases hc : c' = c
            · subst hc
              exact absurd (hj.1.symm.trans hwrites) (Option.some_ne_none t).symm
            · exact .inr ((if_neg hc).trans hwrites)
        | ends u c' =>
            by_cases hc : c' = c
            · subst hc
              obtain rfl := Option.some.inj (hj.symm.trans hwrites)
              exact .inl List.mem_cons_self
            · exact .inr ((if_neg hc).trans hwrites)
        | _ => exact .inr hwrites

/-- What a task did before it authenticated a token was done before the end of the session. -/
theorem Sound.before_end (front : List (Entry J)) {token : String} {principal : Principal}
    {later past rest : List (Entry J)} (h : Sound claims (later ++ .changed token false :: past))
    (hended : ∀ live, .changed token live ∈ later → live = false)
    (hown : own t (later ++ .changed token false :: past) =
      front ++ .authenticated t token principal :: rest) {e : Entry J} (he : e ∈ rest) :
    e ∈ past := by
  obtain ⟨newer, older, htrace, hfront, hrest⟩ := List.filter_eq_append_iff.mp hown
  obtain ⟨between, earlier, rfl, hearlier⟩ := exists_of_own hrest
  have hmem : e ∈ earlier := mem_of_own (hearlier.symm ▸ he)
  rw [← List.append_assoc] at htrace
  rcases List.append_eq_append_iff.mp htrace with ⟨extra, hnewer, hpast⟩ | ⟨extra, hlater, hrest⟩
  · cases extra with
    | nil => cases (List.cons.inj hpast).1
    | cons e' extra =>
        obtain ⟨-, rfl⟩ := List.cons.inj hpast
        exact List.mem_append_right _ (List.mem_cons_of_mem _ hmem)
  · cases extra with
    | nil => cases (List.cons.inj hrest).1
    | cons e' extra =>
        obtain ⟨rfl, -⟩ := List.cons.inj hrest
        exact absurd (hlater ▸ List.mem_append_right _ List.mem_cons_self)
          (h.not_authenticated hended)

end Traces

/-! ## What reaches a socket -/

section Guarantees

variable {J : Type}

/-- What reaches a socket was checked before; the entries of a task stand with
the latest first. -/
structure Checked (claims : String → Option Principal) (trace : List (Entry J)) : Prop where
  /-- An event goes to a connection of its device, which its delivery has authorized and then found
  to be current. -/
  event : ∀ later t socket event past, trace = later ++ .begins t socket (.event event) :: past →
    ∃ d k principal rest, k.websocket = socket ∧ claims k.token = some principal ∧
      principal.device_id = d ∧
      own t past = .current t d k :: .authenticated t k.token principal ::
        .delivering t d event k :: rest
  /-- A reply goes to the socket of the command, which was handled for the principal that had just
  been authenticated. -/
  response : ∀ later t socket reply past,
    trace = later ++ .begins t socket (.response reply) :: past →
    socket = t ∧ ∃ principal event token d rest,
      own t past = .handled t reply :: .handling t principal event ::
        .authenticated t token principal :: .current t d ⟨t, token⟩ :: .received t event :: rest
  handling : ∀ later t principal event past,
    trace = later ++ .handling t principal event :: past →
    ∃ token d rest, own t past = .authenticated t token principal ::
      .current t d ⟨t, token⟩ :: .received t event :: rest
  authenticated : ∀ later t token principal past,
    trace = later ++ .authenticated t token principal :: past →
    claims token = some principal ∧ liveIn token past = true
  current : ∀ later t d k past, trace = later ++ .current t d k :: past →
    connectionOf d past = some k
  /-- After the end of a session its sockets get no event whose delivery begins later, and none of
  its commands is handled that arrives later. -/
  revoked : ∀ later token past, trace = later ++ .changed token false :: past →
    (∀ live, .changed token live ∈ later → live = false) →
    ∀ u d k, .registered u d k ∈ trace → k.token = token →
      (∀ t event, .begins t k.websocket (.event event) ∈ later →
        .delivering t d event k ∈ past) ∧
      ∀ principal event, .handling k.websocket principal event ∈ later →
        .received k.websocket event ∈ past
  /-- A superseded connection is never current again. -/
  superseded : ∀ later t u v d k k' past, trace = later ++ .registered t d k' :: past →
    .registered u d k ∈ past → .current v d k ∉ later

/-- What an entry of a sound trace was preceded by. -/
theorem Sound.event {claims : String → Option Principal} {later past : List (Entry J)} {t : Tid}
    {socket : SocketId} {event : J}
    (h : Sound claims (later ++ .begins t socket (.event event) :: past)) :
    ∃ d k principal rest, k.websocket = socket ∧ claims k.token = some principal ∧
      principal.device_id = d ∧
      own t past = .current t d k :: .authenticated t k.token principal ::
        .delivering t d event k :: rest := by
  obtain ⟨-, d, k, principal, rest, hsocket, hown⟩ := h.justified rfl
  obtain ⟨newer, older, rfl, hmine⟩ := exists_of_own hown
  obtain ⟨newer', older', rfl, -⟩ := exists_of_own hmine
  have hcurrent := h.past.justified rfl
  obtain ⟨hclaims, -⟩ := h.past.past.justified rfl
  obtain ⟨principal', hclaims', hdevice⟩ := h.past.past.device hcurrent
  obtain rfl := Option.some.inj (hclaims.symm.trans hclaims')
  exact ⟨d, k, principal, rest, hsocket, hclaims, hdevice, hown⟩

theorem Sound.checked {claims : String → Option Principal} {trace : List (Entry J)}
    (h : Sound claims trace) : Checked claims trace where
  event := by
    rintro later t socket event past rfl
    exact h.event
  response := by
    rintro later t socket reply past rfl
    exact (h.justified rfl).2
  handling := by
    rintro later t principal event past rfl
    obtain ⟨d, token, rest, hown⟩ := h.justified rfl
    exact ⟨token, d, rest, hown⟩
  authenticated := by
    rintro later t token principal past rfl
    exact h.justified rfl
  current := by
    rintro later t d k past rfl
    exact h.justified rfl
  revoked := by
    rintro later token past rfl hended u d k hk rfl
    constructor
    · intro t event hmem
      obtain ⟨newer, older, rfl⟩ := List.append_of_mem hmem
      rw [List.append_assoc, List.cons_append] at h hk
      obtain ⟨d', k', principal, rest, hsocket, -, -, hown⟩ := h.event
      obtain ⟨a, b, hab, -⟩ := exists_of_own hown
      have hpast := h.past
      rw [hab] at hpast
      obtain ⟨a', v, b', hb, -⟩ := exists_registered (hpast.justified rfl)
      have hk' : .registered v d' k' ∈ older ++ .changed k.token false :: past := by
        rw [hab, hb]
        exact List.mem_append_right _ (List.mem_cons_of_mem _
          (List.mem_append_right _ List.mem_cons_self))
      obtain ⟨rfl, rfl⟩ := h.registered_same hk
        (List.mem_append_right _ (List.mem_cons_of_mem _ hk')) hsocket.symm
      refine h.past.before_end [.current t d k] (fun live hmem => hended live ?_) hown
        List.mem_cons_self
      exact List.mem_append_right _ (List.mem_cons_of_mem _ hmem)
    · intro principal event hmem
      obtain ⟨newer, older, rfl⟩ := List.append_of_mem hmem
      rw [List.append_assoc, List.cons_append] at h hk
      obtain ⟨d', token', rest, hown⟩ := h.justified rfl
      obtain ⟨a, b, hab, hmine⟩ := exists_of_own hown
      obtain ⟨a', b', hb, -⟩ := exists_of_own hmine
      have hpast := h.past
      rw [hab, hb] at hpast
      obtain ⟨c, v, c', hc, -⟩ := exists_registered (hpast.past.justified rfl)
      have hk' : .registered v d' ⟨k.websocket, token'⟩ ∈
          older ++ .changed k.token false :: past := by
        rw [hab, hb, hc]
        exact List.mem_append_right _ (List.mem_cons_of_mem _ (List.mem_append_right _
          (List.mem_cons_of_mem _ (List.mem_append_right _ List.mem_cons_self))))
      obtain ⟨-, hsame⟩ := h.registered_same hk
        (List.mem_append_right _ (List.mem_cons_of_mem _ hk')) rfl
      obtain rfl : k.token = token' := congrArg Connection.token hsame
      refine h.past.before_end [] (fun live hmem => hended live ?_) hown
        (List.mem_cons_of_mem _ List.mem_cons_self)
      exact List.mem_append_right _ (List.mem_cons_of_mem _ hmem)
  superseded := by
    rintro later t u v d k k' past rfl hold
    exact h.superseded hold

variable {claims : String → Option Principal} {token : J → Option String}
  {p : Pool (Call J) Call.Answer Exc (Hub J)}

theorem reachable_holds
    (h : System.Reachable (process claims token) (fun s => s = ({} : Hub J)) p) :
    (discipline claims).Holds (process claims token) p := by
  refine Discipline.sound process_respected ?_ h
  rintro s rfl
  refine ⟨⟨trivial, fun _ => rfl, fun c t hw => (by cases hw), fun _ => rfl, Nat.zero_le _,
    List.nodup_nil⟩, fun t => ⟨rfl, fun c => ?_, fun d k hk => (by cases hk), ?_⟩⟩
  · exact iff_of_false (Option.some_ne_none t).symm (Option.some_ne_none c).symm
  · exact iff_of_false List.not_mem_nil id

/-- **What reaches a socket was authorized**, in every run of a process. -/
theorem sockets_get_what_was_checked
    (h : System.Reachable (process claims token) (fun s => s = ({} : Hub J)) p) :
    Checked claims p.shared.trace :=
  (reachable_holds h).inv.sound.checked

/-! ## Order among tasks -/

/-- The task has been started and has not come to its end. -/
def Running (p : Pool (Call J) Call.Answer Exc (Hub J)) (t : Tid) : Prop :=
  ∃ q, p.threads t = some q ∧ q ≠ .ret () ∧ ∀ x, q ≠ .throw x

/-- How the tasks of a process share the sockets. -/
structure Orderly (p : Pool (Call J) Call.Answer Exc (Hub J)) : Prop where
  /-- A frame is written to its end before the next one. -/
  exclusive : ∀ later between t u c frame frame' past,
    p.shared.trace =
      later ++ .begins u c frame' :: (between ++ .begins t c frame :: past) →
    .ends t c ∈ between
  /-- The registered connection of a device is the one that was registered last, and its endpoint
  is running. -/
  registered : ∀ d k, p.shared.connections d = some k → Running p k.websocket ∧
    ∃ later u past, p.shared.trace = later ++ .registered u d k :: past ∧
      ∀ e ∈ later, (∀ v k', e ≠ .registered v d k') ∧ ∀ v k', e ≠ .unregistered v d k'
  /-- No lock is left behind. -/
  locks : ∀ c t, p.shared.locks c = some t → Running p t
  /-- No delivery is left behind, and there are never too many. -/
  deliveries : (∀ t ∈ p.shared.deliveries, Running p t) ∧
    p.shared.deliveries.length ≤ Hub.MAX_PENDING_DELIVERIES

/-- A task that is not running has nothing. -/
theorem ended_of_not_running
    (h : (discipline claims).Holds (process claims token) p) {t : Tid} (hnot : ¬Running p t) :
    Ended t p.shared := by
  cases hq : p.threads t with
  | none => exact ⟨[], h.idle t hq⟩
  | some q =>
      have hsafe := h.safe t q hq
      cases q with
      | ret => exact hsafe
      | throw x => exact hsafe
      | eff e k =>
          exact absurd ⟨_, hq, fun heq => (by cases heq), fun x heq => (by cases heq)⟩ hnot
      | loop l body k =>
          exact absurd ⟨_, hq, fun heq => (by cases heq), fun x heq => (by cases heq)⟩ hnot

/-- **Tasks leave nothing behind and do not write at the same time.** -/
theorem tasks_are_orderly
    (h : System.Reachable (process claims token) (fun s => s = ({} : Hub J)) p) :
    Orderly p := by
  have hholds := reachable_holds h
  have hended {t : Tid} (hnot : ¬Running p t) := ended_of_not_running hholds hnot
  exact {
    exclusive := by
      intro later between t u c frame frame' past htrace
      have hsound := hholds.inv.sound
      rw [htrace] at hsound
      refine hsound.past.ends_or_writes.resolve_right fun hwrites => ?_
      exact Option.some_ne_none t (hwrites.symm.trans (hsound.justified rfl).1)
    registered := by
      intro d k hk
      refine ⟨by_contra fun hnot => ?_,
        exists_registered ((hholds.inv.connections d).symm.trans hk)⟩
      obtain ⟨mine, hat⟩ := hended hnot
      exact hat.connections d k hk rfl
    locks := by
      intro c t hlock
      by_contra hnot
      obtain ⟨mine, hat⟩ := hended hnot
      exact Option.some_ne_none c ((hat.locks c).mp hlock).symm
    deliveries := by
      refine ⟨fun t hmem => by_contra fun hnot => ?_, hholds.inv.bounded⟩
      obtain ⟨mine, hat⟩ := hended hnot
      exact hat.deliveries.mp hmem }

/-! ## An event on its way -/

/-- Every token is one of Bob's phone. -/
def bobClaims : String → Option Principal :=
  fun _ => some ⟨"bob", "phone", "session"⟩

/-- Every first frame brings the same token. -/
def anyToken : Nat → Option String :=
  fun _ => some "token"

/-- A delivery writes an event to a socket that waits for a frame. -/
theorem exists_event : ∃ p, System.Reachable (process bobClaims anyToken)
      (fun s => s = ({} : Hub Nat)) p ∧
    p.shared.locks 0 = some 1 ∧ ∃ past, p.shared.trace = .begins 1 0 (.event 7) :: past := by
  have h : System.Reachable (process bobClaims anyToken) (fun s => s = ({} : Hub Nat))
      (System.idle {}) := .idle rfl
  have h := h.step (.env ⟨"token", true, rfl⟩)
  have h := h.starts 0 (.websocket_endpoint true) rfl rfl
  have h := h.acts 0 rfl (.ok ()) .accept
  have h := h.acts 0 rfl (.ok (5 : Nat)) (.receive 5)
  have h := h.acts 0 rfl (.ok ⟨"bob", "phone", "session"⟩) (.authenticate rfl rfl)
  have h := h.acts 0 rfl none ⟨rfl, rfl⟩
  have h := h.acts 0 rfl (.ok ()) (.acquire rfl)
  have h := h.acts 0 rfl () ⟨rfl, rfl⟩
  have h := h.acts 0 rfl (.ok ()) .write
  have h := h.acts 0 rfl () ⟨rfl, rfl⟩
  have h := h.starts 1 (._deliver "phone" 7) rfl rfl
  have h := h.acts 1 rfl (some ⟨0, "token"⟩) ⟨rfl, rfl⟩
  have h := h.acts 1 rfl (.ok ⟨"bob", "phone", "session"⟩) (.authenticate rfl rfl)
  have h := h.acts 1 rfl true ⟨rfl, rfl⟩
  have h := h.acts 1 rfl (.ok ()) (.acquire rfl)
  have h := h.acts 1 rfl () ⟨rfl, rfl⟩
  exact ⟨_, h, rfl, _, rfl⟩

/-- The event was checked before it is written. -/
theorem sockets_get_what_was_checked_event : ∃ trace : List (Entry Nat),
    Checked bobClaims trace ∧ ∃ past, trace = .begins 1 0 (.event 7) :: past := by
  obtain ⟨p, h, -, htrace⟩ := exists_event
  exact ⟨p.shared.trace, sockets_get_what_was_checked h, htrace⟩

/-- Its delivery is running and holds the lock. -/
theorem tasks_are_orderly_event : ∃ p : Pool (Call Nat) Call.Answer Exc (Hub Nat),
    Orderly p ∧ p.shared.locks 0 = some 1 := by
  obtain ⟨p, h, hlock, -⟩ := exists_event
  exact ⟨p, tasks_are_orderly h, hlock⟩

end Guarantees

end Realtime
end Server
end SecureMessenger

import SecureMessenger.Lib.Triples
import SecureMessenger.Server.Realtime

/-!
# What the tasks of a process keep

Every entry of the trace is justified by those before it: what a task writes to
a socket by what the task has checked right before, and nobody writes to a
socket while somebody else does.  A task that has come to its end holds no lock,
is no pending delivery and has no registered connection.
-/

namespace SecureMessenger
namespace Server
namespace Realtime

open Lib
open Lib.Discipline (Triple Persists)

section Traces

variable {J : Type}

/-- Who has made the entry. -/
def Entry.task : Entry J → Option Tid
  | .changed _ _ => none
  | .received t _ | .authenticated t _ _ | .registered t _ _ | .unregistered t _ _
  | .delivering t _ _ _ | .current t _ _ | .handling t _ _ | .handled t _ | .begins t _ _
  | .ends t _ => some t

/-- The entries of a task. -/
def own (t : Tid) (trace : List (Entry J)) : List (Entry J) :=
  trace.filter fun e => decide (e.task = some t)

/-- Who is writing to the socket. -/
def writing (c : SocketId) : List (Entry J) → Option Tid
  | [] => none
  | .begins t c' _ :: past => if c' = c then some t else writing c past
  | .ends _ c' :: past => if c' = c then none else writing c past
  | _ :: past => writing c past

/-- The connection of the device. -/
def connectionOf (device_id : UUID) : List (Entry J) → Option Connection
  | [] => none
  | .registered _ d c :: past => if d = device_id then some c else connectionOf device_id past
  | .unregistered _ d _ :: past => if d = device_id then none else connectionOf device_id past
  | _ :: past => connectionOf device_id past

/-- The session of the token goes on. -/
def liveIn (token : String) : List (Entry J) → Bool
  | [] => false
  | .changed token' live :: past => if token' = token then live else liveIn token past
  | _ :: past => liveIn token past

/-- What a task has done before it writes a frame. -/
def Due (t : Tid) (c : SocketId) : Frame J → List (Entry J) → Prop
  | .authOk, mine => c = t ∧ ∃ device_id k, .registered t device_id k ∈ mine
  | .invalidEvent, mine => c = t ∧ ∃ token principal rest,
      mine = .authenticated t token principal :: rest
  | .response reply, mine => c = t ∧ ∃ principal event token device_id rest,
      mine = .handled t reply :: .handling t principal event ::
        .authenticated t token principal :: .current t device_id ⟨t, token⟩ ::
          .received t event :: rest
  | .event event, mine => ∃ device_id k principal rest, k.websocket = c ∧
      mine = .current t device_id k :: .authenticated t k.token principal ::
        .delivering t device_id event k :: rest
  | .close _, _ => True

variable (claims : String → Option Principal)

/-- What must have happened before an entry. -/
def Justified : Entry J → List (Entry J) → Prop
  | .authenticated _ token principal, past =>
      claims token = some principal ∧ liveIn token past = true
  | .registered t device_id k, past => k.websocket = t ∧ ∃ principal event,
      principal.device_id = device_id ∧
        own t past = [.authenticated t k.token principal, .received t event]
  | .unregistered _ device_id k, past | .delivering _ device_id _ k, past
  | .current _ device_id k, past => connectionOf device_id past = some k
  | .handling t principal event, past => ∃ device_id token rest,
      own t past = .authenticated t token principal :: .current t device_id ⟨t, token⟩ ::
        .received t event :: rest
  | .begins t c frame, past => writing c past = none ∧ Due t c frame (own t past)
  | .ends t c, past => writing c past = some t
  | _, _ => True

/-- Every entry was allowed. -/
def Sound : List (Entry J) → Prop
  | [] => True
  | e :: past => Justified claims e past ∧ Sound past

variable {claims}

theorem Sound.justified {trace later past : List (Entry J)} {e : Entry J}
    (h : Sound claims trace) (heq : trace = later ++ e :: past) : Justified claims e past := by
  subst heq
  induction later with
  | nil => exact h.1
  | cons e' later ih => exact ih h.2

theorem own_cons_self {t : Tid} {e : Entry J} {past : List (Entry J)} (h : e.task = some t) :
    own t (e :: past) = e :: own t past :=
  List.filter_cons_of_pos (decide_eq_true h)

theorem own_cons_of_ne {t : Tid} {e : Entry J} {past : List (Entry J)} (h : e.task ≠ some t) :
    own t (e :: past) = own t past :=
  List.filter_cons_of_neg (by simpa using h)

theorem mem_of_own {t : Tid} {e : Entry J} {trace : List (Entry J)} (h : e ∈ own t trace) :
    e ∈ trace :=
  List.mem_of_mem_filter h

end Traces

/-! ## The discipline -/

section Discipline

variable {J : Type} (claims : String → Option Principal)

/-- What holds of the hub after any steps. -/
structure Inv (s : Hub J) : Prop where
  sound : Sound claims s.trace
  connections : ∀ d, s.connections d = connectionOf d s.trace
  locks : ∀ c t, writing c s.trace = some t → s.locks c = some t
  live : ∀ token, s.live token = liveIn token s.trace
  bounded : s.deliveries.length ≤ Hub.MAX_PENDING_DELIVERIES
  nodup : s.deliveries.Nodup

variable {claims}

/-- What the steps of others leave to the task. -/
structure Own (t : Tid) (s s' : Hub J) : Prop where
  trace : own t s'.trace = own t s.trace
  locks : ∀ c, s'.locks c = some t ↔ s.locks c = some t
  writing : ∀ c, s.locks c = some t → writing c s'.trace = writing c s.trace
  connections : ∀ d k, s'.connections d = some k → k.websocket = t → s.connections d = some k
  deliveries : t ∈ s'.deliveries ↔ t ∈ s.deliveries

theorem Own.refl (t : Tid) (s : Hub J) : Own t s s :=
  ⟨rfl, fun _ => Iff.rfl, fun _ _ => rfl, fun _ _ h _ => h, Iff.rfl⟩

theorem Own.trans {t : Tid} {s₁ s₂ s₃ : Hub J} (h : Own t s₁ s₂) (h' : Own t s₂ s₃) :
    Own t s₁ s₃ where
  trace := h'.trace.trans h.trace
  locks c := (h'.locks c).trans (h.locks c)
  writing c hc := (h'.writing c ((h.locks c).mpr hc)).trans (h.writing c hc)
  connections d k hk ht := h.connections d k (h'.connections d k hk ht) ht
  deliveries := h'.deliveries.trans h.deliveries

/-- The task `t` has made the entries `mine`, holds the lock `lock`, and has no
registered connections but those that `owns` allows. -/
structure At (owns : UUID → Connection → Prop) (pending : Prop) (t : Tid)
    (mine : List (Entry J)) (lock : Option SocketId) (s : Hub J) : Prop where
  trace : own t s.trace = mine
  locks : ∀ c, s.locks c = some t ↔ lock = some c
  connections : ∀ d k, s.connections d = some k → k.websocket = t → owns d k
  deliveries : t ∈ s.deliveries ↔ pending

/-- The task owns no connection. -/
abbrev nothing : UUID → Connection → Prop :=
  fun _ _ => False

variable {owns : UUID → Connection → Prop} {pending : Prop} {t : Tid} {mine : List (Entry J)}
  {lock : Option SocketId}

theorem At.own {s s' : Hub J} (h : At owns pending t mine lock s) (ho : Own t s s') :
    At owns pending t mine lock s' where
  trace := ho.trace.trans h.trace
  locks c := (ho.locks c).trans (h.locks c)
  connections d k hk ht := h.connections d k (ho.connections d k hk ht) ht
  deliveries := ho.deliveries.trans h.deliveries

/-- The task has come to its end. -/
def Ended (t : Tid) (s : Hub J) : Prop :=
  ∃ mine, At nothing False t mine none s

theorem Ended.own {s s' : Hub J} (h : Ended t s) (ho : Own t s s') : Ended t s' := by
  obtain ⟨mine, h⟩ := h
  exact ⟨mine, h.own ho⟩

variable (claims)

/-- The tasks of a process. -/
def discipline : Discipline (Hub J) where
  inv := Inv claims
  grow s s' := s.trace <:+ s'.trace
  own := Own
  idle t s := At nothing False t [] none s
  done := Ended
  failed := Ended
  grow_refl _ := List.suffix_rfl
  grow_trans h h' := h.trans h'
  own_refl := Own.refl
  own_trans h h' := h.trans h'
  idle_drift h _ ho := h.own ho
  done_drift h _ ho := h.own ho
  failed_drift h _ ho := h.own ho

variable {claims}

theorem persists_at : Persists (discipline claims) t (At owns pending t mine lock) :=
  fun _ _ h hd => h.own hd.own

/-- The task holds the lock of `c`. -/
def Locks (owns : UUID → Connection → Prop) (pending : Prop) (t : Tid) (mine : List (Entry J))
    (c : SocketId) (writer : Option Tid) (s : Hub J) : Prop :=
  At owns pending t mine (some c) s ∧ writing c s.trace = writer

theorem persists_locks {c : SocketId} {writer : Option Tid} :
    Persists (discipline claims) t (Locks owns pending t mine c writer) := by
  rintro s s' ⟨h, hw⟩ hd
  exact ⟨h.own hd.own, (hd.own.writing c ((h.locks c).mpr rfl)).trans hw⟩

/-! ## Entries -/

/-- The entry neither begins nor ends anything. -/
def Entry.Quiet : Entry J → Prop
  | .received _ _ | .authenticated _ _ _ | .delivering _ _ _ _ | .current _ _ _
  | .handling _ _ _ | .handled _ _ => True
  | _ => False

variable {s : Hub J} {e : Entry J}

theorem Entry.Quiet.writing (h : e.Quiet) (c : SocketId) (past : List (Entry J)) :
    writing c (e :: past) = Realtime.writing c past := by
  cases e <;> first | rfl | cases h

theorem Entry.Quiet.connectionOf (h : e.Quiet) (d : UUID) (past : List (Entry J)) :
    connectionOf d (e :: past) = Realtime.connectionOf d past := by
  cases e <;> first | rfl | cases h

theorem Entry.Quiet.liveIn (h : e.Quiet) (token : String) (past : List (Entry J)) :
    liveIn token (e :: past) = Realtime.liveIn token past := by
  cases e <;> first | rfl | cases h

/-- The others see only the entry. -/
theorem own_log_of_ne {u : Tid} (htask : e.task = some t) (hu : u ≠ t)
    (hw : ∀ c, s.locks c = some u → writing c (e :: s.trace) = writing c s.trace) :
    Own u s (s.log e) where
  trace := own_cons_of_ne fun h => hu (Option.some.inj (h.symm.trans htask))
  locks _ := Iff.rfl
  writing := hw
  connections _ _ h _ := h
  deliveries := Iff.rfl

theorem keeps_quiet (hinv : Inv claims s) (htask : e.task = some t) (hquiet : e.Quiet)
    (hj : Justified claims e s.trace) : (discipline claims).Keeps t s (s.log e) where
  inv := {
    sound := ⟨hj, hinv.sound⟩
    connections := fun d => (hinv.connections d).trans (hquiet.connectionOf d s.trace).symm
    locks := fun c u h => hinv.locks c u ((hquiet.writing c s.trace).symm.trans h)
    live := fun token => (hinv.live token).trans (hquiet.liveIn token s.trace).symm
    bounded := hinv.bounded
    nodup := hinv.nodup }
  grow := List.suffix_cons e s.trace
  own _ hu := own_log_of_ne htask hu fun c _ => hquiet.writing c s.trace

theorem At.log (h : At owns pending t mine lock s) (htask : e.task = some t) :
    At owns pending t (e :: mine) lock (s.log e) where
  trace := (own_cons_self htask).trans (congrArg (e :: ·) h.trace)
  locks := h.locks
  connections := h.connections
  deliveries := h.deliveries

end Discipline

/-! ## Tasks -/

section Tasks

variable {J α β : Type} {claims : String → Option Principal}
  {owns : UUID → Connection → Prop} {pending : Prop} {t : Tid} {mine : List (Entry J)}
  {K K' : Hub J → Prop} {Q : α → Hub J → Prop} {Z : Hub J → Prop}

variable (claims t) in
/-- A task that knows `K` runs the program, and knows `Q` when it returns and `Z`
when it raises. -/
abbrev Runs (K : Hub J → Prop) (p : Task J α) (Q : α → Hub J → Prop) (Z : Exc → Hub J → Prop) :
    Prop :=
  Triple (discipline claims) (Segmented.exec (Settles claims)) t K p Q Z

/-- The task holds no lock, and has made further entries since `mine`. -/
def Since (owns : UUID → Connection → Prop) (pending : Prop) (t : Tid) (mine : List (Entry J))
    (s : Hub J) : Prop :=
  ∃ mine', mine <:+ mine' ∧ At owns pending t mine' none s

theorem Since.of_at {s : Hub J} (h : At owns pending t mine none s) :
    Since owns pending t mine s :=
  ⟨mine, List.suffix_rfl, h⟩

theorem Since.mono {mine' : List (Entry J)} {s : Hub J} (hsub : mine' <:+ mine)
    (h : Since owns pending t mine s) : Since owns pending t mine' s := by
  obtain ⟨mine'', hsuffix, h⟩ := h
  exact ⟨mine'', hsub.trans hsuffix, h⟩

theorem persists_since : Persists (discipline claims) t (Since owns pending t mine) := by
  rintro s s' ⟨mine', hsub, h⟩ hd
  exact ⟨mine', hsub, h.own hd.own⟩

theorem runs_step {f : Hub J → α × Hub J} (hK : Persists (discipline claims) t K)
    {Z : Exc → Hub J → Prop}
    (hf : ∀ s, Inv claims s → K s →
      (discipline claims).Keeps t s (f s).2 ∧ Q (f s).1 (f s).2) :
    Runs claims t K (step f) Q Z :=
  Triple.segment hK hf

/-- `try`: what is known depends on the outcome. -/
theorem runs_attempt {p : Task J α} {W : Exc → Hub J → Prop} {Z : Exc → Hub J → Prop}
    (h : Runs claims t K p Q W) :
    Runs claims t K (Prog.attempt p)
      (fun r s => (∀ a, r = .ok a → Q a s) ∧ ∀ x, r = .error x → W x s) Z :=
  Triple.attempt h
    (fun a s hq => ⟨fun a' ha => Except.ok.inj ha ▸ hq, fun x hx => (by cases hx)⟩)
    fun x s hz => ⟨fun a ha => (by cases ha), fun x' hx => Except.error.inj hx ▸ hz⟩

/-- `try`: the same is known of both outcomes. -/
theorem runs_attempt_same {p : Task J α} {Q : Hub J → Prop} {Z : Exc → Hub J → Prop}
    (h : Runs claims t K p (fun _ => Q) fun _ => Q) :
    Runs claims t K (Prog.attempt p) (fun _ => Q) Z :=
  Triple.attempt h (fun _ _ hq => hq) fun _ _ hq => hq

/-- A call that leaves the hub as it is. -/
theorem runs_awaits_same {g : Await J} {Q : g.Reply → Hub J → Prop} {Z : Exc → Hub J → Prop}
    (hK : Persists (discipline claims) t K)
    (hg : ∀ s r s', Settles claims g s r s' → s' = s)
    (hQ : ∀ a s, K s → Q a s) (hZ : ∀ x s, K s → Z x s) :
    Runs claims t K (awaits g) Q Z := by
  refine Triple.awaits hK fun s r s' hinv hk hx => ?_
  obtain rfl := hg s r s' hx
  exact ⟨.refl hinv, fun a _ => hQ a _ hk, fun x _ => hZ x _ hk⟩

theorem runs_write {c : SocketId} {frame : Frame J} {Z : Exc → Hub J → Prop}
    (hK : Persists (discipline claims) t K) (hZ : ∀ x s, K s → Z x s) :
    Runs claims t K (write t c frame) (fun _ => K) Z :=
  runs_awaits_same hK (fun s r s' h => by cases h <;> rfl) (fun _ _ h => h) hZ

theorem runs_accept (hK : Persists (discipline claims) t K) :
    Runs claims t K (accept t) (fun _ => K) fun _ => K :=
  runs_awaits_same hK (fun s r s' h => by cases h <;> rfl) (fun _ _ h => h) fun _ _ h => h

theorem runs_shut {code : Nat} (hK : Persists (discipline claims) t K) :
    Runs claims t K (shut t code) (fun _ => K) fun _ => K :=
  runs_awaits_same hK (fun s r s' h => by cases h <;> rfl) (fun _ _ h => h) fun _ _ h => h

theorem runs_receive_event :
    Runs claims t (At owns pending t mine none) (receive_event t)
      (fun event => At owns pending t (.received t event :: mine) none)
      fun _ => At owns pending t mine none := by
  refine Triple.awaits persists_at fun s r s' hinv h hx => ?_
  cases hx with
  | raises x =>
      exact ⟨.refl hinv, fun a ha => (by cases ha), fun _ _ => h⟩
  | receive event =>
      refine ⟨keeps_quiet hinv rfl trivial trivial, fun a ha => ?_, fun x hx => (by cases hx)⟩
      obtain rfl := Except.ok.inj ha
      exact h.log rfl

theorem runs_authenticate {token : String} :
    Runs claims t (At owns pending t mine none) (authenticate_access_token t token)
      (fun principal s => claims token = some principal ∧
        At owns pending t (.authenticated t token principal :: mine) none s)
      fun _ => At owns pending t mine none := by
  refine Triple.awaits persists_at fun s r s' hinv h hx => ?_
  cases hx with
  | raises x =>
      exact ⟨.refl hinv, fun a ha => (by cases ha), fun _ _ => h⟩
  | authenticate hclaims hlive =>
      refine ⟨keeps_quiet hinv rfl trivial ⟨hclaims, (hinv.live token).symm.trans hlive⟩,
        fun a ha => ?_, fun x hx => (by cases hx)⟩
      obtain rfl := Except.ok.inj ha
      exact ⟨hclaims, h.log rfl⟩

theorem runs_handle {principal : Principal} {event : J} :
    Runs claims t (At owns pending t mine none) (handle_command t principal event)
      (fun reply => At owns pending t (.handled t reply :: mine) none)
      fun _ => At owns pending t mine none := by
  refine Triple.awaits persists_at fun s r s' hinv h hx => ?_
  cases hx with
  | raises x =>
      exact ⟨.refl hinv, fun a ha => (by cases ha), fun _ _ => h⟩
  | handle reply =>
      refine ⟨keeps_quiet hinv rfl trivial trivial, fun a ha => ?_, fun x hx => (by cases hx)⟩
      obtain rfl := Except.ok.inj ha
      exact h.log rfl

/-! ## Locks -/

/-- The lock is free, so nobody is writing. -/
theorem Inv.writing_eq_none {s : Hub J} (hinv : Inv claims s) {c : SocketId}
    (hfree : s.locks c = none) : writing c s.trace = none := by
  cases hw : writing c s.trace with
  | none => rfl
  | some u => exact absurd ((hinv.locks c u hw).symm.trans hfree) (Option.some_ne_none u)

theorem keeps_acquire {s : Hub J} (hinv : Inv claims s) {c : SocketId}
    (hfree : s.locks c = none) :
    (discipline claims).Keeps t s { s with locks := Function.update s.locks c (some t) } where
  inv := {
    sound := hinv.sound
    connections := hinv.connections
    locks := by
      intro c' u hw
      have hne : c' ≠ c := by
        rintro rfl
        rw [hinv.writing_eq_none hfree] at hw
        cases hw
      exact (Function.update_of_ne hne _ _).trans (hinv.locks c' u hw)
    live := hinv.live
    bounded := hinv.bounded
    nodup := hinv.nodup }
  grow := List.suffix_rfl
  own u hu := {
    trace := rfl
    locks := by
      intro c'
      by_cases hc : c' = c
      · subst hc
        simp only [Function.update_self, hfree, Option.some.injEq, reduceCtorEq, iff_false]
        exact Ne.symm hu
      · exact (congrArg (· = some u) (Function.update_of_ne hc _ _)).to_iff
    writing := fun _ _ => rfl
    connections := fun _ _ h _ => h
    deliveries := Iff.rfl }

theorem runs_acquire {c : SocketId} :
    Runs claims t (At owns pending t mine none) (acquire t c)
      (fun _ => Locks owns pending t mine c none)
      fun x s => x.isException = false ∧ At owns pending t mine none s := by
  refine Triple.awaits persists_at fun s r s' hinv h hx => ?_
  cases hx with
  | raises x hacquire =>
      refine ⟨.refl hinv, fun a ha => (by cases ha), fun x' hx' => ?_⟩
      obtain rfl := Except.error.inj hx'
      exact ⟨hacquire ⟨t, c, rfl⟩, h⟩
  | acquire hfree =>
      refine ⟨keeps_acquire hinv hfree, fun _ _ => ⟨⟨h.trace, fun c' => ?_, h.connections,
        h.deliveries⟩, hinv.writing_eq_none hfree⟩, fun x hx => (by cases hx)⟩
      by_cases hc : c' = c
      · subst hc
        simp only [Function.update_self]
      · have hnone := h.locks c'
        simp only [reduceCtorEq, iff_false] at hnone
        simp only [Function.update_of_ne hc, hnone, Option.some.injEq, Ne.symm hc]

/-- With the lock the task may begin to write. -/
theorem runs_begins {c : SocketId} {frame : Frame J} (hdue : Due t c frame mine)
    {Z : Exc → Hub J → Prop} :
    Runs claims t (Locks owns pending t mine c none) (modify (·.log (.begins t c frame)))
      (fun _ => Locks owns pending t (.begins t c frame :: mine) c (some t)) Z := by
  refine runs_step persists_locks fun s hinv ⟨h, hw⟩ => ?_
  have hlock : s.locks c = some t := (h.locks c).mpr rfl
  have hne {c' : SocketId} (hc : c ≠ c') :
      writing c' (.begins t c frame :: s.trace) = writing c' s.trace := if_neg hc
  refine ⟨⟨{
    sound := ⟨⟨hw, h.trace.symm ▸ hdue⟩, hinv.sound⟩
    connections := hinv.connections
    locks := fun c' u hu => ?_
    live := hinv.live
    bounded := hinv.bounded
    nodup := hinv.nodup }, List.suffix_cons _ _, fun u hu => own_log_of_ne rfl hu fun c' hc' => ?_⟩,
    h.log rfl, if_pos rfl⟩
  · by_cases hc : c = c'
    · subst hc
      exact hlock.trans ((if_pos rfl).symm.trans hu)
    · exact hinv.locks c' u ((hne hc).symm.trans hu)
  · refine hne ?_
    rintro rfl
    exact hu (Option.some.inj (hc'.symm.trans hlock))

/-- The task has written, and gives the lock back. -/
theorem runs_ends {c : SocketId} {Z : Exc → Hub J → Prop} :
    Runs claims t (Locks owns pending t mine c (some t))
      (modify fun s => (s.log (.ends t c)).release c)
      (fun _ => At owns pending t (.ends t c :: mine) none) Z := by
  refine runs_step persists_locks fun s hinv ⟨h, hw⟩ => ?_
  have hlock : s.locks c = some t := (h.locks c).mpr rfl
  have hne {c' : SocketId} (hc : c ≠ c') :
      writing c' (.ends t c :: s.trace) = writing c' s.trace := if_neg hc
  have hsame {c' : SocketId} (hc : c ≠ c') :
      Function.update s.locks c none c' = s.locks c' := Function.update_of_ne (Ne.symm hc) _ _
  refine ⟨⟨{
    sound := ⟨hw, hinv.sound⟩
    connections := hinv.connections
    locks := fun c' u hu => ?_
    live := hinv.live
    bounded := hinv.bounded
    nodup := hinv.nodup }, List.suffix_cons _ _, fun u hu => ?_⟩, ?_⟩
  · have hc : c ≠ c' := by
      rintro rfl
      cases (if_pos rfl).symm.trans hu
    exact (hsame hc).trans (hinv.locks c' u ((hne hc).symm.trans hu))
  · have hother {c' : SocketId} (hc' : s.locks c' = some u) : c ≠ c' := by
      rintro rfl
      exact hu (Option.some.inj (hc'.symm.trans hlock))
    refine ⟨own_cons_of_ne fun h => hu (Option.some.inj h).symm, fun c' => ⟨fun hc' => ?_,
      fun hc' => (hsame (hother hc')).trans hc'⟩, fun c' hc' => hne (hother hc'),
      fun _ _ hk _ => hk, Iff.rfl⟩
    have hlocks : Function.update s.locks c none c' = some u := hc'
    by_cases hc : c = c'
    · subst hc
      rw [Function.update_self] at hlocks
      cases hlocks
    · exact (hsame hc).symm.trans hlocks
  · refine ⟨(h.log rfl).trace, fun c' => ⟨fun hc' => ?_, fun hc' => by cases hc'⟩, h.connections,
      h.deliveries⟩
    have hlocks : Function.update s.locks c none c' = some t := hc'
    by_cases hc : c = c'
    · subst hc
      rw [Function.update_self] at hlocks
      cases hlocks
    · exact absurd (Option.some.inj ((h.locks c').mp ((hsame hc).symm.trans hlocks))) hc

theorem runs_locked {c : SocketId} {frame : Frame J} (hdue : Due t c frame mine) :
    Runs claims t (At owns pending t mine none) (locked t c frame)
      (fun _ => At owns pending t (.ends t c :: .begins t c frame :: mine) none)
      fun _ => Since owns pending t mine := by
  refine Triple.bind (runs_acquire.post (fun _ _ h => h) fun x s h => .of_at h.2) fun _ => ?_
  refine Triple.bind (runs_begins hdue) fun _ => ?_
  refine Triple.bind (runs_attempt_same (runs_write persists_locks fun _ _ h => h))
    fun outcome => ?_
  refine Triple.bind runs_ends fun _ => ?_
  refine Triple.ofExcept (fun _ _ s h => h) fun x _ s h => ?_
  exact ⟨_, (List.suffix_cons _ _).trans (List.suffix_cons _ _), h⟩

/-! ## Connections -/

theorem runs_timeout {scope : Scope} {p : Task J α}
    (h : Runs claims t K p Q fun _ => Z) : Runs claims t K (timeout scope p) Q fun _ => Z := by
  refine Triple.bind (runs_attempt h) fun outcome => ?_
  split
  · exact .throw fun s hs => hs.2 _ rfl
  · exact .ofExcept (fun a ha s hs => hs.1 a ha) fun x hx s hs => hs.2 x hx

theorem runs_suppress {caught : Exc → Bool} {p : Task J Unit} {Q : Hub J → Prop}
    (h : Runs claims t K p (fun _ => Q) fun _ => Q) :
    Runs claims t K (suppress caught p) (fun _ => Q) fun _ => Q := by
  refine Triple.bind (runs_attempt_same h) fun outcome => ?_
  split
  · split
    · exact .pure fun _ hq => hq
    · exact .throw fun _ hq => hq
  · exact .pure fun _ hq => hq

/-- What holds of any further entries holds since then. -/
theorem Runs.since {p : Task J α} {Q : α → Hub J → Prop} {Z : Exc → Hub J → Prop}
    (h : ∀ mine', mine <:+ mine' → Runs claims t (At owns pending t mine' none) p Q Z) :
    Runs claims t (Since owns pending t mine) p Q Z := by
  rintro s hinv ⟨mine', hsub, hat⟩
  exact h mine' hsub s hinv hat

theorem runs_send {k : Connection} {frame : Frame J} (hdue : Due t k.websocket frame mine) :
    Runs claims t (At owns pending t mine none) (send t k frame)
      (fun _ => Since owns pending t mine) fun _ => Since owns pending t mine :=
  (runs_locked hdue).post
    (fun _ _ h => ⟨_, (List.suffix_cons _ _).trans (List.suffix_cons _ _), h⟩) fun _ _ h => h

theorem runs_close {k : Connection} {code : Nat} :
    Runs claims t (Since owns pending t mine) (close t k code)
      (fun _ => Since owns pending t mine) fun _ => Since owns pending t mine := by
  refine Runs.since fun mine' hsub => runs_timeout (Triple.post (runs_locked trivial)
    (fun _ s h => ?_) fun _ s h => h.mono hsub)
  exact Since.mono (hsub.trans ((List.suffix_cons _ _).trans (List.suffix_cons _ _))) (.of_at h)

theorem runs_authorize {k : Connection} :
    Runs claims t (At owns pending t mine none) (authorize t k)
      (fun _ s => ∃ principal,
        At owns pending t (.authenticated t k.token principal :: mine) none s)
      fun _ => At owns pending t mine none :=
  Triple.bind runs_authenticate fun principal => .pure fun _ h => ⟨principal, h.2⟩

theorem runs_check {d : UUID} {k : Connection} {Z : Exc → Hub J → Prop} :
    Runs claims t (At owns pending t mine none) (step (Hub.check t d k))
      (fun current => At owns pending t (if current then .current t d k :: mine else mine) none)
      Z := by
  refine runs_step persists_at fun s hinv h => ?_
  unfold Hub.check
  cases hcurrent : s.is_current d k with
  | true =>
      have hj : connectionOf d s.trace = some k :=
        (hinv.connections d).symm.trans (of_decide_eq_true hcurrent)
      exact ⟨keeps_quiet hinv rfl trivial hj, h.log rfl⟩
  | false =>
      exact ⟨.refl hinv, h⟩

theorem runs_find {d : UUID} {event : J} {Z : Exc → Hub J → Prop} :
    Runs claims t (At owns pending t mine none) (step (Hub.find t d event))
      (fun found s => (found = none → At owns pending t mine none s) ∧
        ∀ k, found = some k → At owns pending t (.delivering t d event k :: mine) none s) Z := by
  refine runs_step persists_at fun s hinv h => ?_
  unfold Hub.find
  cases hfound : s.connections d with
  | none =>
      exact ⟨.refl hinv, fun _ => h, fun k hk => (by cases hk)⟩
  | some k =>
      refine ⟨keeps_quiet hinv rfl trivial ((hinv.connections d).symm.trans hfound),
        fun hk => (by cases hk), fun k' hk' => ?_⟩
      obtain rfl := Option.some.inj hk'
      exact h.log rfl

theorem At.imp {owns' : UUID → Connection → Prop} {lock : Option SocketId} {s : Hub J}
    (h : At owns pending t mine lock s) (himp : ∀ d k, owns d k → owns' d k) :
    At owns' pending t mine lock s :=
  ⟨h.trace, h.locks, fun d k hk ht => himp d k (h.connections d k hk ht), h.deliveries⟩

theorem Since.imp {owns' : UUID → Connection → Prop} {s : Hub J}
    (h : Since owns pending t mine s) (himp : ∀ d k, owns d k → owns' d k) :
    Since owns' pending t mine s := by
  obtain ⟨mine', hsub, h⟩ := h
  exact ⟨mine', hsub, h.imp himp⟩

theorem keeps_unregister {d : UUID} {k : Connection} {s : Hub J} (hinv : Inv claims s)
    (hcurrent : s.connections d = some k) :
    (discipline claims).Keeps t s
      ({ s with connections := Function.update s.connections d none }.log
        (.unregistered t d k)) where
  inv := {
    sound := ⟨(hinv.connections d).symm.trans hcurrent, hinv.sound⟩
    connections := by
      intro d'
      by_cases hd : d = d'
      · subst hd
        exact (Function.update_self _ _ _).trans (if_pos rfl).symm
      · exact (Function.update_of_ne (Ne.symm hd) _ _).trans
          ((hinv.connections d').trans (if_neg hd).symm)
    locks := hinv.locks
    live := hinv.live
    bounded := hinv.bounded
    nodup := hinv.nodup }
  grow := List.suffix_cons _ _
  own u hu := {
    trace := own_cons_of_ne fun h => hu (Option.some.inj h).symm
    locks := fun _ => Iff.rfl
    writing := fun _ _ => rfl
    connections := by
      intro d' k' hk' _
      have hupdate : Function.update s.connections d none d' = some k' := hk'
      by_cases hd : d' = d
      · subst hd
        rw [Function.update_self] at hupdate
        cases hupdate
      · exact (Function.update_of_ne hd _ _).symm.trans hupdate
    deliveries := Iff.rfl }

/-- A connection is taken out of the registry if it is the current one of its
device. -/
theorem runs_unregister {d : UUID} {k : Connection} {Z : Exc → Hub J → Prop} :
    Runs claims t (Since owns pending t mine) (modify (Hub.unregister t d k))
      (fun _ => Since (fun d' k' => owns d' k' ∧ ¬(d' = d ∧ k' = k)) pending t mine) Z := by
  refine Runs.since fun mine' hsub => runs_step persists_at fun s hinv h => ?_
  unfold Hub.unregister
  cases hcurrent : s.is_current d k with
  | true =>
      have hc : s.connections d = some k := of_decide_eq_true hcurrent
      have hlog := h.log (e := .unregistered t d k) rfl
      refine ⟨keeps_unregister hinv hc, _, hsub.trans (List.suffix_cons _ _), hlog.trace, h.locks,
        fun d' k' hk' ht => ?_, h.deliveries⟩
      have hupdate : Function.update s.connections d none d' = some k' := hk'
      have hd : d' ≠ d := by
        rintro rfl
        rw [Function.update_self] at hupdate
        cases hupdate
      exact ⟨h.connections d' k' ((Function.update_of_ne hd _ _).symm.trans hupdate) ht,
        fun heq => hd heq.1⟩
  | false =>
      refine ⟨.refl hinv, mine', hsub, h.trace, h.locks, fun d' k' hk' ht => ?_, h.deliveries⟩
      refine ⟨h.connections d' k' hk' ht, ?_⟩
      rintro ⟨rfl, rfl⟩
      exact absurd hk' (of_decide_eq_false hcurrent)

/-! ## Deliveries -/

theorem runs_release_envelope {d : UUID} {event : J} {k : Connection} :
    Runs claims t (At owns pending t (.delivering t d event k :: mine) none)
      (release_envelope t d event k) (fun _ => Since owns pending t mine)
      fun _ => Since owns pending t mine := by
  have hsub : mine <:+ Entry.delivering t d event k :: mine := List.suffix_cons _ _
  refine Triple.bind (runs_authorize.post (fun _ _ h => h) fun _ s h =>
    Since.mono hsub (.of_at h)) fun _ => ?_
  rintro s hinv ⟨principal, hs⟩
  refine (Triple.bind runs_check fun current => ?_) s hinv hs
  cases current with
  | true =>
      refine (runs_send ?_).post (fun _ s h => h.mono ?_) fun _ s h => h.mono ?_
      · exact ⟨d, k, principal, mine, rfl, rfl⟩
      all_goals exact hsub.trans ((List.suffix_cons _ _).trans (List.suffix_cons _ _))
  | false =>
      exact .pure fun s h => Since.mono (hsub.trans (List.suffix_cons _ _)) (.of_at h)

theorem runs_deliver {d : UUID} {event : J} :
    Runs claims t (At owns pending t mine none) (deliver t d event)
      (fun _ => Since owns pending t mine) fun _ => Since owns pending t mine := by
  refine Triple.bind runs_find fun found => ?_
  cases found with
  | none => exact .pure fun s h => .of_at (h.1 rfl)
  | some k =>
      refine Triple.bind (runs_attempt_same (runs_release_envelope.mono fun s h => h.2 k rfl))
        fun outcome => ?_
      cases outcome with
      | ok => exact .pure fun s h => h
      | error x =>
          dsimp only
          split_ifs
          · refine Triple.bind (runs_unregister.post (fun _ s h => h.imp fun _ _ h' => h'.1)
              fun _ _ h => h) fun _ => runs_suppress runs_close
          · exact .throw fun s h => h

/-- The task is no pending delivery any more. -/
theorem runs_discard {Z : Exc → Hub J → Prop} :
    Runs claims t (Since owns pending t mine) (modify (Hub.discard t))
      (fun _ => Since owns False t mine) Z := by
  refine Runs.since fun mine' hsub => runs_step persists_at fun s hinv h => ?_
  refine ⟨⟨{
    sound := hinv.sound
    connections := hinv.connections
    locks := hinv.locks
    live := hinv.live
    bounded := (List.length_filter_le _ _).trans hinv.bounded
    nodup := hinv.nodup.filter _ }, List.suffix_rfl, fun u hu => ?_⟩,
    mine', hsub, h.trace, h.locks, h.connections, ?_⟩
  · refine ⟨rfl, fun _ => Iff.rfl, fun _ _ => rfl, fun _ _ hk _ => hk, ?_⟩
    exact ⟨fun hmem => (List.mem_filter.mp hmem).1,
      fun hmem => List.mem_filter.mpr ⟨hmem, decide_eq_true hu⟩⟩
  · refine iff_of_false (fun hmem => ?_) id
    exact of_decide_eq_true (List.mem_filter.mp hmem).2 rfl

theorem runs__deliver {d : UUID} {event : J} :
    Runs claims t (At owns pending t mine none) (_deliver t d event)
      (fun _ => Since owns False t mine) fun _ => Since owns False t mine := by
  refine Triple.bind (runs_attempt_same (runs_suppress (runs_timeout runs_deliver)))
    fun outcome => ?_
  refine Triple.bind runs_discard fun _ => ?_
  exact .ofExcept (fun _ _ _ h => h) fun _ _ _ h => h

theorem runs_publish_event {d : UUID} {event : J} :
    Runs claims t (At owns pending t mine none) (publish_event t d event)
      (fun _ => Since owns pending t mine) fun _ => Since owns pending t mine :=
  runs_suppress (runs_timeout runs_deliver)

/-! ## The endpoint -/

theorem keeps_register {d : UUID} {k : Connection} {s : Hub J} (hinv : Inv claims s)
    (hj : Justified claims (.registered t d k) s.trace) :
    (discipline claims).Keeps t s
      ({ s with connections := Function.update s.connections d (some k) }.log
        (.registered t d k)) where
  inv := {
    sound := ⟨hj, hinv.sound⟩
    connections := by
      intro d'
      by_cases hd : d = d'
      · subst hd
        exact (Function.update_self _ _ _).trans (if_pos rfl).symm
      · exact (Function.update_of_ne (Ne.symm hd) _ _).trans
          ((hinv.connections d').trans (if_neg hd).symm)
    locks := hinv.locks
    live := hinv.live
    bounded := hinv.bounded
    nodup := hinv.nodup }
  grow := List.suffix_cons _ _
  own u hu := {
    trace := own_cons_of_ne fun h => hu (Option.some.inj h).symm
    locks := fun _ => Iff.rfl
    writing := fun _ _ => rfl
    connections := by
      intro d' k' hk' ht
      have hupdate : Function.update s.connections d (some k) d' = some k' := hk'
      by_cases hd : d' = d
      · subst hd
        rw [Function.update_self] at hupdate
        obtain rfl := Option.some.inj hupdate
        exact absurd (ht.symm.trans hj.1) hu
      · exact (Function.update_of_ne hd _ _).symm.trans hupdate
    deliveries := Iff.rfl }

/-- The endpoint puts its connection into the registry. -/
theorem runs_registered {d : UUID} {k : Connection} {Z : Exc → Hub J → Prop}
    (hj : k.websocket = t ∧ ∃ principal event, principal.device_id = d ∧
      mine = [.authenticated t k.token principal, .received t event]) :
    Runs claims t (At nothing pending t mine none) (step (Hub.register t d k))
      (fun _ => At (fun d' k' => d' = d ∧ k' = k) pending t (.registered t d k :: mine) none)
      Z := by
  refine runs_step persists_at fun s hinv h => ?_
  obtain ⟨hsocket, principal, event, hdevice, hmine⟩ := hj
  refine ⟨keeps_register hinv ⟨hsocket, principal, event, hdevice, h.trace.trans hmine⟩, ?_⟩
  have hlog := h.log (e := .registered t d k) rfl
  refine ⟨hlog.trace, h.locks, fun d' k' hk' ht => ?_, h.deliveries⟩
  have hupdate : Function.update s.connections d (some k) d' = some k' := hk'
  by_cases hd : d' = d
  · subst hd
    rw [Function.update_self] at hupdate
    exact ⟨rfl, (Option.some.inj hupdate).symm⟩
  · exact (h.connections d' k' ((Function.update_of_ne hd _ _).symm.trans hupdate) ht).elim

theorem runs_register {d : UUID} {k : Connection}
    (hj : k.websocket = t ∧ ∃ principal event, principal.device_id = d ∧
      mine = [.authenticated t k.token principal, .received t event]) :
    Runs claims t (At nothing pending t mine none) (register t d k)
      (fun _ => Since (fun d' k' => d' = d ∧ k' = k) pending t (.registered t d k :: mine))
      fun _ => Since (fun d' k' => d' = d ∧ k' = k) pending t (.registered t d k :: mine) := by
  refine Triple.bind (runs_registered hj) fun previous => ?_
  cases previous with
  | none => exact .pure fun s h => .of_at h
  | some previous => exact (runs_suppress runs_close).mono fun s h => .of_at h

/-- The task holds no lock. -/
def Free (owns : UUID → Connection → Prop) (pending : Prop) (t : Tid) (s : Hub J) : Prop :=
  Since owns pending t [] s

theorem Since.free {s : Hub J} (h : Since owns pending t mine s) : Free owns pending t s :=
  h.mono List.nil_suffix

theorem At.free {s : Hub J} (h : At owns pending t mine none s) : Free owns pending t s :=
  (Since.of_at h).free

theorem persists_free : Persists (discipline claims) t (Free (J := J) owns pending t) :=
  persists_since

/-- A frame is written, and whatever comes of it the task holds no lock. -/
theorem runs_send_free {k : Connection} {frame : Frame J} (hdue : Due t k.websocket frame mine) :
    Runs claims t (At owns pending t mine none) (send t k frame)
      (fun _ => Free owns pending t) fun _ => Free owns pending t :=
  (runs_send hdue).post (fun _ _ h => h.free) fun _ _ h => h.free

theorem runs_authorize_free {k : Connection} {p : Task J α} {Q : α → Hub J → Prop}
    (hp : ∀ principal, Runs claims t
      (At owns pending t (.authenticated t k.token principal :: mine) none) p Q
        fun _ => Free owns pending t) :
    Runs claims t (At owns pending t mine none) (do authorize t k; p) Q
      fun _ => Free owns pending t := by
  refine Triple.bind (runs_authorize.post (fun _ _ h => h) fun _ _ h => h.free) fun _ => ?_
  rintro s hinv ⟨principal, h⟩
  exact hp principal s hinv h

/-- The session is authenticated again, then the command is handled. -/
theorem runs_answer {d : UUID} {k : Connection} {event : J} (hk : k.websocket = t) :
    Runs claims t (At owns pending t (.received t event :: mine) none) (answer t d k event)
      (fun _ => Free owns pending t) fun _ => Free owns pending t := by
  obtain ⟨socket, token⟩ := k
  obtain rfl := hk
  refine Triple.bind runs_check fun current => ?_
  cases current with
  | false => exact .pure fun _ h => h.free
  | true =>
      refine Triple.bind (runs_authenticate.post (fun _ _ h => h) fun _ _ h => h.free)
        fun principal => ?_
      refine Triple.bind (Q := fun _ => At owns pending socket (.handling socket principal event ::
        .authenticated socket token principal :: .current socket d ⟨socket, token⟩ ::
          .received socket event :: mine) none) ?_ fun _ => ?_
      · refine runs_step (fun s s' h hd => ⟨h.1, h.2.own hd.own⟩) fun s hinv h => ?_
        exact ⟨keeps_quiet hinv rfl trivial ⟨d, token, mine, h.2.trace⟩, h.2.log rfl⟩
      · refine Triple.bind (runs_handle.post (fun _ _ h => h) fun _ _ h => h.free) fun reply => ?_
        refine Triple.bind (runs_send_free ?_) fun _ => .pure fun _ h => h
        exact ⟨rfl, principal, event, token, d, mine, rfl⟩

theorem runs_round {d : UUID} {k : Connection} (hk : k.websocket = t) :
    Runs claims t (Free owns pending t) (round t d k : Task J Bool)
      (fun _ => Free owns pending t) fun _ => Free owns pending t := by
  refine Runs.since fun mine _ => Triple.bind runs_check fun current => ?_
  cases current with
  | false => exact .pure fun _ h => h.free
  | true =>
      have hreceive : Runs claims t (At owns pending t (.current t d k :: mine) none)
          (receive_event t)
          (fun event => At owns pending t (.received t event :: .current t d k :: mine) none)
          fun _ => At owns pending t (.current t d k :: mine) none := runs_receive_event
      refine Triple.bind (runs_attempt hreceive) fun r => ?_
      split
      · refine (runs_authorize_free fun principal => ?_).mono fun s h => h.2 _ rfl
        exact .pure fun _ h => h.free
      · refine (runs_authorize_free fun principal => ?_).mono fun s h => h.2 _ rfl
        exact Triple.bind (runs_send_free ⟨hk, k.token, principal, _, rfl⟩) fun _ =>
          .pure fun _ h => h
      · exact .throw fun s h => (h.2 _ rfl).free
      · exact (runs_answer hk).mono fun s h => h.1 _ rfl

theorem runs_serve {d : UUID} {k : Connection} (hk : k.websocket = t) :
    Runs claims t (Free owns pending t) (serve t d k : Task J Unit)
      (fun _ => Free owns pending t) fun _ => Free owns pending t := by
  refine Triple.iterate (fun _ => Free owns pending t) (fun _ => persists_free) (fun _ h => h)
    fun _ => ?_
  refine Triple.bind (runs_round hk) fun again => ?_
  cases again with
  | true => exact .pure fun s h => ⟨fun _ _ => h, fun b hb => (by cases hb)⟩
  | false => exact .pure fun s h => ⟨fun l hl => (by cases hl), fun _ _ => h⟩

theorem runs_rescued {connection : Option Connection} {x : Exc} :
    Runs claims t (Free owns pending t) (rescued t connection x : Task J Unit)
      (fun _ => Free owns pending t) fun _ => Free owns pending t := by
  unfold rescued
  split
  · split
    · exact .pure fun _ h => h
    · exact runs_suppress runs_close
  all_goals first
    | exact .pure fun _ h => h
    | exact .throw fun _ h => h

/-- The endpoint takes its own connection out of the registry, however it ends. -/
theorem runs_connected {d : UUID} {k : Connection}
    (hj : k.websocket = t ∧ ∃ principal event, principal.device_id = d ∧
      mine = [.authenticated t k.token principal, .received t event]) :
    Runs claims t (At nothing pending t mine none) (connected t d k)
      (fun _ => Free nothing pending t) fun _ => Free nothing pending t := by
  have hserve : Runs claims t (At nothing pending t mine none)
      (do register t d k; send t k .authOk; serve t d k)
      (fun _ => Free (fun d' k' => d' = d ∧ k' = k) pending t)
      fun _ => Free (fun d' k' => d' = d ∧ k' = k) pending t := by
    refine Triple.bind ((runs_register hj).post (fun _ _ h => h) fun _ _ h => h.free) fun _ => ?_
    refine Triple.bind (Q := fun _ => Free (fun d' k' => d' = d ∧ k' = k) pending t)
      (Runs.since fun mine' hsub => runs_send_free ⟨hj.1, d, k, ?_⟩) fun _ => runs_serve hj.1
    exact hsub.subset List.mem_cons_self
  refine Triple.bind (Q := fun _ => Free (fun d' k' => d' = d ∧ k' = k) pending t)
    (runs_attempt_same (Triple.bind (runs_attempt_same hserve) fun r => ?_)) fun outcome => ?_
  · cases r with
    | ok => exact .pure fun _ h => h
    | error x => exact runs_rescued
  refine Triple.bind (runs_unregister.post (fun _ s h =>
    (h.imp fun _ _ h' => h'.2 h'.1 : Since nothing pending t [] s)) fun _ _ h => h) fun _ => ?_
  exact .ofExcept (fun _ _ _ h => h) fun _ _ _ h => h

theorem runs_first {token : J → Option String} :
    Runs claims t (At nothing pending t [] none) (authenticate token t)
      (fun r s => ∃ event,
        At nothing pending t [.authenticated t r.1 r.2, .received t event] none s)
      fun _ => Free nothing pending t := by
  refine Triple.bind (runs_receive_event.post (fun _ _ h => h) fun _ _ h => h.free)
    fun event => ?_
  split
  · exact .throw fun _ h => h.free
  · exact Triple.bind (runs_authenticate.post (fun _ _ h => h) fun _ _ h => h.free)
      fun principal => .pure fun _ h => ⟨event, h.2⟩

theorem runs_websocket_endpoint {token : J → Option String} {origin_allowed : Bool} :
    Runs claims t (At nothing pending t [] none) (websocket_endpoint token t origin_allowed)
      (fun _ => Free nothing pending t) fun _ => Free nothing pending t := by
  unfold websocket_endpoint
  split_ifs
  · refine Triple.bind ((runs_accept persists_at).post (fun _ _ h => h) fun _ _ h => h.free)
      fun _ => ?_
    refine Triple.bind (runs_attempt runs_first) fun r => ?_
    split
    · rename_i access_token principal
      rintro s hinv h
      obtain ⟨event, hat⟩ := h.1 (access_token, principal) rfl
      exact runs_connected (k := ⟨t, access_token⟩) ⟨rfl, principal, event, rfl, rfl⟩ s hinv hat
    · rename_i x
      split_ifs
      · refine Triple.bind (runs_attempt_same
          ((runs_shut persists_free).mono fun s h => h.2 x rfl)) fun r => ?_
        cases r with
        | ok => exact .pure fun _ h => h
        | error x => exact runs_rescued
      · exact runs_rescued.mono fun s h => h.2 x rfl
  · exact (runs_shut persists_at).post (fun _ _ h => h.free) fun _ _ h => h.free

/-! ## The process -/

variable {token : J → Option String}

theorem Free.ended {s : Hub J} (h : Free nothing False t s) : Ended t s := by
  obtain ⟨mine, -, h⟩ := h
  exact ⟨mine, h⟩

theorem keeps_dispatch {d : UUID} {s s' : Hub J} (hinv : Inv claims s)
    (hidle : At nothing False t [] none s) (h : s.dispatch t d = some s') :
    (discipline claims).Keeps t s s' ∧ At nothing True t [] none s' := by
  unfold Hub.dispatch at h
  split_ifs at h with hnone hfull
  obtain rfl := Option.some.inj h
  refine ⟨⟨{
    sound := hinv.sound
    connections := hinv.connections
    locks := hinv.locks
    live := hinv.live
    bounded := ?_
    nodup := ?_ }, List.suffix_rfl, fun u hu => ?_⟩,
    hidle.trace, hidle.locks, hidle.connections, iff_of_true List.mem_cons_self trivial⟩
  · rw [List.length_cons]
    omega
  · exact List.nodup_cons.mpr ⟨hidle.deliveries.mp, hinv.nodup⟩
  · refine ⟨rfl, fun _ => Iff.rfl, fun _ _ => rfl, fun _ _ hk _ => hk, ?_⟩
    exact List.mem_cons.trans (or_iff_right hu)

theorem changes_own {s s' : Hub J} (h : s.Changes s') (t : Tid) : Own t s s' := by
  obtain ⟨access_token, live, rfl⟩ := h
  exact ⟨own_cons_of_ne fun h => (by cases h), fun _ => Iff.rfl, fun _ _ => rfl,
    fun _ _ hk _ => hk, Iff.rfl⟩

theorem Inv.changes {s s' : Hub J} (hinv : Inv claims s) (h : s.Changes s') : Inv claims s' := by
  obtain ⟨access_token, live, rfl⟩ := h
  exact {
    sound := ⟨trivial, hinv.sound⟩
    connections := hinv.connections
    locks := hinv.locks
    live := by
      intro token
      by_cases htoken : access_token = token
      · subst htoken
        exact (Function.update_self _ _ _).trans (if_pos rfl).symm
      · exact (Function.update_of_ne (Ne.symm htoken) _ _).trans
          ((hinv.live token).trans (if_neg htoken).symm)
    bounded := hinv.bounded
    nodup := hinv.nodup }

theorem ends_task {p : Task J Unit} {s : Hub J} (hinv : Inv claims s) (hs : K s)
    (h : Runs claims t K p (fun _ => Free nothing False t) fun _ => Free nothing False t) :
    (discipline claims).Ends (process claims token) t p s := by
  have htask : Triple (discipline claims) (process claims token).exec t K p
      (fun _ => Free nothing False t) fun _ => Free nothing False t := h
  exact htask.ends (fun _ _ h => h.ended) (fun _ _ _ h => h.ended) hinv hs

/-- **The tasks of a process keep the discipline.** -/
theorem process_respected : (discipline claims).Respected (process (J := J) claims token) where
  start := by
    rintro t op s s' hinv hidle hstart
    cases op with
    | websocket_endpoint origin_allowed =>
        obtain rfl := hstart
        exact ⟨.refl hinv, ends_task hinv hidle runs_websocket_endpoint⟩
    | publish_event d event =>
        obtain rfl := hstart
        exact ⟨.refl hinv, ends_task hinv hidle
          (runs_publish_event.post (fun _ _ h => h.free) fun _ _ h => h.free)⟩
    | _deliver d event =>
        obtain ⟨hkeeps, hat⟩ := keeps_dispatch hinv hidle hstart
        exact ⟨hkeeps, ends_task hkeeps.inv hat
          (runs__deliver.post (fun _ _ h => h.free) fun _ _ h => h.free)⟩
  stop := fun _ _ _ _ h => h.elim
  env := fun s s' hinv h t =>
    ⟨⟨hinv.changes h, h.elim fun _ h => h.elim fun _ h => h ▸ List.suffix_cons _ _,
      fun u _ => changes_own h u⟩, changes_own h t⟩

end Tasks

end Realtime
end Server
end SecureMessenger

import SecureMessenger.Client.CommitPage
import SecureMessenger.Client.RecoveryScopes
import SecureMessenger.Lib.Triples

/-!
# Transmissions of a command

`sendNewText` takes its command out of `inFlight` between its two attempts and
puts it back without looking.  Another operation that takes the command up in
between transmits it at the same time.  As long as none does, a command is
transmitted once at a time, and again only after a lookup that returned `null`
or a rejection with `delivery_targets_changed`.
-/

namespace SecureMessenger
namespace Client
namespace Outgoing

open Lib
open Lib.Discipline

/-- How many transmissions of the command are in progress. -/
def inProgress (id : String) : List Event → Nat
  | [] => 0
  | .sent id' :: past => if id' = id then inProgress id past + 1 else inProgress id past
  | .settled id' _ :: past => if id' = id then inProgress id past - 1 else inProgress id past
  | _ :: past => inProgress id past

/-- The last transmission of the command has ended, and `P` holds of how it did
and of the events since. -/
def Since (id : String) (past : List Event) (P : Bool → List Event → Prop) : Prop :=
  ∃ since changed before, past = since ++ .settled id changed :: before ∧
    (∀ event ∈ since, event ≠ .sent id ∧ ∀ changed', event ≠ .settled id changed') ∧
    P changed since

/-- When an operation takes a command up, no other one is working on it; a new
message has not been transmitted before; and only transmissions are rejected
with `delivery_targets_changed`. -/
def Undisturbed (_ : Tid) : (e : Call) → Fields → e.Answer → Prop
  | .segment (some (.takes id)) _, s, _ => id ∈ s.inFlight ∨ ∀ u, (u, id) ∉ s.working
  | .segment (some (.takesNext readStates outgoing)) _, s, _ =>
      skipped s.inFlight readStates outgoing = true ∨
        ∀ u, (u, outgoing.command.client_message_id) ∉ s.working
  | .segment (some (.newMessage id)) _, s, _ => .sent id ∉ s.trace ∧ ∀ u, (u, id) ∉ s.working
  | .settle (.findSentMessage _), _, (r : Except JsError (Option SentMessage)) =>
      targetsChanged r = false
  | .settle (.decodeIncoming _), _, (r : Except JsError String) => targetsChanged r = false
  | .settle .timer, _, (r : Except JsError Unit) => targetsChanged r = false
  | _, _, _ => True

section Trace

/-! ## What the events say of a command -/

/-- Where the transmissions of a command stand. -/
inductive Standing
  /-- There have been none. -/
  | fresh
  /-- One is in progress. -/
  | sending
  /-- The last one has ended, with an outcome that may be unknown. -/
  | ended
  /-- The command may be transmitted again. -/
  | cleared

namespace Standing

/-- The command may be transmitted. -/
def Ready (st : Standing) : Prop :=
  st = .fresh ∨ st = .cleared

/-- No transmission is in progress. -/
def Rested (st : Standing) : Prop :=
  st ≠ .sending

def inProgress : Standing → Nat
  | .sending => 1
  | _ => 0

/-- A lookup has returned `null`. -/
def lookedUp : Standing → Standing
  | .ended => .cleared
  | st => st

theorem Ready.rested {st : Standing} (h : st.Ready) : st.Rested := by
  rcases h with rfl | rfl
  · exact fun h => by cases h
  · exact fun h => by cases h

theorem Rested.lookedUp {st : Standing} (h : st.Rested) : st.lookedUp.Ready := by
  cases st with
  | fresh => exact .inl rfl
  | sending => exact absurd rfl h
  | ended => exact .inr rfl
  | cleared => exact .inr rfl

theorem Rested.inProgress {st : Standing} (h : st.Rested) : st.inProgress = 0 := by
  cases st with
  | sending => exact absurd rfl h
  | _ => rfl

end Standing

def standing (id : String) : List Event → Standing
  | [] => .fresh
  | .sent id' :: past => if id' = id then .sending else standing id past
  | .settled id' changed :: past =>
      if id' = id then (if changed then .cleared else .ended) else standing id past
  | .absent id' :: past => if id' = id then (standing id past).lookedUp else standing id past
  | _ :: past => standing id past

/-- Transmissions begin when they may, and end after they have begun. -/
def Sequential (id : String) : List Event → Prop
  | [] => True
  | .sent id' :: past => (id' = id → (standing id past).Ready) ∧ Sequential id past
  | .settled id' _ :: past => (id' = id → standing id past = .sending) ∧ Sequential id past
  | _ :: past => Sequential id past

/-- The command whose transmissions the event is about. -/
def Event.about : Event → Option String
  | .sent id => some id
  | .settled id _ => some id
  | .absent id => some id
  | _ => none

variable {id : String} {event : Event} {past new : List Event}

theorem standing_cons_of_ne (h : event.about ≠ some id) :
    standing id (event :: past) = standing id past := by
  cases event with
  | sent id' => exact if_neg fun heq => h (congrArg some heq)
  | settled id' changed => exact if_neg fun heq => h (congrArg some heq)
  | absent id' => exact if_neg fun heq => h (congrArg some heq)
  | _ => rfl

theorem sequential_cons_of_ne (h : event.about ≠ some id) :
    Sequential id (event :: past) ↔ Sequential id past := by
  cases event with
  | sent id' => exact ⟨fun hs => hs.2, fun hs => ⟨fun heq => absurd (congrArg some heq) h, hs⟩⟩
  | settled id' changed =>
      exact ⟨fun hs => hs.2, fun hs => ⟨fun heq => absurd (congrArg some heq) h, hs⟩⟩
  | _ => exact Iff.rfl

/-- Events about nothing change nothing. -/
theorem standing_append (h : ∀ event ∈ new, event.about = none) :
    standing id (new ++ past) = standing id past := by
  induction new with
  | nil => rfl
  | cons event new ih =>
      have hne : event.about ≠ some id := by
        rw [h event List.mem_cons_self]
        exact Option.some_ne_none id ∘ Eq.symm
      rw [List.cons_append, standing_cons_of_ne hne]
      exact ih fun e he => h e (List.mem_cons_of_mem _ he)

theorem sequential_append (h : ∀ event ∈ new, event.about = none) :
    Sequential id (new ++ past) ↔ Sequential id past := by
  induction new with
  | nil => exact Iff.rfl
  | cons event new ih =>
      have hne : event.about ≠ some id := by
        rw [h event List.mem_cons_self]
        exact Option.some_ne_none id ∘ Eq.symm
      rw [List.cons_append, sequential_cons_of_ne hne]
      exact ih fun e he => h e (List.mem_cons_of_mem _ he)

theorem Since.cons {P P' : Bool → List Event → Prop} (h : Since id past P)
    (hsent : event ≠ .sent id) (hsettled : ∀ changed, event ≠ .settled id changed)
    (hP : ∀ changed since, P changed since → P' changed (event :: since)) :
    Since id (event :: past) P' := by
  obtain ⟨since, changed, before, rfl, hsince, hp⟩ := h
  refine ⟨event :: since, changed, before, rfl, fun e he => ?_, hP _ _ hp⟩
  rcases List.mem_cons.mp he with rfl | he
  · exact ⟨hsent, hsettled⟩
  · exact hsince e he

end Trace

section Discipline

/-! ## Who works on a command -/

/-- One operation at a time works on a command, and only it transmits. -/
structure Transmitting (s : Fields) : Prop where
  exclusive : ∀ t u id, (t, id) ∈ s.working → (u, id) ∈ s.working → t = u
  busy : ∀ id, (∀ t, (t, id) ∉ s.working) → (standing id s.trace).Rested
  sequential : ∀ id, Sequential id s.trace

/-- The others neither take a command from an operation nor transmit it. -/
def transmitting : Discipline Fields where
  inv := Transmitting
  grow _ _ := True
  own t s s' := ∀ id, ((t, id) ∈ s'.working ↔ (t, id) ∈ s.working) ∧
    ((t, id) ∈ s.working → standing id s'.trace = standing id s.trace)
  grow_refl _ := trivial
  grow_trans _ _ := trivial
  own_refl _ _ _ := ⟨Iff.rfl, fun _ => rfl⟩
  own_trans h h' id := ⟨(h' id).1.trans (h id).1, fun hworks =>
    ((h' id).2 ((h id).1.mpr hworks)).trans ((h id).2 hworks)⟩

/-- The operation works on the command, whose transmissions stand so. -/
def Works (t : Tid) (id : String) (P : Standing → Prop) (s : Fields) : Prop :=
  (t, id) ∈ s.working ∧ P (standing id s.trace)

/-- A step that takes up no command and transmits none. -/
def Mild (s s' : Fields) : Prop :=
  s'.working = s.working ∧ Adds (·.about = none) s s'

variable {t : Tid} {id : String} {s s' : Fields} {P : Standing → Prop}

theorem Mild.standing (h : Mild s s') (id : String) :
    standing id s'.trace = standing id s.trace := by
  obtain ⟨-, new, htrace, hnew⟩ := h
  rw [htrace]
  exact standing_append hnew

theorem Mild.works (h : Mild s s') (hw : Works t id P s) : Works t id P s' := by
  unfold Works
  rw [h.1, h.standing id]
  exact hw

/-- A mild step disturbs nobody. -/
theorem Mild.keeps (h : Mild s s') (hinv : Transmitting s) : transmitting.Keeps t s s' := by
  refine ⟨⟨?_, fun id hid => ?_, fun id => ?_⟩, trivial, fun u _ id => ⟨?_, fun _ => h.standing id⟩⟩
  · rw [h.1]
    exact hinv.exclusive
  · rw [h.1] at hid
    rw [h.standing id]
    exact hinv.busy id hid
  · obtain ⟨-, new, htrace, hnew⟩ := h
    rw [htrace]
    exact (sequential_append hnew).mpr (hinv.sequential id)
  · rw [h.1]

theorem Mild.of_eq (hw : s'.working = s.working) (ht : s'.trace = s.trace) : Mild s s' :=
  ⟨hw, .of_trace ht⟩

theorem Mild.trans {s'' : Fields} (h : Mild s s') (h' : Mild s' s'') : Mild s s'' :=
  ⟨h'.1.trans h.1, h.2.trans h'.2⟩

theorem Mild.log {event : Event} (h : event.about = none) (s : Fields) : Mild s (s.log event) :=
  ⟨rfl, .log h s⟩

/-- A call whose steps are mild. -/
def MildCall (e : Call) : Prop :=
  ∀ t s r s', Segmented.exec settles t e s r s' → Mild s s'

/-- A transmission or lookup by the operation that works on the command. -/
theorem keeps_log {event : Event} (hinv : Transmitting s) (hworks : (t, id) ∈ s.working)
    (habout : event.about = some id) (hseq : Sequential id (event :: s.trace)) :
    transmitting.Keeps t s (s.log event) := by
  have hother : ∀ id', id' ≠ id → event.about ≠ some id' := fun id' hne heq =>
    hne (Option.some.inj (heq.symm.trans habout))
  refine ⟨⟨hinv.exclusive, fun id' hid' => ?_, fun id' => ?_⟩, trivial,
    fun u hu id' => ⟨Iff.rfl, fun hworks' => ?_⟩⟩
  · have hne : id' ≠ id := fun heq => hid' t (heq ▸ hworks)
    exact (standing_cons_of_ne (hother id' hne)).symm ▸ hinv.busy id' hid'
  · by_cases hid' : id' = id
    · exact hid' ▸ hseq
    · exact (sequential_cons_of_ne (hother id' hid')).mpr (hinv.sequential id')
  · have hne : id' ≠ id := fun heq => hu (hinv.exclusive u t id (heq ▸ hworks') hworks)
    exact standing_cons_of_ne (hother id' hne)

/-- An operation takes up a command nobody works on. -/
theorem keeps_takeUp (hinv : Transmitting s) (hfree : ∀ u, (u, id) ∉ s.working) :
    transmitting.Keeps t s (s.begin t id) ∧ Works t id Standing.Rested (s.begin t id) := by
  have hmem : ∀ u id', (u, id') ∈ (s.begin t id).working ↔
      (u = t ∧ id' = id) ∨ (u, id') ∈ s.working := by
    intro u id'
    simp only [Fields.begin, List.mem_cons, Prod.mk.injEq]
  refine ⟨⟨⟨fun u v id' hu hv => ?_, fun id' hid' => ?_, hinv.sequential⟩, trivial,
    fun u hu id' => ⟨?_, fun _ => rfl⟩⟩, (hmem t id).mpr (.inl ⟨rfl, rfl⟩), hinv.busy id hfree⟩
  · rcases (hmem u id').mp hu with ⟨rfl, rfl⟩ | hold
    · rcases (hmem v id').mp hv with ⟨rfl, -⟩ | hold
      · rfl
      · exact absurd hold (hfree v)
    · rcases (hmem v id').mp hv with ⟨rfl, rfl⟩ | hold'
      · exact absurd hold (hfree u)
      · exact hinv.exclusive u v id' hold hold'
  · exact hinv.busy id' fun u hu => hid' u ((hmem u id').mpr (.inr hu))
  · rw [hmem]
    exact or_iff_right fun h => hu h.1

/-- It is done with the command. -/
theorem keeps_finish (hinv : Transmitting s) (hworks : Works t id Standing.Rested s) :
    transmitting.Keeps t s (s.finish t id) := by
  have hmem : ∀ u id', (u, id') ∈ (s.finish t id).working ↔
      (u, id') ∈ s.working ∧ ¬(u = t ∧ id' = id) := by
    intro u id'
    simp only [Fields.finish, List.mem_filter, ne_eq, Prod.mk.injEq, decide_eq_true_eq]
  refine ⟨⟨fun u v id' hu hv => ?_, fun id' hid' => ?_, hinv.sequential⟩, trivial,
    fun u hu id' => ⟨?_, fun _ => rfl⟩⟩
  · exact hinv.exclusive u v id' ((hmem u id').mp hu).1 ((hmem v id').mp hv).1
  · by_cases heq : id' = id
    · exact heq ▸ hworks.2
    · exact hinv.busy id' fun u hu => hid' u ((hmem u id').mpr ⟨hu, fun h => heq h.2⟩)
  · rw [hmem]
    exact and_iff_left fun h => hu h.1

end Discipline

section Inbox

/-! ## Errors of the inbox -/

variable {α β : Type}

end Inbox

section Programs

/-! ## The functions of the manager -/

variable {t : Tid} {id : String} {P : Standing → Prop} {α β : Type}

/-- A thread that knows `K` may run the program. -/
abbrev Transmits (t : Tid) (K : Fields → Prop) (p : Async α) (Q : α → Fields → Prop)
    (Z : JsError → Fields → Prop) : Prop :=
  Triple transmitting (sessions.restrict Undisturbed).exec t K p Q Z

theorem persists_works : Persists transmitting t (Works t id P) := by
  rintro s s' ⟨hworks, hp⟩ hd
  obtain ⟨hiff, hstanding⟩ := hd.own id
  exact ⟨hiff.mpr hworks, (hstanding hworks).symm ▸ hp⟩

/-- Mild calls keep what is known of a command. -/
theorem transmits_mild {p : Async α} (hp : Prog.Calls MildCall p) :
    Transmits t (Works t id P) p (fun _ => Works t id P) fun _ => Works t id P :=
  Triple.calls persists_works (fun _ s r s' he hinv hw hx =>
    ⟨(he t s r s' hx.1).keeps hinv, (he t s r s' hx.1).works hw⟩) hp

/-- A function that leaves the command alone and does not throw
`delivery_targets_changed`. -/
abbrev Tame (t : Tid) (id : String) (P : Standing → Prop) (p : Async α) : Prop :=
  Transmits t (Works t id P) p (fun _ => Works t id P)
    fun x s => Works t id P s ∧ isDeliveryTargetsChanged x = false

/-- After a call that transmits: none is in progress, and the command may be
transmitted again if this one was rejected with `delivery_targets_changed`. -/
def Standing.After (x : JsError) (st : Standing) : Prop :=
  st.Rested ∧ (isDeliveryTargetsChanged x = true → st.Ready)

/-- What a function of the command knows when it throws. -/
abbrev Thrown (t : Tid) (id : String) (x : JsError) (s : Fields) : Prop :=
  Works t id (Standing.After x) s

theorem Works.mono {s : Fields} {P' : Standing → Prop} (h : Works t id P s)
    (hp : ∀ st, P st → P' st) : Works t id P' s :=
  ⟨h.1, hp _ h.2⟩

/-- A tame function of a command no transmission of which is in progress. -/
theorem Tame.resting {p : Async α} (h : Tame t id P p) (hp : ∀ st, P st → st.Rested) :
    Transmits t (Works t id P) p (fun _ => Works t id P) (Thrown t id) :=
  Triple.post h (fun _ _ h => h) fun x s hs => hs.1.mono fun st hst =>
    ⟨hp st hst, fun hx => by rw [hs.2] at hx; cases hx⟩

theorem rested (st : Standing) (h : st.Rested) : st.Rested := h

/-- A lookup that returns `null` clears the command. -/
theorem transmits_findSentMessage :
    Transmits t (Works t id Standing.Rested) (await (.findSentMessage id))
      (fun found => Works t id fun st => st.Rested ∧ (found = none → st.Ready))
      (Thrown t id) := by
  refine Triple.eff (J := fun (r : Except JsError (Option SentMessage)) s =>
    Works t id (fun st => st.Rested ∧ (r = .ok none → st.Ready)) s ∧ targetsChanged r = false)
    persists_works ?_ fun r => Triple.ofExcept ?_ ?_
  · rintro s (r : Except JsError (Option SentMessage)) s' hinv hw ⟨hx, hok⟩
    obtain rfl : s' = if r = .ok none then s.log (.absent id) else s := hx
    split
    · have hstanding : standing id (s.log (.absent id)).trace = (standing id s.trace).lookedUp :=
        if_pos rfl
      refine ⟨keeps_log hinv hw.1 rfl (hinv.sequential id), ⟨hw.1, ?_⟩, hok⟩
      rw [hstanding]
      exact ⟨hw.2.lookedUp.rested, fun _ => hw.2.lookedUp⟩
    · rename_i hne
      exact ⟨Keeps.refl hinv, ⟨hw.1, hw.2, fun h => absurd h hne⟩, hok⟩
  · rintro found rfl s hs
    exact hs.1.mono fun st hst => ⟨hst.1, fun h => hst.2 (congrArg Except.ok h)⟩
  · rintro x rfl s hs
    exact hs.1.mono fun st hst => ⟨hst.1, fun hx => by
      have hnot : isDeliveryTargetsChanged x = false := hs.2
      rw [hnot] at hx
      cases hx⟩

/-- A function of a command that may transmit it, from `P`. -/
abbrev Sends (t : Tid) (id : String) (P : Standing → Prop) (p : Async α) : Prop :=
  Transmits t (Works t id P) p (fun _ => Works t id Standing.Rested) (Thrown t id)

/-- A tame step of a function that is at rest. -/
theorem Sends.after {p : Async α} {f : α → Async β} (hp : Tame t id P p)
    (hP : ∀ st, P st → st.Rested) (hf : ∀ a, Sends t id P (f a)) : Sends t id P (p >>= f) :=
  Triple.bind (hp.resting hP) hf

/-- A lookup, and what follows. -/
theorem Sends.lookup {f : Option SentMessage → Async β}
    (hsome : ∀ found, Sends t id Standing.Rested (f (some found)))
    (hnone : Sends t id Standing.Ready (f none)) :
    Sends t id Standing.Rested (await (.findSentMessage id) >>= f) := by
  refine Triple.bind transmits_findSentMessage fun (found : Option SentMessage) => ?_
  cases found with
  | some found => exact Triple.mono (hsome found) fun _ hs => hs.mono fun _ hst => hst.1
  | none => exact Triple.mono hnone fun _ hs => hs.mono fun _ hst => hst.2 rfl

/-- What `attempt` makes of it. -/
theorem Sends.attempt {p : Async α} {f : Except JsError α → Async β}
    {Q : β → Fields → Prop} {Z : JsError → Fields → Prop} (h : Sends t id P p)
    (hok : ∀ a, Transmits t (Works t id Standing.Rested) (f (.ok a)) Q Z)
    (herror : ∀ x, Transmits t (Thrown t id x) (f (.error x)) Q Z) :
    Transmits t (Works t id P) (Prog.attempt p >>= f) Q Z := by
  refine Triple.bind (Triple.attempt (W := fun r s =>
    (∀ a, r = .ok a → Works t id Standing.Rested s) ∧ ∀ x, r = .error x → Thrown t id x s) h
    (fun a s hs => ⟨fun _ _ => hs, fun _ hx => (nomatch hx)⟩)
    fun x s hs => ⟨fun _ ha => (nomatch ha), fun _ hx => Except.error.inj hx ▸ hs⟩) fun r => ?_
  cases r with
  | ok a => exact Triple.mono (hok a) fun _ hs => hs.1 a rfl
  | error x => exact Triple.mono (herror x) fun _ hs => hs.2 x rfl

/-- A function after which no transmission is in progress. -/
abbrev Rests (t : Tid) (id : String) (P : Standing → Prop) (p : Async α) : Prop :=
  Transmits t (Works t id P) p (fun _ => Works t id Standing.Rested)
    fun _ => Works t id Standing.Rested

/-- A mild step. -/
theorem Rests.after {p : Async α} {f : α → Async β} (hp : Prog.Calls MildCall p)
    (hP : ∀ st, P st → st.Rested) (hf : ∀ a, Rests t id P (f a)) : Rests t id P (p >>= f) :=
  Triple.bind (Triple.post (transmits_mild hp) (fun _ _ h => h) fun _ _ h => h.mono hP) hf

/-- A function that takes no command with it. -/
abbrev Free (t : Tid) (K : Fields → Prop) (p : Async α) : Prop :=
  Transmits t K p (fun _ _ => True) fun _ _ => True

theorem free_ofExcept {K : Fields → Prop} {r : Except JsError α} :
    Free t K (Prog.ofExcept r) :=
  Triple.ofExcept (fun _ _ _ _ => trivial) fun _ _ _ _ => trivial

/-- The operation has taken the command up. -/
theorem keeps_take {s : Fields} (hinv : Transmitting s)
    (hok : id ∈ s.inFlight ∨ ∀ u, (u, id) ∉ s.working) :
    transmitting.Keeps t s (s.take t id).2 ∧
      ∀ scope, (s.take t id).1 = .ok scope → Works t id Standing.Rested (s.take t id).2 := by
  unfold Fields.take
  split
  · exact ⟨Keeps.refl hinv, fun scope h => by cases h⟩
  · split
    · exact ⟨Keeps.refl hinv, fun scope h => by cases h⟩
    · rename_i hnot
      obtain ⟨hkeeps, hworks⟩ := keeps_takeUp (t := t) hinv (hok.resolve_left hnot)
      have hmild : Mild (s.begin t id) ((s.begin t id).addInFlight id) := .of_eq rfl rfl
      exact ⟨hkeeps.trans (hmild.keeps hkeeps.inv), fun _ _ => hmild.works hworks⟩

end Programs

section Runs

theorem Fields.New.transmitting {s : Fields} (h : s.New) : Transmitting s := by
  refine ⟨fun t u id ht => ?_, fun id _ => ?_, fun id => ?_⟩
  · rw [h.working] at ht
    cases ht
  · rw [h.trace]
    exact fun hst => by cases hst
  · rw [h.trace]
    trivial

end Runs

section Rejected

/-! ## A command that is rejected at first -/

def phoneRef : ScopeRef := ⟨phoneScope, 0⟩

end Rejected

end Outgoing
end Client
end SecureMessenger

import SecureMessenger.EndToEnd.Progress

/-!
# Synchronization terminates

In a fair run every place of the promise chain is left and every operation
ends.  So a synchronization of a mailbox that does not grow meanwhile ends with
the cursor at its last sequence.  The pages are accepted as long as the last
sequence is a safe integer, and the one beyond is not.
-/

namespace SecureMessenger
namespace EndToEnd

open Lib
open Client (ScopeRef Call JsError JsNumber Async InboxScope envelopeAt phoneScope)

section Fairness

variable {ref : ScopeRef} {iso : Server.Instant → Client.Timestamp} {t : Tid} {s s' : Line}

/-- A call leaves the places as they are, or hands out the next one. -/
theorem exec_chain {c : Call} {r : c.Answer} (h : Line.exec ref iso t c s r s') :
    s.tab.chain.next ≤ s'.tab.chain.next ∧
      ∀ u q, s'.place u = some q → s.place u = some q ∨ q = s.tab.chain.next := by
  cases c with
  | inbox tx =>
      obtain ⟨db, -, rfl⟩ := h
      exact ⟨le_rfl, fun u q hq => .inl hq⟩
  | request _ | notify _ =>
      obtain rfl := h
      exact ⟨le_rfl, fun u q hq => .inl hq⟩
  | response g =>
      obtain ⟨rfl, -⟩ := h
      exact ⟨le_rfl, fun u q hq => .inl hq⟩
  | enqueue =>
      obtain ⟨l, ⟨rfl, rfl⟩, rfl⟩ := h
      refine ⟨Nat.le_succ _, fun u q hq => ?_⟩
      by_cases hu : u = t
      · subst hu
        simp only [Function.update_self, Option.some.injEq] at hq
        exact .inr hq.symm
      · simp only [Function.update_of_ne hu] at hq
        exact .inl hq
  | leave place =>
      obtain ⟨l, rfl, rfl⟩ := h
      refine ⟨le_rfl, fun u q hq => ?_⟩
      by_cases hu : u = t
      · subst hu
        simp only [Function.update_self] at hq
        cases hq
      · simp only [Function.update_of_ne hu] at hq
        exact .inl hq
  | turn _ | memory _ | recovery _ =>
      obtain ⟨l, ⟨-, rfl⟩, rfl⟩ := h
      exact ⟨le_rfl, fun u q hq => .inl hq⟩
  | transport | sleep | clock | freshId =>
      obtain ⟨l, rfl, rfl⟩ := h
      exact ⟨le_rfl, fun u q hq => .inl hq⟩

theorem step_chain {p p' : Pool Call Call.Answer JsError Line} {m : Move LineOp}
    (hs : System.Step (lineSystem ref iso) m p p') :
    p.shared.tab.chain.next ≤ p'.shared.tab.chain.next ∧
      ∀ u q, p'.shared.place u = some q →
        p.shared.place u = some q ∨ q = p.shared.tab.chain.next := by
  cases hs with
  | act ht hx => exact exec_chain hx
  | unfold ht => exact ⟨le_rfl, fun u q hq => .inl hq⟩
  | start ht hst =>
      obtain ⟨rfl, -⟩ := hst
      exact ⟨le_rfl, fun u q hq => .inl hq⟩
  | stop ht hst => exact hst.elim
  | env hst =>
      obtain ⟨sec, op, db, -, -, -, heq⟩ := hst
      rw [heq]
      exact ⟨le_rfl, fun u q hq => .inl hq⟩

variable (T : Timeline (lineSystem ref iso) (Line.Initial ref)) {m n q : Nat}

theorem timeline_inv (n : Nat) : Line.Inv ref (T.pool n).shared :=
  (holds_line (T.reachable n)).inv

/-- A place that has been left stays so. -/
theorem settled_mono (h : m ≤ n) (hq : q ∈ (T.pool m).shared.tab.chain.settled) :
    q ∈ (T.pool n).shared.tab.chain.settled := by
  have hgrows : Line.Grows ref (T.pool m).shared (T.pool n).shared :=
    Discipline.grows line_respected (fun s h => ⟨h.inv, fun t => ⟨h.place t, h.op t⟩⟩)
      (T.reachable m) (T.reaches h)
  exact hgrows.settled q hq

/-- A place is kept until it is left: the next state has a holder of it as
well, and there is no other. -/
theorem place_kept (hplace : (T.pool n).shared.place t = some q) :
    (T.pool (n + 1)).shared.place t = some q ∨
      q ∈ (T.pool (n + 1)).shared.tab.chain.settled := by
  rcases T.next n with h | ⟨m, hs⟩
  · rw [h]
    exact .inl hplace
  · obtain ⟨hnext, hold⟩ := step_chain hs
    have hlt := ((timeline_inv T n).places t q hplace).1
    rcases (timeline_inv T (n + 1)).holders q (hlt.trans_le hnext) with hset | ⟨u, hu⟩
    · exact .inr hset
    · rcases hold u q hu with hu' | heq
      · obtain rfl := (timeline_inv T n).distinct t u q hplace hu'
        exact .inl hu
      · omega

/-- At rest, a thread keeps its place. -/
theorem place_at_rest (hmn : m ≤ n) (hrest : ∀ k, m ≤ k → ¬T.Acts t k) :
    (T.pool n).shared.place t = (T.pool m).shared.place t := by
  induction hmn with
  | refl => rfl
  | @step n hmn ih =>
      rcases T.next n with h | ⟨m', hs⟩
      · rw [h]
        exact ih
      · have hno := hrest n hmn
        rw [← ih]
        generalize hp : T.pool n = p at hs
        generalize hp' : T.pool (n + 1) = p' at hs
        have hacts : ¬∃ m'', (m'' = .act t ∨ m'' = .unfold t) ∧
            System.Step (lineSystem ref iso) m'' p p' := by
          rw [← hp, ← hp']
          exact hno
        cases hs with
        | @act _ u _ _ _ _ ht hx =>
            refine exec_place hx ?_
            rintro rfl
            exact hacts ⟨_, .inl rfl, .act ht hx⟩
        | unfold ht => rfl
        | start ht hst =>
            obtain ⟨rfl, -⟩ := hst
            rfl
        | stop ht hst => exact hst.elim
        | env hst =>
            obtain ⟨sec, op, db, -, -, -, heq⟩ := hst
            rw [heq]

/-- Places that are all left some day are all left at one moment. -/
theorem exists_all_settled (h : ∀ q' < q, ∃ m, n ≤ m ∧
      q' ∈ (T.pool m).shared.tab.chain.settled) :
    ∃ m, n ≤ m ∧ ∀ q' < q, q' ∈ (T.pool m).shared.tab.chain.settled := by
  induction q with
  | zero => exact ⟨n, le_rfl, fun q' hq' => absurd hq' (Nat.not_lt_zero q')⟩
  | succ q ih =>
      obtain ⟨m₁, hm₁, hall⟩ := ih fun q' hq' => h q' (Nat.lt_succ_of_lt hq')
      obtain ⟨m₂, hm₂, hlast⟩ := h q (Nat.lt_succ_self q)
      refine ⟨max m₁ m₂, hm₁.trans (le_max_left m₁ m₂), fun q' hq' => ?_⟩
      rcases Nat.lt_succ_iff_lt_or_eq.mp hq' with hlt | rfl
      · exact settled_mono T (le_max_left m₁ m₂) (hall q' hlt)
      · exact settled_mono T (le_max_right m₁ m₂) hlast

/-- What a thread that has not ended waits for. -/
theorem canStep_or_waits {r : Async Unit} (ht : (T.pool n).threads t = some r)
    (hret : r ≠ .ret ()) : CanStep ref iso (T.pool n) t ∨
      ∃ place, (T.pool n).shared.place t = some place ∧
        ¬∀ q' < place, q' ∈ (T.pool n).shared.tab.chain.settled := by
  have hholds := holds_line (T.reachable n)
  refine (reachable_inLine (T.reachable n) t r ht).canStep hholds.inv ht hret fun x hx => ?_
  subst hx
  exact hholds.safe t _ ht

/-- **No place is held for ever.** -/
theorem place_is_left (hT : T.Fair) : ∀ {q n : Nat} {t : Tid},
    (T.pool n).shared.place t = some q →
      ∃ m, n ≤ m ∧ q ∈ (T.pool m).shared.tab.chain.settled := by
  intro q
  induction q using Nat.strong_induction_on with
  | _ q ih =>
      intro n t hplace
      by_contra hnever
      have hunsettled : ∀ m, n ≤ m → q ∉ (T.pool m).shared.tab.chain.settled :=
        fun m hm hq => hnever ⟨m, hm, hq⟩
      have hkept : ∀ m, n ≤ m → (T.pool m).shared.place t = some q := by
        intro m hm
        induction hm with
        | refl => exact hplace
        | @step m hm ih' =>
            exact (place_kept T ih').resolve_right (hunsettled _ (Nat.le_succ_of_le hm))
      -- the places before it are left by then
      obtain ⟨m₁, hm₁, hearlier⟩ : ∃ m, n ≤ m ∧
          ∀ q' < q, q' ∈ (T.pool m).shared.tab.chain.settled := by
        refine exists_all_settled T fun q' hq' => ?_
        have hlt := hq'.trans ((timeline_inv T n).places t q hplace).1
        rcases (timeline_inv T n).holders q' hlt with hset | ⟨u, hu⟩
        · exact ⟨n, le_rfl, hset⟩
        · exact ih q' hq' hu
      obtain ⟨m₂, hm₂, -, hunable⟩ := loose_line.rests_unable (fun _ _ _ h => h) T hT t m₁
      refine hunable fun k hk => ?_
      have hnk := hm₁.trans (hm₂.trans hk)
      have hholds := holds_line (T.reachable k)
      cases hthread : (T.pool k).threads t with
      | none =>
          have hnone := (hholds.idle t hthread).1
          rw [hkept k hnk] at hnone
          cases hnone
      | some r =>
          have hret : r ≠ .ret () := by
            rintro rfl
            have hdone : (T.pool k).shared.Done ref t := hholds.safe t _ hthread
            have hnone := hdone.1
            rw [hkept k hnk] at hnone
            cases hnone
          rcases canStep_or_waits T hthread hret with h | ⟨place, hplace', hnot⟩
          · exact h
          · rw [hkept k hnk, Option.some.injEq] at hplace'
            subst hplace'
            exact absurd (fun q' hq' => settled_mono T (hm₂.trans hk) (hearlier q' hq')) hnot

/-- **Every operation of a fair run ends.** -/
theorem operation_ends (hT : T.Fair) {r : Async Unit} (ht : (T.pool n).threads t = some r) :
    ∃ m, n ≤ m ∧ (T.pool m).threads t = some (.ret ()) := by
  obtain ⟨m, hm, hrest, hunable⟩ := loose_line.rests_unable (fun _ _ _ h => h) T hT t n
  obtain ⟨r', ht'⟩ := T.present hm ht
  by_cases hret : r' = .ret ()
  · exact ⟨m, hm, hret ▸ ht'⟩
  · refine absurd (fun k hk => ?_) hunable
    have hstays := T.stays hk (fun _ _ _ h => h) ht' fun k' h₁ _ => hrest k' h₁
    rcases canStep_or_waits T hstays hret with h | ⟨place, hplace, -⟩
    · exact h
    · -- it would have left its place while it was at rest
      obtain ⟨l, hl, hset⟩ := place_is_left T hT hplace
      have hsame := place_at_rest T hl fun k' hk' => hrest k' (hk.trans hk')
      exact absurd hset ((timeline_inv T l).places t place (hsame.trans hplace)).2

end Fairness

section Beyond

/-! ## A mailbox beyond the safe integers -/

/-- `validatePage` refuses a page that begins beyond the safe integers. -/
theorem validatePage_beyond {iso : Server.Instant → Client.Timestamp} {db : Server.Db}
    {b : Server.DeviceMailbox} {after limit : Nat} {scope : InboxScope} (hw : Server.Wf db)
    (hb : b ∈ db.mailboxes) (hlimit : 1 ≤ limit) (hafter : JsNumber.maxSafeInteger ≤ after)
    (hlast : after < b.last_seq) :
    Client.validatePage scope after (servedPage iso b.device_id after limit db) ≠ .ok () := by
  intro hvalid
  obtain ⟨expected, hcheck, -⟩ := Client.validatePage_ok hvalid
  have hseqs := @servedPage_seqs iso db b after limit hw hb
  obtain ⟨k, hk⟩ : ∃ k, min limit (b.last_seq - after) = k + 1 :=
    ⟨min limit (b.last_seq - after) - 1, by omega⟩
  rw [hk, List.range'_succ, List.map_cons] at hseqs
  cases hes : (servedPage iso b.device_id after limit db).envelopes with
  | nil =>
      rw [hes] at hseqs
      cases hseqs
  | cons e rest =>
      rw [hes, List.map_cons, List.cons.injEq] at hseqs
      have hexceeds : e.mailbox_seq.isSafeInteger = false := by
        rw [hseqs.1]
        simp only [JsNumber.isSafeInteger, decide_eq_false_iff_not]
        omega
      rw [hes, Client.checkEnvelopes, if_pos (.inr (.inl hexceeds))] at hcheck
      cases hcheck

def nthId (n : Nat) : String :=
  (n : ℤ).repr

def nthMessage (n : Nat) : Server.Message :=
  ⟨nthId n, "c1", "bob", laptopScope.deviceId, nthId n, n, 0⟩

def nthEnvelope (n : Nat) : Server.Envelope :=
  { firstEnvelope with
    id := nthId n
    message_id := nthId n
    mailbox_seq := n }

/-- The server after `n` messages. -/
def longServer (n : Nat) : Server.Db :=
  { firstServer with
    mailboxes := [⟨phoneScope.deviceId, n⟩, ⟨laptopScope.deviceId, 0⟩]
    chats := [⟨"c1", n, "DIRECT"⟩]
    messages := (List.range' 1 n).map nthMessage
    envelopes := (List.range' 1 n).map nthEnvelope }

theorem nthId_injective : Function.Injective nthId := fun _ _ h =>
  Int.ofNat_inj.mp (Json.toList_repr_injective (congrArg String.toList h))

theorem nodup_nth {α β : Type} {f : α → β} {g : Nat → α} (n : Nat)
    (h : Function.Injective (f ∘ g)) : (((List.range' 1 n).map g).map f).Nodup := by
  rw [List.map_map]
  exact (List.nodup_range' ..).map h

theorem longServer_uniqueKeys (n : Nat) : (longServer n).uniqueKeys := by
  obtain ⟨u₁, u₂, u₃, u₄, u₅, u₆, -, -, -, -, -, -, u₁₃, u₁₄, u₁₅, u₁₆, u₁₇, u₁₈⟩ :=
    firstLine_initial.wf.unique
  refine ⟨u₁, u₂, u₃, u₄, u₅, u₆, nodup_nth n nthId_injective, ?_, ?_,
    nodup_nth n nthId_injective, ?_, ?_, u₁₃, u₁₄, u₁₅, u₁₆, u₁₇, u₁₈⟩
  · exact nodup_nth n fun k l h => (Prod.mk.inj h).2
  · exact nodup_nth n fun k l h => nthId_injective (Prod.mk.inj h).2
  · exact nodup_nth n fun k l h => nthId_injective (Prod.mk.inj h).1
  · exact nodup_nth n fun k l h => (Prod.mk.inj h).2

theorem longServer_wf (n : Nat) : Server.Wf (longServer n) where
  unique := longServer_uniqueKeys n
  envelope_mailbox := by
    intro e he
    obtain ⟨k, -, rfl⟩ := List.mem_map.mp he
    exact List.mem_cons_self
  envelope_message := by
    intro e he
    obtain ⟨k, hk, rfl⟩ := List.mem_map.mp he
    exact List.mem_map.mpr ⟨nthMessage k, List.mem_map_of_mem hk, rfl⟩
  message_chat := by
    intro m hm
    obtain ⟨k, -, rfl⟩ := List.mem_map.mp hm
    exact List.mem_cons_self
  device_user := firstLine_initial.wf.device_user
  device_mailbox := firstLine_initial.wf.device_mailbox
  session_device := firstLine_initial.wf.session_device
  history_session := firstLine_initial.wf.history_session
  mailbox_seqs := by
    have hphone : ∀ l : List Nat, ((l.map nthEnvelope).filter fun e =>
        decide (e.recipient_device_id = phoneScope.deviceId)).map (·.mailbox_seq) = l := by
      intro l
      rw [List.filter_eq_self.mpr, List.map_map]
      · exact List.map_id l
      · rintro e he
        obtain ⟨k, -, rfl⟩ := List.mem_map.mp he
        exact decide_eq_true rfl
    have hlaptop : ∀ l : List Nat, ((l.map nthEnvelope).filter fun e =>
        decide (e.recipient_device_id = laptopScope.deviceId)).map (·.mailbox_seq) = [] := by
      intro l
      rw [List.filter_eq_nil_iff.mpr]
      · rfl
      · rintro e he
        obtain ⟨k, -, rfl⟩ := List.mem_map.mp he
        have hne : phoneScope.deviceId ≠ laptopScope.deviceId := by decide
        exact fun h => hne (of_decide_eq_true h)
    intro b hb
    rcases List.mem_cons.mp hb with rfl | hb
    · unfold Server.mailboxSeqs Counted
      exact (hphone (List.range' 1 n)).symm ▸ List.Perm.refl _
    · obtain rfl := List.mem_singleton.mp hb
      unfold Server.mailboxSeqs Counted
      exact (hlaptop (List.range' 1 n)).symm ▸ List.Perm.refl _
  chat_seqs := by
    have hchat : ∀ l : List Nat, ((l.map nthMessage).filter fun m =>
        decide (m.chat_id = "c1")).map (·.chat_seq) = l := by
      intro l
      rw [List.filter_eq_self.mpr, List.map_map]
      · exact List.map_id l
      · rintro m hm
        obtain ⟨k, -, rfl⟩ := List.mem_map.mp hm
        exact decide_eq_true rfl
    intro c hc
    obtain rfl := List.mem_singleton.mp hc
    unfold Server.chatSeqs Counted
    exact (hchat (List.range' 1 n)).symm ▸ List.Perm.refl _

/-- A gap-free mailbox with a page that `validatePage` refuses. -/
def Refused (after : Nat) (db : Server.Db) : Prop :=
  Server.Wf db ∧ Server.HasMailbox phoneScope.deviceId db ∧
    after ≤ Server.lastSeq phoneScope.deviceId db ∧
      Client.validatePage phoneScope after (servedPage newYear phoneScope.deviceId after 1 db) ≠
        .ok ()

theorem refused_longServer {n : Nat} (h : JsNumber.maxSafeInteger ≤ n) :
    Refused n (longServer (n + 1)) := by
  have hw := longServer_wf (n + 1)
  have hb : (⟨phoneScope.deviceId, n + 1⟩ : Server.DeviceMailbox) ∈
      (longServer (n + 1)).mailboxes := List.mem_cons_self
  have hrefused := @validatePage_beyond newYear _ _ n 1 phoneScope hw hb le_rfl h
    (Nat.lt_succ_self n)
  refine ⟨hw, List.mem_cons_self, ?_, hrefused⟩
  rw [Server.lastSeq_eq hw hb]
  exact Nat.le_succ n

/-- `Number.MAX_SAFE_INTEGER`. -/
def lastSafe : Nat := 9007199254740991

/-- The page after the largest safe integer is refused. -/
theorem page_beyond_is_refused : Refused lastSafe (longServer (lastSafe + 1)) :=
  refused_longServer (by unfold JsNumber.maxSafeInteger lastSafe; omega)

end Beyond

section Wedge

variable {ref : ScopeRef} {iso : Server.Instant → Client.Timestamp}

/-- A synchronization that has ended while the mailbox has not grown has
brought the cursor to its end. -/
theorem cursor_at_end {p : Pool Call Call.Answer JsError Line}
    (hp : System.Reachable (lineSystem ref iso) (Line.Initial ref) p) {t : Tid}
    (ht : p.threads t = some (.ret ())) (hop : p.shared.op t = some .synchronize)
    (hsame : Server.lastSeq ref.scope.deviceId p.shared.server =
      Server.lastSeq ref.scope.deviceId (p.shared.began t)) :
    p.shared.cursor ref = Server.lastSeq ref.scope.deviceId p.shared.server := by
  have hholds := holds_line hp
  have hdone : p.shared.Done ref t := hholds.safe t _ ht
  have hreached := hdone.2 hop
  rw [← hsame] at hreached
  exact le_antisymm hholds.inv.inStep.behind hreached

/-- **Main result.**  Every page of a gap-free mailbox is accepted as long as
its last sequence is a safe integer; so no operation ever throws, in a fair run
every operation ends, and a synchronization that has ended while the mailbox
has not grown has stored all of it. -/
theorem sync_is_never_wedged (ref : ScopeRef) (iso : Server.Instant → Client.Timestamp) :
    (∀ db, Server.Wf db → Server.HasMailbox ref.scope.deviceId db →
      (Server.lastSeq ref.scope.deviceId db : ℤ) ≤ JsNumber.maxSafeInteger →
      ∀ after limit, after ≤ Server.lastSeq ref.scope.deviceId db → 1 ≤ limit → limit ≤ 100 →
        Client.validatePage ref.scope after
          (servedPage iso ref.scope.deviceId after limit db) = .ok ()) ∧
    ∀ T : Timeline (lineSystem ref iso) (Line.Initial ref),
      (∀ n t x, (T.pool n).threads t ≠ some (.throw x)) ∧
      (T.Fair → ∀ n t r, (T.pool n).threads t = some r →
        ∃ m, n ≤ m ∧ (T.pool m).threads t = some (.ret ())) ∧
      ∀ n t, (T.pool n).threads t = some (.ret ()) →
        (T.pool n).shared.op t = some .synchronize →
        Server.lastSeq ref.scope.deviceId (T.pool n).shared.server =
          Server.lastSeq ref.scope.deviceId ((T.pool n).shared.began t) →
        (T.pool n).shared.cursor ref =
            Server.lastSeq ref.scope.deviceId (T.pool n).shared.server ∧
          ∀ k : ℤ, 1 ≤ k → k ≤ Server.lastSeq ref.scope.deviceId (T.pool n).shared.server →
            ∃ id x, envelopeAt ref.scope id (T.pool n).shared.inbox.envelopes = some x ∧
              x.mailbox_seq = .integer k := by
  refine ⟨fun db hw hmailbox hsafe after limit hafter hlimit _ => ?_,
    fun T => ⟨fun n t x ht => ?_, fun hT n t r ht => operation_ends T hT ht,
      fun n t ht hop hsame => ?_⟩⟩
  · obtain ⟨b, hb, hid⟩ := List.mem_map.mp hmailbox
    rw [← hid, Server.lastSeq_eq hw hb] at hafter hsafe
    rw [← hid]
    exact validatePage_servedPage hw hb hid.symm hafter hlimit hsafe
  · exact (holds_line (T.reachable n)).safe t _ ht
  · have hcursor := cursor_at_end (T.reachable n) ht hop hsame
    refine ⟨hcursor, fun k h₁ h₂ => ?_⟩
    exact (timeline_inv T n).inStep.complete k h₁ (h₂.trans hcursor.ge)

/-- A device that has synchronized with the first envelope. -/
theorem sync_is_never_wedged_first :
    Client.validatePage phoneScope 0 (servedPage newYear phoneScope.deviceId 0 100 firstServer) =
        .ok () ∧
      ∃ T : Timeline (lineSystem phoneRef newYear) (Line.Initial phoneRef), T.Fair ∧
        (∃ m, (T.pool m).threads 0 = some (.ret ())) ∧ (T.pool 0).shared.cursor phoneRef = 1 ∧
          ∃ id x, envelopeAt phoneScope id (T.pool 0).shared.inbox.envelopes = some x ∧
            x.mailbox_seq = .integer 1 := by
  obtain ⟨hpages, hruns⟩ := sync_is_never_wedged phoneRef newYear
  obtain ⟨p, hp, hret, hop, hbegan, hserver, hnone⟩ := reachable_synchronized
  have hlast : Server.lastSeq phoneRef.scope.deviceId firstServer = 1 := by decide
  have hfair : (Timeline.resting hp).Fair := by
    intro t n henabled
    obtain ⟨r, hr, hne⟩ := (henabled n le_rfl).running
    have hthread : p.threads t = some r := hr
    by_cases ht : t = 0
    · subst ht
      exact absurd (Option.some.inj (hthread.symm.trans hret)) hne
    · rw [hnone t ht] at hthread
      cases hthread
  obtain ⟨-, hends, hend⟩ := hruns (Timeline.resting hp)
  obtain ⟨m, -, hm⟩ := hends hfair 0 0 _ hret
  have hsame : Server.lastSeq phoneRef.scope.deviceId p.shared.server =
      Server.lastSeq phoneRef.scope.deviceId (p.shared.began 0) := by
    rw [hbegan, hserver]
  obtain ⟨hcursor, hstored⟩ := hend 0 0 hret hop hsame
  have hone : Server.lastSeq phoneRef.scope.deviceId
      ((Timeline.resting hp).pool 0).shared.server = 1 := (congrArg _ hserver).trans hlast
  rw [hone] at hcursor hstored
  refine ⟨hpages firstServer firstLine_initial.wf firstLine_initial.mailbox ?_ 0 100 ?_ ?_ ?_,
    Timeline.resting hp, hfair, ⟨m, hm⟩, hcursor, hstored 1 le_rfl le_rfl⟩
  · rw [hlast]
    decide
  · exact Nat.zero_le _
  · decide
  · exact le_rfl

end Wedge

end EndToEnd
end SecureMessenger

import SecureMessenger.Client.SyncContract
import SecureMessenger.EndToEnd.Wire
import SecureMessenger.Server.Effects

/-!
# Pages of the mailbox

What `MessageService.mailbox` answers on a well-formed database: the envelopes
that follow the given position, without a gap, and whether there are more.
`SyncManager.validatePage` accepts every such page.
-/

namespace SecureMessenger
namespace EndToEnd

open Lib
open Client (JsNumber InboxScope)

section Rows

variable {db : Server.Db} {d : Server.UUID} {b : Server.DeviceMailbox}

/-- The envelopes of a device after a position, in the order of the page. -/
def laterEnvelopes (d : Server.UUID) (after : Nat) (db : Server.Db) : List Server.Envelope :=
  (db.envelopes.filter fun e =>
    decide (e.recipient_device_id = d ∧ after < e.mailbox_seq)).insertionSort
      fun a b => a.mailbox_seq ≤ b.mailbox_seq

theorem mem_laterEnvelopes {after : Nat} {e : Server.Envelope} :
    e ∈ laterEnvelopes d after db ↔
      e ∈ db.envelopes ∧ e.recipient_device_id = d ∧ after < e.mailbox_seq := by
  simp [laterEnvelopes, List.mem_insertionSort]

theorem filter_range' (n after : Nat) :
    (List.range' 1 n).filter (fun k => decide (after < k)) =
      List.range' (after + 1) (n - after) := by
  induction n with
  | zero => simp
  | succ n ih =>
      rw [List.range'_concat, List.filter_append, ih, Nat.one_mul]
      by_cases h : after < 1 + n
      · have hsub : n + 1 - after = (n - after) + 1 := by omega
        have heq : 1 + n = after + 1 + 1 * (n - after) := by omega
        rw [List.filter_singleton, hsub, List.range'_concat, ← heq]
        simp [h]
      · have hsub : n + 1 - after = n - after := by omega
        rw [List.filter_singleton, hsub]
        simp only [h, decide_false, cond_false, List.append_nil]

/-- The sequences of the envelopes after a position. -/
theorem laterEnvelopes_seqs (hw : Server.Wf db) (hb : b ∈ db.mailboxes) (after : Nat) :
    (laterEnvelopes b.device_id after db).map (·.mailbox_seq) =
      List.range' (after + 1) (b.last_seq - after) := by
  have hperm : ((laterEnvelopes b.device_id after db).map (·.mailbox_seq)).Perm
      (List.range' (after + 1) (b.last_seq - after)) := by
    rw [← filter_range']
    have h₁ : ((laterEnvelopes b.device_id after db).map (·.mailbox_seq)).Perm
        ((db.envelopes.filter fun e => decide (e.recipient_device_id = b.device_id ∧
          after < e.mailbox_seq)).map (·.mailbox_seq)) :=
      (List.perm_insertionSort _ _).map _
    have h₂ : (db.envelopes.filter fun e => decide (e.recipient_device_id = b.device_id ∧
          after < e.mailbox_seq)).map (·.mailbox_seq) =
        (Server.mailboxSeqs b.device_id db).filter fun k => decide (after < k) := by
      rw [Server.mailboxSeqs, List.filter_map, List.filter_filter]
      congr 1
      refine List.filter_congr fun e _ => ?_
      simp [Bool.and_comm]
    rw [h₂] at h₁
    exact h₁.trans ((hw.mailbox_seqs b hb).filter _)
  refine hperm.eq_of_sortedLE ?_ ?_
  · have hsorted := List.pairwise_insertionSort
      (fun a b : Server.Envelope => a.mailbox_seq ≤ b.mailbox_seq)
      (db.envelopes.filter fun e =>
        decide (e.recipient_device_id = b.device_id ∧ after < e.mailbox_seq))
    exact (List.pairwise_map.mpr hsorted).sortedLE
  · exact (List.pairwise_le_range' _).sortedLE

/-- Every envelope comes with its message. -/
theorem messagesOf (hw : Server.Wf db) {e : Server.Envelope} (he : e ∈ db.envelopes) :
    ∃ m ∈ db.messages, m.id = e.message_id ∧
      (db.messages.filter fun m => decide (m.id = e.message_id)) = [m] := by
  obtain ⟨m, hm, hid⟩ := List.mem_map.mp (hw.envelope_message e he)
  refine ⟨m, hm, hid, ?_⟩
  rw [← hid]
  exact filter_key_of_mem hw.unique.messages hm

/-- The rows of a page, without their messages. -/
theorem mailboxRows_envelopes (hw : Server.Wf db) (d : Server.UUID) (after limit : Nat) :
    (db.mailboxRows d after limit).map (·.envelope) =
      (laterEnvelopes d after db).take (limit + 1) := by
  have hflat : ∀ l : List Server.Envelope, (∀ e ∈ l, e ∈ db.envelopes) →
      (l.flatMap fun e => (db.messages.filter fun m => decide (m.id = e.message_id)).map
        fun m => (⟨e, m⟩ : Server.MailboxEntry)).map (·.envelope) = l := by
    intro l hl
    induction l with
    | nil => rfl
    | cons e rest ih =>
        obtain ⟨m, -, -, hm⟩ := messagesOf hw (hl e List.mem_cons_self)
        rw [List.flatMap_cons, List.map_append,
          ih fun e' he' => hl e' (List.mem_cons_of_mem _ he'), hm]
        rfl
  unfold Server.Db.mailboxRows
  rw [List.map_take]
  exact congrArg (List.take (limit + 1))
    (hflat (laterEnvelopes d after db) fun e he => (mem_laterEnvelopes.mp he).1)

/-- An entry of a page: an envelope of the device and its message. -/
structure EntryOf (db : Server.Db) (d : Server.UUID) (entry : Server.MailboxEntry) : Prop where
  envelope : entry.envelope ∈ db.envelopes
  device : entry.envelope.recipient_device_id = d
  message : entry.message ∈ db.messages
  message_id : entry.message.id = entry.envelope.message_id

theorem entryOf_of_mem {after limit : Nat} {entry : Server.MailboxEntry}
    (h : entry ∈ db.mailboxRows d after limit) : EntryOf db d entry := by
  unfold Server.Db.mailboxRows at h
  obtain ⟨e, he, hentry⟩ := List.mem_flatMap.mp (List.mem_of_mem_take h)
  obtain ⟨m, hm, rfl⟩ := List.mem_map.mp hentry
  obtain ⟨hm, hid⟩ := List.mem_filter.mp hm
  obtain ⟨he, hd, -⟩ := mem_laterEnvelopes.mp he
  exact ⟨he, hd, hm, of_decide_eq_true hid⟩

end Rows

/-- The page the server answers, as the client receives it. -/
def servedPage (iso : Server.Instant → Client.Timestamp) (d : Server.UUID) (after limit : Nat)
    (db : Server.Db) : Client.MailboxPage :=
  mailboxPage iso (Server.mailboxPage (db.mailboxRows d after limit) after limit)

section Pages

variable {iso : Server.Instant → Client.Timestamp} {db : Server.Db} {b : Server.DeviceMailbox}
  {after limit : Nat}

theorem entries_seqs (hw : Server.Wf db) (hb : b ∈ db.mailboxes) :
    ((db.mailboxRows b.device_id after limit).take limit).map (·.envelope.mailbox_seq) =
      List.range' (after + 1) (min limit (b.last_seq - after)) := by
  have hrows := mailboxRows_envelopes hw b.device_id after limit
  have hseqs := laterEnvelopes_seqs hw hb after
  calc ((db.mailboxRows b.device_id after limit).take limit).map (·.envelope.mailbox_seq)
      = (((db.mailboxRows b.device_id after limit).map (·.envelope)).take limit).map
          (·.mailbox_seq) := by
        rw [← List.map_take, List.map_map]
        rfl
    _ = ((laterEnvelopes b.device_id after db).map (·.mailbox_seq)).take limit := by
        rw [hrows, List.take_take, ← List.map_take]
        congr 2
        omega
    _ = List.range' (after + 1) (min limit (b.last_seq - after)) := by
        rw [hseqs]
        rcases le_total limit (b.last_seq - after) with h | h
        · rw [List.take_range'_of_length_ge h, min_eq_left h]
        · rw [List.take_range'_of_length_le h, min_eq_right h]

/-- The page goes on exactly where the position is. -/
theorem servedPage_seqs (hw : Server.Wf db) (hb : b ∈ db.mailboxes) :
    (servedPage iso b.device_id after limit db).envelopes.map (·.mailbox_seq) =
      (List.range' (after + 1) (min limit (b.last_seq - after))).map
        fun n : Nat => JsNumber.integer n := by
  rw [← entries_seqs hw hb, List.map_map]
  simp only [servedPage, mailboxPage, Server.mailboxPage, List.map_map]
  rfl

theorem servedPage_next (hw : Server.Wf db) (hb : b ∈ db.mailboxes) :
    (servedPage iso b.device_id after limit db).nextSeq =
      .integer ((after + min limit (b.last_seq - after) : Nat) : ℤ) := by
  have hlast : ((db.mailboxRows b.device_id after limit).take limit).getLast?.map
      (·.envelope.mailbox_seq) =
        (List.range' (after + 1) (min limit (b.last_seq - after))).getLast? := by
    rw [← entries_seqs hw hb, List.getLast?_map]
  simp only [servedPage, mailboxPage, Server.mailboxPage, hlast, List.getLast?_range']
  split
  · rename_i h
    simp [h]
  · rename_i h
    simp only [Option.getD_some]
    congr 2
    omega

theorem servedPage_more (hw : Server.Wf db) (hb : b ∈ db.mailboxes) :
    (servedPage iso b.device_id after limit db).hasMore = decide (limit < b.last_seq - after) := by
  have hlen : (db.mailboxRows b.device_id after limit).length =
      min (limit + 1) (b.last_seq - after) := by
    have h₁ := congrArg List.length (mailboxRows_envelopes hw b.device_id after limit)
    have h₂ := congrArg List.length (laterEnvelopes_seqs hw hb after)
    simp only [List.length_map, List.length_take, List.length_range'] at h₁ h₂
    rw [h₁, h₂]
  simp only [servedPage, mailboxPage, Server.mailboxPage, hlen]
  congr 1
  simp only [gt_iff_lt, eq_iff_iff]
  omega

/-- Where an envelope of the page comes from. -/
theorem servedPage_mem {d : Server.UUID} {e : Client.MailboxEnvelope}
    (he : e ∈ (servedPage iso d after limit db).envelopes) :
    ∃ entry, e = mailboxEnvelope iso entry ∧ EntryOf db d entry := by
  obtain ⟨entry, hentry, rfl⟩ := List.mem_map.mp he
  exact ⟨entry, rfl, entryOf_of_mem (List.mem_of_mem_take hentry)⟩

end Pages

/-- A list of envelopes that counts on from `cursor`. -/
theorem checkEnvelopes_range {deviceId : String} {es : List Client.MailboxEnvelope} :
    ∀ {cursor k : Nat}, (∀ e ∈ es, e.recipient_device_id = deviceId) →
      es.map (·.mailbox_seq) = (List.range' (cursor + 1) k).map (fun n : Nat => .integer n) →
      ((cursor + k : Nat) : ℤ) ≤ JsNumber.maxSafeInteger →
      Client.checkEnvelopes deviceId cursor es = .ok ((cursor + k : Nat) : ℤ) := by
  induction es with
  | nil =>
      intro cursor k _ hseqs _
      obtain rfl : k = 0 := by
        have := congrArg List.length hseqs
        simpa using this.symm
      rfl
  | cons e rest ih =>
      intro cursor k hdevice hseqs hsafe
      cases k with
      | zero => simp at hseqs
      | succ k =>
          rw [List.range'_succ, List.map_cons, List.map_cons, List.cons.injEq] at hseqs
          obtain ⟨hseq, hrest⟩ := hseqs
          have hok : ¬(e.recipient_device_id ≠ deviceId ∨ e.mailbox_seq.isSafeInteger = false ∨
              e.mailbox_seq ≠ .integer ((cursor : ℤ) + 1)) := by
            rw [hseq]
            simp only [hdevice e List.mem_cons_self, ne_eq, not_true_eq_false, false_or, not_or,
              not_not, JsNumber.isSafeInteger, Bool.not_eq_false, decide_eq_true_eq]
            unfold JsNumber.maxSafeInteger at hsafe ⊢
            refine ⟨⟨by omega, by omega⟩, by simp⟩
          rw [Client.checkEnvelopes, if_neg hok]
          have hcast : ((cursor : ℤ) + 1) = ((cursor + 1 : Nat) : ℤ) := by simp
          have hsum : cursor + (k + 1) = cursor + 1 + k := by omega
          rw [hcast, hsum]
          refine ih (fun e' he' => hdevice e' (List.mem_cons_of_mem _ he')) hrest ?_
          rw [← hsum]
          exact hsafe

/-- **Pages are valid.**  `validatePage` accepts what `mailbox` answers. -/
theorem validatePage_servedPage {iso : Server.Instant → Client.Timestamp} {db : Server.Db}
    {b : Server.DeviceMailbox} {after limit : Nat} {scope : InboxScope} (hw : Server.Wf db)
    (hb : b ∈ db.mailboxes) (hscope : scope.deviceId = b.device_id) (hafter : after ≤ b.last_seq)
    (hlimit : 1 ≤ limit) (hsafe : (b.last_seq : ℤ) ≤ JsNumber.maxSafeInteger) :
    Client.validatePage scope after (servedPage iso b.device_id after limit db) = .ok () := by
  have hcheck : Client.checkEnvelopes scope.deviceId after
      (servedPage iso b.device_id after limit db).envelopes =
        .ok ((after + min limit (b.last_seq - after) : Nat) : ℤ) := by
    refine checkEnvelopes_range ?_ (servedPage_seqs hw hb) ?_
    · intro e he
      obtain ⟨entry, rfl, hentry⟩ := servedPage_mem he
      rw [hscope]
      exact hentry.device
    · refine le_trans ?_ hsafe
      omega
  unfold Client.validatePage
  rw [hcheck]
  simp only [bind, Except.bind, servedPage_next hw hb, servedPage_more hw hb, ne_eq,
    not_true_eq_false, false_or, decide_eq_true_eq]
  rw [if_neg]
  · rfl
  · omega

end EndToEnd
end SecureMessenger

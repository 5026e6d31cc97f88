import SecureMessenger.Server.Effects

/-!
# How a mailbox grows

Seen from one device the server is a numbered list of envelopes: a committed
transaction may change what an envelope still carries and append new
envelopes, but keeps the keys and the number of every envelope.
-/

namespace SecureMessenger
namespace Server

open Lib

/-- The counter of a device. -/
def lastSeq (device_id : UUID) (db : Db) : Nat :=
  ((row (·.device_id) device_id db.mailboxes).map (·.last_seq)).getD 0

/-- The device is registered. -/
def HasMailbox (device_id : UUID) (db : Db) : Prop :=
  device_id ∈ db.mailboxes.map (·.device_id)

/-- Two versions of one envelope row. -/
structure SameEnvelope (e e' : Envelope) : Prop where
  id : e'.id = e.id
  message_id : e'.message_id = e.message_id
  device : e'.recipient_device_id = e.recipient_device_id
  seq : e'.mailbox_seq = e.mailbox_seq

theorem SameEnvelope.refl (e : Envelope) : SameEnvelope e e :=
  ⟨rfl, rfl, rfl, rfl⟩

theorem SameEnvelope.trans {e₁ e₂ e₃ : Envelope} (h : SameEnvelope e₁ e₂)
    (h' : SameEnvelope e₂ e₃) : SameEnvelope e₁ e₃ :=
  ⟨h'.id.trans h.id, h'.message_id.trans h.message_id, h'.device.trans h.device,
    h'.seq.trans h.seq⟩

/-- `db'` is a later state of the mailboxes. -/
structure Follows (db db' : Db) : Prop where
  envelopes : ∀ e ∈ db.envelopes, ∃ e' ∈ db'.envelopes, SameEnvelope e e'
  messages : ∀ m ∈ db.messages, m ∈ db'.messages
  mailboxes : ∀ b ∈ db.mailboxes, ∃ b' ∈ db'.mailboxes,
    b'.device_id = b.device_id ∧ b.last_seq ≤ b'.last_seq

theorem Follows.refl (db : Db) : Follows db db :=
  ⟨fun e he => ⟨e, he, SameEnvelope.refl e⟩, fun _ h => h, fun b hb => ⟨b, hb, rfl, le_rfl⟩⟩

theorem Follows.trans {db₁ db₂ db₃ : Db} (h : Follows db₁ db₂) (h' : Follows db₂ db₃) :
    Follows db₁ db₃ where
  envelopes := by
    intro e he
    obtain ⟨e', he', hs⟩ := h.envelopes e he
    obtain ⟨e'', he'', hs'⟩ := h'.envelopes e' he'
    exact ⟨e'', he'', hs.trans hs'⟩
  messages := fun m hm => h'.messages m (h.messages m hm)
  mailboxes := by
    intro b hb
    obtain ⟨b', hb', hid, hle⟩ := h.mailboxes b hb
    obtain ⟨b'', hb'', hid', hle'⟩ := h'.mailboxes b' hb'
    exact ⟨b'', hb'', hid'.trans hid, hle.trans hle'⟩

/-- A transaction that leaves the mailboxes alone. -/
theorem Follows.of_eq {db db' : Db} (he : db'.envelopes = db.envelopes)
    (hm : db'.messages = db.messages) (hb : db'.mailboxes = db.mailboxes) : Follows db db' := by
  constructor
  · rw [he]
    exact (Follows.refl db).envelopes
  · rw [hm]
    exact (Follows.refl db).messages
  · rw [hb]
    exact (Follows.refl db).mailboxes

theorem follows_updateEnvelopes {f : Envelope → Envelope} (hf : KeepsKeys f)
    (p : Envelope → Bool) (db : Db) : Follows db (db.updateEnvelopes p f) :=
  { Follows.refl db with
    envelopes := fun e he => ⟨_, List.mem_map_of_mem he,
      (hf.ite p).id e, (hf.ite p).message_id e, (hf.ite p).device e, (hf.ite p).seq e⟩ }

theorem follows_store {principal : Principal} {request : SendMessageRequest} {db : Db}
    (hw : Wf db) (a : Accepted principal request db) : Follows db a.store where
  envelopes := fun e he => ⟨e, List.mem_append_left _ he, SameEnvelope.refl e⟩
  messages := fun m hm => List.mem_append_left _ hm
  mailboxes := by
    intro b hb
    refine ⟨bumpMailbox a.mailboxes b, List.mem_map_of_mem hb, bumpMailbox_id _ _, ?_⟩
    unfold bumpMailbox
    split
    · rename_i b' hrow
      -- the row was read under its lock, so it is the row itself
      have hb' : b' = b := by
        have h₁ := a.mailbox_rows b' (row_mem hrow)
        rw [row_key hrow, row_of_mem hw.unique.mailboxes hb, Option.some.injEq] at h₁
        exact h₁.symm
      rw [hb']
      exact Nat.le_succ _
    · exact le_rfl

/-- Every committed transaction lets the mailboxes grow. -/
theorem Effect.follows {sec : Security} {op : Op} {db db' : Db} (h : Effect sec op db db')
    (hw : Wf db) : Follows db db' := by
  cases h with
  | nothing => exact Follows.refl _
  | purge p now => exact follows_updateEnvelopes (keepsKeys_purged _) _ _
  | acknowledge => exact follows_updateEnvelopes (keepsKeys_acknowledged _) _ _
  | send a => exact follows_store hw a
  | advance a => exact Follows.of_eq a.tables.envelopes a.tables.messages a.tables.mailboxes
  | openDirectChat => exact Follows.of_eq rfl rfl rfl
  | register =>
      exact { Follows.refl db with
        mailboxes := fun b hb => ⟨b, List.mem_append_left _ hb, rfl, le_rfl⟩ }
  | login => exact Follows.of_eq rfl rfl rfl
  | rotate => exact Follows.of_eq rfl rfl rfl
  | revoke => exact Follows.of_eq rfl rfl rfl
  | revokeDevice => exact Follows.of_eq rfl rfl rfl

section Counters

variable {db db' : Db} {d : UUID}

theorem lastSeq_eq (hw : Wf db) {b : DeviceMailbox} (hb : b ∈ db.mailboxes) :
    lastSeq b.device_id db = b.last_seq := by
  unfold lastSeq
  rw [row_of_mem hw.unique.mailboxes hb]
  rfl

theorem Follows.hasMailbox (h : Follows db db') (hd : HasMailbox d db) : HasMailbox d db' := by
  obtain ⟨b, hb, rfl⟩ := List.mem_map.mp hd
  obtain ⟨b', hb', hid, -⟩ := h.mailboxes b hb
  exact List.mem_map.mpr ⟨b', hb', hid⟩

theorem Follows.lastSeq_le (h : Follows db db') (hw : Wf db) (hw' : Wf db')
    (hd : HasMailbox d db) : lastSeq d db ≤ lastSeq d db' := by
  obtain ⟨b, hb, rfl⟩ := List.mem_map.mp hd
  obtain ⟨b', hb', hid, hle⟩ := h.mailboxes b hb
  have h₁ := lastSeq_eq hw hb
  have h₂ := lastSeq_eq hw' hb'
  rw [hid] at h₂
  omega

/-- The numbers of a mailbox are exactly `1, ..., last_seq`. -/
theorem seq_bounds (hw : Wf db) {e : Envelope} (he : e ∈ db.envelopes)
    (hd : e.recipient_device_id = d) : 1 ≤ e.mailbox_seq ∧ e.mailbox_seq ≤ lastSeq d db := by
  obtain ⟨b, hb, hid⟩ := List.mem_map.mp (hw.envelope_mailbox e he)
  rw [← hd, ← hid, lastSeq_eq hw hb]
  refine ((hw.mailbox_seqs b hb).mem _).mp ?_
  exact List.mem_map_of_mem (List.mem_filter.mpr ⟨he, by simp [hid]⟩)

end Counters

end Server
end SecureMessenger

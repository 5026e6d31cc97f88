import SecureMessenger.Server.MessageService
import SecureMessenger.Lib.Locks
import Mathlib.Data.Prod.Lex
import Mathlib.Data.List.Sort

/-!
# The order of row locks

Each request is the sequence of row locks its transaction takes: `SELECT ...
FOR UPDATE` and `FOR SHARE` at once, a modified row when it is flushed, a
referenced row (`keyShare`) when the referencing one is inserted.  Flushes
happen before the next `UPDATE` of the session and at commit.  A request that
fails, or has nothing more to do, finishes after any of its locks.

The rows are arbitrary.  What never changes of them, the device of a session,
the owner of a device and the session of a token, is the `Schema`.
-/

namespace SecureMessenger
namespace Server

open Lib.Locks

/-- The lock modes of PostgreSQL, and the claim of an inserted row on its
primary key. -/
inductive Mode
  | keyShare
  | share
  | noKeyUpdate
  | forUpdate
  | insert
deriving DecidableEq

/-- The conflict table. -/
def Mode.conflicts : Mode → Mode → Bool
  | .keyShare, .forUpdate => true
  | .share, .noKeyUpdate => true
  | .share, .forUpdate => true
  | .noKeyUpdate, .share => true
  | .noKeyUpdate, .noKeyUpdate => true
  | .noKeyUpdate, .forUpdate => true
  | .forUpdate, .keyShare => true
  | .forUpdate, .share => true
  | .forUpdate, .noKeyUpdate => true
  | .forUpdate, .forUpdate => true
  | .insert, .insert => true
  | _, _ => false

theorem Mode.conflicts_symm (m m' : Mode) : m.conflicts m' = m'.conflicts m := by
  cases m <;> cases m' <;> rfl

/-- A lock on a row. -/
structure RowLock where
  row : Resource
  mode : Mode
deriving DecidableEq

def RowLock.conflicts (l l' : RowLock) : Prop :=
  l.row = l'.row ∧ l.mode.conflicts l'.mode = true

theorem RowLock.conflicts_symm (l l' : RowLock) (h : l.conflicts l') : l'.conflicts l :=
  ⟨h.1.symm, by rw [Mode.conflicts_symm]; exact h.2⟩

/-- The columns that say to whom a row belongs. -/
structure Schema where
  /-- `auth_sessions.device_id`. -/
  device : UUID → UUID
  /-- `devices.user_id`. -/
  user : UUID → UUID
  /-- The session a refresh token was issued for, by the hash of the token. -/
  session : String → UUID

/-- The transactions, with the rows they meet. -/
inductive Transaction
  /-- `send` of a stored message, with the envelopes it purges. -/
  | resend (envelope_ids : List UUID)
  /-- `send` of a new message. -/
  | send (principal : Principal) (chat_id other_user_id : UUID) (devices : List UUID)
  /-- `ChatReadService.advance`. -/
  | advance (chat_id : UUID)
  /-- `login` with a device that is `known` or a new one. -/
  | login (user_id device_id : UUID) (known : Bool)
  /-- `revoke_device`, with the sessions that are not revoked. -/
  | revokeDevice (user_id device_id : UUID) (session_ids : List UUID)
  /-- `refresh` with the current token of a session, which is `active` or not. -/
  | refresh (session_id : UUID) (active : Bool)
  /-- `refresh` with a consumed token of a session. -/
  | refreshConsumed (session_id : UUID)
  /-- `logout` with a token of a session. -/
  | logout (session_id : UUID)
  /-- `acknowledge`. -/
  | acknowledge (envelope_id : UUID)
deriving DecidableEq

namespace Schema

variable (S : Schema)

/-- The recipients of a message, in the order of `lock_mailboxes`. -/
def recipients (sender_id other_user_id : UUID) (devices : List UUID) : List UUID :=
  (devices.filter fun d =>
    decide (S.user d = other_user_id ∨ S.user d = sender_id)).insertionSort (· ≤ ·)

/-- The locks of a request that ends a session: the session of the current
token, the one of the consumed token (the same), and the flush. -/
def sessionLocks (session_id : UUID) : List RowLock :=
  [⟨.session session_id, .forUpdate⟩, ⟨.session session_id, .forUpdate⟩,
   ⟨.session session_id, .noKeyUpdate⟩]

/-- The row locks of a transaction, in the order it takes them. -/
def locks : Transaction → List RowLock
  | .resend envelope_ids => envelope_ids.map fun e => ⟨.envelope e, .noKeyUpdate⟩
  | .send principal chat_id other devices =>
      [⟨.chat chat_id, .forUpdate⟩] ++
      (sortedPair other principal.user_id).map (fun u => ⟨.user u, .share⟩) ++
      (S.recipients principal.user_id other devices).map (fun d => ⟨.mailbox d, .forUpdate⟩) ++
      -- the flush at commit: the counters, the message, the envelopes
      ([⟨.chat chat_id, .noKeyUpdate⟩] ++
       (S.recipients principal.user_id other devices).map (fun d => ⟨.mailbox d, .noKeyUpdate⟩) ++
       [⟨.chat chat_id, .keyShare⟩, ⟨.user principal.user_id, .keyShare⟩,
        ⟨.device principal.device_id, .keyShare⟩] ++
       (S.recipients principal.user_id other devices).flatMap fun d =>
         [⟨.device d, .keyShare⟩, ⟨.user (S.user d), .keyShare⟩])
  | .advance chat_id => [⟨.chat chat_id, .forUpdate⟩]
  | .login user_id device_id true =>
      ⟨.user user_id, .forUpdate⟩ ::
        if S.user device_id = user_id then
          [⟨.device device_id, .noKeyUpdate⟩, ⟨.device device_id, .keyShare⟩]
        else []
  | .login user_id device_id false =>
      [⟨.user user_id, .forUpdate⟩, ⟨.device device_id, .insert⟩, ⟨.user user_id, .keyShare⟩,
       ⟨.mailbox device_id, .insert⟩, ⟨.device device_id, .keyShare⟩]
  | .revokeDevice user_id device_id session_ids =>
      ⟨.user user_id, .forUpdate⟩ ::
        if S.user device_id = user_id then
          -- the device is flushed before the update of the sessions
          ⟨.device device_id, .noKeyUpdate⟩ ::
            (session_ids.filter fun s => decide (S.device s = device_id)).map fun s =>
              ⟨.session s, .noKeyUpdate⟩
        else []
  | .refresh session_id true =>
      -- the flush at commit writes the device before the session
      [⟨.session session_id, .forUpdate⟩, ⟨.device (S.device session_id), .noKeyUpdate⟩,
       ⟨.session session_id, .forUpdate⟩, ⟨.session session_id, .keyShare⟩]
  | .refresh session_id false => [⟨.session session_id, .forUpdate⟩]
  | .refreshConsumed session_id => sessionLocks session_id
  | .logout session_id => sessionLocks session_id
  | .acknowledge envelope_id => [⟨.envelope envelope_id, .noKeyUpdate⟩]

/-- The transactions as a locking protocol. -/
def protocol : Protocol Transaction RowLock where
  plan := S.locks
  conflicts := RowLock.conflicts
  symm := RowLock.conflicts_symm

/-- A rotation of a session and a revocation of its device that takes the
session too. -/
def Crossing (session_id user_id device_id : UUID) (session_ids : List UUID) : Prop :=
  S.device session_id = device_id ∧ S.user device_id = user_id ∧ session_id ∈ session_ids

/-- The condition on a step in the state before it.  A rotation takes its
session only when no revocation that will take it holds the device; a
revocation takes its device only when no rotation of one of its sessions
holds the session.  The purges of stored messages meet the envelopes in one
order, `scan`. -/
def Apart (scan : UUID → Nat) (s : State ℕ Transaction) : Move ℕ Transaction → Prop
  | .start _ (.resend envelope_ids) => (envelope_ids.map scan).Pairwise (· < ·)
  | .start _ _ => True
  | .acquire t =>
      (∀ session_id, s t = some ⟨.refresh session_id true, 0⟩ →
        ∀ u user_id device_id session_ids n,
          s u = some ⟨.revokeDevice user_id device_id session_ids, n⟩ →
          S.Crossing session_id user_id device_id session_ids → n < 2) ∧
      ∀ user_id device_id session_ids,
        s t = some ⟨.revokeDevice user_id device_id session_ids, 1⟩ →
        ∀ u session_id n, s u = some ⟨.refresh session_id true, n⟩ →
          S.Crossing session_id user_id device_id session_ids → n = 0
  | .finish _ => True

/-! ### Ranks -/

/-- Chats come first, then users, mailboxes, sessions, devices and envelopes;
new rows come last. -/
def tier : RowLock → Nat
  | ⟨.chat _, _⟩ => 0
  | ⟨.user _, _⟩ => 1
  | ⟨.mailbox _, .insert⟩ => 7
  | ⟨.mailbox _, _⟩ => 2
  | ⟨.session _, _⟩ => 3
  | ⟨.device _, .insert⟩ => 6
  | ⟨.device _, _⟩ => 4
  | ⟨.envelope _, _⟩ => 5

/-- The place of an envelope in the order of the purges. -/
def place (scan : UUID → Nat) : RowLock → Nat
  | ⟨.envelope e, _⟩ => scan e
  | _ => 0

/-- The identifier, of rows locked in the order of identifiers. -/
def key : RowLock → UUID
  | ⟨.user u, _⟩ => u
  | ⟨.mailbox d, _⟩ => d
  | _ => ""

/-- The rank of a lock. -/
def rank (scan : UUID → Nat) (l : RowLock) : ℕ ×ₗ ℕ ×ₗ UUID :=
  toLex (tier l, toLex (place scan l, key l))

theorem rank_lt_of_tier {scan : UUID → Nat} {l l' : RowLock} (h : tier l < tier l') :
    rank scan l < rank scan l' :=
  Prod.Lex.toLex_lt_toLex.mpr (.inl h)

theorem rank_eq_of_conflicts {scan : UUID → Nat} {l l' : RowLock} (h : l.conflicts l') :
    rank scan l = rank scan l' := by
  obtain ⟨r, m⟩ := l
  obtain ⟨r', m'⟩ := l'
  obtain ⟨hrow, hmode⟩ := h
  simp only at hrow hmode
  subst hrow
  cases r <;> cases m <;> cases m' <;> first | rfl | simp [Mode.conflicts] at hmode

/-- Nobody takes a device row for update. -/
theorem device_mode_ne {op : Transaction} {d : UUID} {m : Mode}
    (h : (⟨.device d, m⟩ : RowLock) ∈ S.locks op) : m ≠ .forUpdate := by
  rintro rfl
  cases op with
  | resend ids => simp [locks] at h
  | send principal chat_id other devices => simp [locks] at h
  | advance chat_id => simp [locks] at h
  | login user_id device_id known =>
      cases known with
      | true =>
          simp only [locks] at h
          split at h <;> simp at h
      | false => simp [locks] at h
  | revokeDevice user_id device_id ids =>
      simp only [locks] at h
      split at h <;> simp at h
  | refresh session_id active => cases active <;> simp [locks] at h
  | refreshConsumed session_id => simp [locks, sessionLocks] at h
  | logout session_id => simp [locks, sessionLocks] at h
  | acknowledge e => simp [locks] at h

/-- A reference to a device is never waited for. -/
theorem unopposed_device_keyShare (d : UUID) :
    S.protocol.Unopposed ⟨.device d, .keyShare⟩ := by
  rintro op ⟨r, m⟩ hl ⟨hrow, hmode⟩
  simp only at hrow hmode
  subst hrow
  have hm := S.device_mode_ne hl
  cases m <;> simp [Mode.conflicts] at hmode hm

/-- A lock held in a mode that is at least as strong covers. -/
theorem covered {held : List RowLock} {r : Resource} {m m' : Mode}
    (h : (⟨r, m⟩ : RowLock) ∈ held)
    (hm : ∀ x, m'.conflicts x = true → m.conflicts x = true) :
    S.protocol.Covered held ⟨r, m'⟩ :=
  ⟨⟨r, m⟩, h, fun _ hc => ⟨hc.1, hm _ hc.2⟩⟩

theorem recipients_pairwise (sender_id other_user_id : UUID) (devices : List UUID) :
    (S.recipients sender_id other_user_id devices).Pairwise (· ≤ ·) :=
  List.pairwise_insertionSort _ _

theorem user_of_mem_recipients {sender_id other_user_id d : UUID} {devices : List UUID}
    (h : d ∈ S.recipients sender_id other_user_id devices) :
    S.user d ∈ sortedPair other_user_id sender_id := by
  unfold recipients at h
  rw [List.mem_insertionSort, List.mem_filter] at h
  exact mem_sortedPair.mpr (by simpa using h.2)

/-- Locks of one tier in the order of their identifiers. -/
theorem rank_pairwise {scan : UUID → Nat} {f : UUID → RowLock} {ids : List UUID}
    (hids : ids.Pairwise (· ≤ ·)) (htier : ∀ a b, tier (f a) = tier (f b))
    (hplace : ∀ a, place scan (f a) = 0) (hkey : ∀ a, key (f a) = a) :
    (ids.map f).Pairwise fun l m => l = m ∨ rank scan l < rank scan m := by
  rw [List.pairwise_map]
  refine hids.imp fun {a b} hab => ?_
  rcases eq_or_lt_of_le hab with rfl | hlt
  · exact .inl rfl
  · right
    refine Prod.Lex.toLex_lt_toLex.mpr (.inr ⟨htier a b, Prod.Lex.toLex_lt_toLex.mpr (.inr ?_)⟩)
    exact ⟨by rw [hplace, hplace], by rw [hkey, hkey]; exact hlt⟩

/-- **Chat, users, mailboxes**: the order of `send`. -/
theorem ordered_send (scan : UUID → Nat) (principal : Principal) (chat_id other : UUID)
    (devices : List UUID) :
    S.protocol.Ordered (rank scan) [] (S.locks (.send principal chat_id other devices)) := by
  unfold locks
  refine .append (.append (.append ?_ ?_) ?_) ?_
  · exact .of_pairwise (by simp) (by simp)
  · refine .of_pairwise ?_ ?_
    · intro l hl m hm
      obtain rfl := List.mem_singleton.mp hl
      obtain ⟨u, -, rfl⟩ := List.mem_map.mp hm
      exact rank_lt_of_tier Nat.zero_lt_one
    · exact rank_pairwise (sortedPair_pairwise _ _) (fun _ _ => rfl) (fun _ => rfl) fun _ => rfl
  · refine .of_pairwise ?_ ?_
    · intro l hl m hm
      obtain ⟨d, -, rfl⟩ := List.mem_map.mp hm
      rw [List.nil_append] at hl
      rcases List.mem_append.mp hl with hl | hl
      · obtain rfl := List.mem_singleton.mp hl
        exact rank_lt_of_tier Nat.zero_lt_two
      · obtain ⟨u, -, rfl⟩ := List.mem_map.mp hl
        exact rank_lt_of_tier Nat.one_lt_two
    · exact rank_pairwise (S.recipients_pairwise _ _ _) (fun _ _ => rfl) (fun _ => rfl) fun _ => rfl
  · -- the flush needs only what is held already, and references to devices
    have hchat : ∀ {m : Mode}, (∀ x, m.conflicts x = true → Mode.forUpdate.conflicts x = true) →
        S.protocol.Covered ([] ++ ([⟨.chat chat_id, .forUpdate⟩] ++
          (sortedPair other principal.user_id).map (fun u => ⟨.user u, .share⟩) ++
          (S.recipients principal.user_id other devices).map
            (fun d => ⟨.mailbox d, .forUpdate⟩))) ⟨.chat chat_id, m⟩ :=
      fun hm => S.covered (by simp) hm
    have huser : ∀ u ∈ sortedPair other principal.user_id,
        S.protocol.Covered ([] ++ ([⟨.chat chat_id, .forUpdate⟩] ++
          (sortedPair other principal.user_id).map (fun u => ⟨.user u, .share⟩) ++
          (S.recipients principal.user_id other devices).map
            (fun d => ⟨.mailbox d, .forUpdate⟩))) ⟨.user u, .keyShare⟩ := by
      intro u hu
      refine S.covered (m := .share) (by simp [hu]) fun x hx => ?_
      cases x <;> simp [Mode.conflicts] at hx ⊢
    refine .of_covered fun l hl => ?_
    rcases List.mem_append.mp hl with hl | hl
    · rcases List.mem_append.mp hl with hl | hl
      · rcases List.mem_append.mp hl with hl | hl
        · obtain rfl := List.mem_singleton.mp hl
          exact .inl (hchat fun x hx => by cases x <;> simp [Mode.conflicts] at hx ⊢)
        · obtain ⟨d, hd, rfl⟩ := List.mem_map.mp hl
          refine .inl (S.covered (m := .forUpdate) (by simp [hd]) fun x hx => ?_)
          cases x <;> simp [Mode.conflicts] at hx ⊢
      · simp only [List.mem_cons, List.not_mem_nil, or_false] at hl
        rcases hl with rfl | rfl | rfl
        · exact .inl (hchat fun x hx => by cases x <;> simp [Mode.conflicts] at hx ⊢)
        · exact .inl (huser _ (mem_sortedPair.mpr (.inr rfl)))
        · exact .inr (S.unopposed_device_keyShare _)
    · obtain ⟨d, hd, hl⟩ := List.mem_flatMap.mp hl
      simp only [List.mem_cons, List.not_mem_nil, or_false] at hl
      rcases hl with rfl | rfl
      · exact .inr (S.unopposed_device_keyShare _)
      · exact .inl (huser _ (S.user_of_mem_recipients hd))

/-- Every transaction but `revoke_device` takes its locks in order. -/
theorem ordered (scan : UUID → Nat) {op : Transaction}
    (hpurge : ∀ ids, op = .resend ids → (ids.map scan).Pairwise (· < ·))
    (hrevoke : ∀ user_id device_id ids, op ≠ .revokeDevice user_id device_id ids) :
    S.protocol.Ordered (rank scan) [] (S.locks op) := by
  have hself : ∀ {held : List RowLock} {r : Resource} {m : Mode},
      (⟨r, .forUpdate⟩ : RowLock) ∈ held → m ≠ .insert → S.protocol.Covered held ⟨r, m⟩ := by
    intro held r m h hm
    refine S.covered h fun x hx => ?_
    cases m <;> cases x <;> simp [Mode.conflicts] at hx hm ⊢
  cases op with
  | resend ids =>
      refine .of_pairwise (by simp) ?_
      simp only [locks]
      rw [List.pairwise_map]
      refine (List.pairwise_map.mp (hpurge ids rfl)).imp fun h => .inr ?_
      exact Prod.Lex.toLex_lt_toLex.mpr (.inr ⟨rfl, Prod.Lex.toLex_lt_toLex.mpr (.inl h)⟩)
  | send principal chat_id other devices => exact S.ordered_send scan _ _ _ _
  | advance chat_id => exact .of_pairwise (by simp) (by simp [locks])
  | login user_id device_id known =>
      cases known with
      | true =>
          simp only [locks]
          refine ⟨.inr (.inr (by simp)), ?_⟩
          split
          · refine ⟨.inr (.inr ?_), .inr (.inl (S.unopposed_device_keyShare _)), trivial⟩
            intro l hl
            obtain rfl := List.mem_singleton.mp hl
            exact .inr (rank_lt_of_tier (by simp [tier]))
          · trivial
      | false =>
          simp only [locks]
          refine ⟨.inr (.inr (by simp)), .inr (.inr ?_), .inl (hself (by simp) (by simp)),
            .inr (.inr ?_), .inr (.inl (S.unopposed_device_keyShare _)), trivial⟩
          · intro l hl
            obtain rfl := List.mem_singleton.mp hl
            exact .inr (rank_lt_of_tier (by simp [tier]))
          · intro l hl
            simp only [List.nil_append, List.cons_append, List.mem_cons, List.not_mem_nil,
              or_false] at hl
            rcases hl with rfl | rfl | rfl <;> exact .inr (rank_lt_of_tier (by simp [tier]))
  | revokeDevice user_id device_id ids => exact absurd rfl (hrevoke user_id device_id ids)
  | refresh session_id active =>
      cases active with
      | true =>
          refine ⟨.inr (.inr (by simp)), .inr (.inr ?_), .inl (hself (by simp) (by simp)),
            .inl (hself (by simp) (by simp)), trivial⟩
          intro l hl
          obtain rfl := List.mem_singleton.mp hl
          exact .inr (rank_lt_of_tier (by simp [tier]))
      | false => exact ⟨.inr (.inr (by simp)), trivial⟩
  | refreshConsumed session_id =>
      exact ⟨.inr (.inr (by simp)), .inl (hself (by simp) (by simp)),
        .inl (hself (by simp) (by simp)), trivial⟩
  | logout session_id =>
      exact ⟨.inr (.inr (by simp)), .inl (hself (by simp) (by simp)),
        .inl (hself (by simp) (by simp)), trivial⟩
  | acknowledge e => exact ⟨.inr (.inr (by simp)), trivial⟩

/-! ### Runs -/

/-- What the condition gives in every state of a run: a rotation with its
session and a crossing revocation with its device never meet. -/
structure Parted (scan : UUID → Nat) (s : State ℕ Transaction) : Prop where
  crossing : ∀ t u session_id user_id device_id session_ids n m,
    s t = some ⟨.refresh session_id true, n⟩ →
    s u = some ⟨.revokeDevice user_id device_id session_ids, m⟩ →
    S.Crossing session_id user_id device_id session_ids → n = 0 ∨ m < 2
  purges : ∀ t ids n, s t = some ⟨.resend ids, n⟩ → (ids.map scan).Pairwise (· < ·)

/-- A step that starts or ends a transaction, or lets one take a lock. -/
theorem Parted.update {scan : UUID → Nat} {s : State ℕ Transaction} (h : S.Parted scan s)
    {t : ℕ} {x : Option (Tx Transaction)}
    (hrefresh : ∀ session_id n, x = some ⟨.refresh session_id true, n⟩ →
      n = 0 ∨ ∀ u user_id device_id session_ids m,
        s u = some ⟨.revokeDevice user_id device_id session_ids, m⟩ →
        S.Crossing session_id user_id device_id session_ids → m < 2)
    (hrevoke : ∀ user_id device_id session_ids m,
      x = some ⟨.revokeDevice user_id device_id session_ids, m⟩ →
      m < 2 ∨ ∀ u session_id n, s u = some ⟨.refresh session_id true, n⟩ →
        S.Crossing session_id user_id device_id session_ids → n = 0)
    (hpurge : ∀ ids n, x = some ⟨.resend ids, n⟩ → (ids.map scan).Pairwise (· < ·)) :
    S.Parted scan (Function.update s t x) where
  crossing := by
    intro a b session_id user_id device_id session_ids n m ha hb hc
    by_cases hat : a = t
    · subst hat
      rw [Function.update_self] at ha
      rcases hrefresh session_id n ha with h0 | hfree
      · exact .inl h0
      · by_cases hba : b = a
        · subst hba
          rw [Function.update_self, ha] at hb
          cases hb
        · rw [Function.update_of_ne hba] at hb
          exact .inr (hfree b user_id device_id session_ids m hb hc)
    · rw [Function.update_of_ne hat] at ha
      by_cases hbt : b = t
      · subst hbt
        rw [Function.update_self] at hb
        rcases hrevoke user_id device_id session_ids m hb with h2 | hfree
        · exact .inr h2
        · exact .inl (hfree a session_id n ha hc)
      · rw [Function.update_of_ne hbt] at hb
        exact h.crossing a b session_id user_id device_id session_ids n m ha hb hc
  purges := by
    intro a ids n ha
    by_cases hat : a = t
    · subst hat
      rw [Function.update_self] at ha
      exact hpurge ids n ha
    · rw [Function.update_of_ne hat] at ha
      exact h.purges a ids n ha

/-- **The condition keeps crossing transactions apart**, step by step. -/
theorem Parted.step {scan : UUID → Nat} {s s' : State ℕ Transaction} {m : Move ℕ Transaction}
    (h : S.Parted scan s) (hok : S.Apart scan s m) (hs : S.protocol.Step m s s') :
    S.Parted scan s' := by
  cases hs with
  | start ht =>
      refine h.update S ?_ ?_ ?_
      · intro session_id n hx
        cases hx
        exact .inl rfl
      · intro user_id device_id session_ids m hx
        cases hx
        exact .inl Nat.zero_lt_two
      · intro ids n hx
        cases hx
        exact hok
  | @acquire _ t x l ht hl hfree =>
      obtain ⟨op, k⟩ := x
      refine h.update S ?_ ?_ ?_
      · intro session_id n hx
        cases hx
        right
        intro u user_id device_id session_ids m hu hc
        rcases Nat.eq_zero_or_pos k with rfl | hk
        · exact hok.1 session_id ht u user_id device_id session_ids m hu hc
        · rcases h.crossing t u session_id user_id device_id session_ids k m ht hu hc with h0 | h2
          · omega
          · exact h2
      · intro user_id device_id session_ids m hx
        cases hx
        rcases Nat.lt_or_ge k 1 with hk | hk
        · exact .inl (Nat.succ_lt_succ hk)
        · right
          intro u session_id n hu hc
          rcases Nat.eq_or_lt_of_le hk with rfl | hk
          · exact hok.2 user_id device_id session_ids ht u session_id n hu hc
          · rcases h.crossing u t session_id user_id device_id session_ids n k hu ht hc with h0 | h2
            · exact h0
            · omega
      · intro ids n hx
        cases hx
        exact h.purges t ids k ht
  | finish ht =>
      refine h.update S ?_ ?_ ?_
      · intro session_id n hx
        cases hx
      · intro user_id device_id session_ids m hx
        cases hx
      · intro ids n hx
        cases hx

/-- And so in every state of a run. -/
theorem parted_of_reachable {scan : UUID → Nat} {s : State ℕ Transaction}
    (hs : S.protocol.Reachable (S.Apart scan) s) : S.Parted scan s := by
  induction hs with
  | idle =>
      constructor
      · intro t u session_id user_id device_id session_ids n m ht
        cases ht
      · intro t ids n ht
        cases ht
  | step _ hok h ih => exact ih.step S hok h

/-- The lock a revocation waits for once it has the user and the device. -/
theorem next_revokeDevice {user_id device_id : UUID} {session_ids : List UUID} {n : Nat}
    {l : RowLock} (hn : 2 ≤ n)
    (hl : S.protocol.next ⟨.revokeDevice user_id device_id session_ids, n⟩ = some l) :
    S.user device_id = user_id ∧ ∃ session_id, l = ⟨.session session_id, .noKeyUpdate⟩ ∧
      session_id ∈ session_ids ∧ S.device session_id = device_id := by
  obtain ⟨k, rfl⟩ := Nat.exists_eq_add_of_le hn
  simp only [Protocol.next, protocol, locks] at hl
  rw [Nat.add_comm] at hl
  split at hl
  · rename_i huser
    simp only [List.getElem?_cons_succ, List.getElem?_map, Option.map_eq_some_iff] at hl
    obtain ⟨session_id, hget, rfl⟩ := hl
    have hmem := List.mem_filter.mp (List.mem_of_getElem? hget)
    exact ⟨huser, session_id, rfl, hmem.1, by simpa using hmem.2⟩
  · simp at hl

/-- The user lock of a revocation. -/
theorem user_mem_held {user_id device_id : UUID} {session_ids : List UUID} {n : Nat} (hn : 0 < n) :
    (⟨.user user_id, .forUpdate⟩ : RowLock) ∈
      S.protocol.held ⟨.revokeDevice user_id device_id session_ids, n⟩ := by
  obtain ⟨k, rfl⟩ := Nat.exists_eq_add_of_lt hn
  simp [Protocol.held, protocol, locks]

/-- The sessions a revocation has locked, and what it has locked before. -/
theorem session_mem_held {user_id device_id : UUID} {session_ids : List UUID} {n : Nat}
    {session_id : UUID} {m : Mode}
    (h : (⟨.session session_id, m⟩ : RowLock) ∈
      S.protocol.held ⟨.revokeDevice user_id device_id session_ids, n⟩) :
    0 < n ∧ S.user device_id = user_id ∧ S.device session_id = device_id := by
  have hplan : (⟨.session session_id, m⟩ : RowLock) ∈
      S.locks (.revokeDevice user_id device_id session_ids) := Protocol.mem_plan_of_held h
  constructor
  · rcases Nat.eq_zero_or_pos n with rfl | hn
    · simp [Protocol.held] at h
    · exact hn
  · simp only [locks] at hplan
    split at hplan
    · rename_i huser
      simp only [List.mem_cons, RowLock.mk.injEq, reduceCtorEq, false_and, List.mem_map,
        List.mem_filter, decide_eq_true_eq, Resource.session.injEq, false_or] at hplan
      obtain ⟨session_id', ⟨-, hdevice⟩, rfl, -⟩ := hplan
      exact ⟨huser, hdevice⟩
    · simp at hplan

/-- A request that ends a session has all it needs once it has the session. -/
theorem covered_sessionLocks {op : Transaction} {session_id : UUID} {n : Nat} {l : RowLock}
    (hop : S.locks op = sessionLocks session_id) (hn : 0 < n)
    (hl : S.protocol.next ⟨op, n⟩ = some l) : S.protocol.Covered (S.protocol.held ⟨op, n⟩) l := by
  obtain ⟨k, rfl⟩ := Nat.exists_eq_add_of_lt hn
  simp only [Protocol.next, Protocol.held, protocol, hop] at hl ⊢
  have hmem := List.mem_of_getElem? hl
  simp only [sessionLocks, List.mem_cons, List.not_mem_nil, or_false] at hmem
  rcases hmem with rfl | rfl | rfl
  · exact S.covered (m := .forUpdate) (by simp [sessionLocks]) fun x hx => hx
  · exact S.covered (m := .forUpdate) (by simp [sessionLocks]) fun x hx => hx
  · refine S.covered (m := .forUpdate) (by simp [sessionLocks]) fun x hx => ?_
    cases x <;> simp [Mode.conflicts] at hx ⊢

/-- **A revocation waits only for transactions that do not wait.**  Who holds
one of its sessions has all it needs, rotations excepted, and these are kept
apart. -/
theorem not_waits_after_revokeDevice {scan : UUID → Nat} {s : State ℕ Transaction}
    (hs : S.protocol.Reachable (S.Apart scan) s) {t v w : ℕ} {user_id device_id : UUID}
    {session_ids : List UUID} {n : Nat} (hn : 2 ≤ n)
    (ht : s t = some ⟨.revokeDevice user_id device_id session_ids, n⟩)
    (htv : S.protocol.WaitsFor s t v) : ¬S.protocol.WaitsFor s v w := by
  obtain ⟨hne, x, ⟨op, k⟩, l, ⟨r, m⟩, ht', hv, hl, hl', hconflict⟩ := htv
  rw [ht] at ht'
  cases ht'
  obtain ⟨huser, session_id, rfl, hmem, hdevice⟩ := S.next_revokeDevice hn hl
  obtain ⟨hrow, hmode⟩ := hconflict
  simp only at hrow hmode
  subst hrow
  have hplan : (⟨.session session_id, m⟩ : RowLock) ∈ S.locks op := Protocol.mem_plan_of_held hl'
  have hpos : 0 < k := by
    rcases Nat.eq_zero_or_pos k with rfl | hk
    · simp [Protocol.held] at hl'
    · exact hk
  cases op with
  | resend ids => simp [locks] at hplan
  | send principal chat_id other devices => simp [locks] at hplan
  | advance chat_id => simp [locks] at hplan
  | login user_id device_id known =>
      cases known with
      | true =>
          simp only [locks] at hplan
          split at hplan <;> simp at hplan
      | false => simp [locks] at hplan
  | revokeDevice user_id' device_id' session_ids' =>
      -- both hold the user of the device
      obtain ⟨hk, huser', hdevice'⟩ := S.session_mem_held hl'
      have hsame : user_id' = user_id := by rw [← huser', ← hdevice', hdevice, huser]
      subst hsame
      exact absurd ⟨rfl, rfl⟩ (hs.compatible hne ht hv
        (S.user_mem_held (Nat.lt_of_lt_of_le Nat.zero_lt_two hn)) (S.user_mem_held hk))
  | refresh session_id' active =>
      cases active with
      | true =>
          have hsame : session_id' = session_id := by
            simp only [locks, List.mem_cons, RowLock.mk.injEq, Resource.session.injEq,
              reduceCtorEq, false_and, List.not_mem_nil, or_false, false_or] at hplan
            rcases hplan with h | h | h <;> exact h.1.symm
          subst hsame
          rcases (S.parted_of_reachable hs).crossing v t session_id' user_id device_id session_ids
            k n hv ht ⟨hdevice, huser, hmem⟩ with h0 | h2
          · omega
          · omega
      | false =>
          refine hs.not_waitsFor_of_covered hv fun l' hl' => ?_
          obtain ⟨k, rfl⟩ := Nat.exists_eq_add_of_lt hpos
          simp [Protocol.next, protocol, locks] at hl'
  | refreshConsumed session_id' =>
      exact hs.not_waitsFor_of_covered hv fun l' hnext => S.covered_sessionLocks rfl hpos hnext
  | logout session_id' =>
      exact hs.not_waitsFor_of_covered hv fun l' hnext => S.covered_sessionLocks rfl hpos hnext
  | acknowledge e => simp [locks] at hplan

/-- **The requests do not deadlock** in any run that keeps rotations and
revocations apart. -/
theorem locks_do_not_deadlock (scan : UUID → Nat) {s : State ℕ Transaction}
    (hs : S.protocol.Reachable (S.Apart scan) s) : ¬S.protocol.Deadlock s := by
  refine Protocol.not_deadlock_of_rank (rank scan)
    (fun l l' h => rank_eq_of_conflicts h) ?_
  rintro u v w ⟨op, n⟩ l l' huv hvw hu hl hl' hopposed
  by_cases hrevoke : ∃ user_id device_id session_ids,
      op = .revokeDevice user_id device_id session_ids
  · obtain ⟨user_id, device_id, session_ids, rfl⟩ := hrevoke
    rcases Nat.lt_or_ge n 2 with hn | hn
    · -- it waits for the device and holds at most the user
      have hplan : S.locks (.revokeDevice user_id device_id session_ids) =
        ⟨.user user_id, .forUpdate⟩ ::
          (S.locks (.revokeDevice user_id device_id session_ids)).tail := rfl
      obtain rfl | rfl : n = 0 ∨ n = 1 := by omega
      · simp [Protocol.held] at hl'
      · simp only [Protocol.held, Protocol.next, protocol] at hl hl'
        rw [hplan] at hl hl'
        simp only [List.take_succ_cons, List.take_zero, List.mem_singleton] at hl'
        subst hl'
        simp only [List.getElem?_cons_succ, locks, List.tail_cons] at hl
        split at hl
        · simp only [List.getElem?_cons_zero, Option.some.injEq] at hl
          subst hl
          exact rank_lt_of_tier (by simp [tier])
        · simp at hl
    · exact absurd hvw (S.not_waits_after_revokeDevice hs hn hu huv)
  · have hordered : S.protocol.Ordered (rank scan) [] (S.locks op) := S.ordered scan
      (fun ids hop => (S.parted_of_reachable hs).purges u ids n (by rw [hu, hop]))
      fun user_id device_id ids hop => hrevoke ⟨user_id, device_id, ids, hop⟩
    rcases hordered.getElem? hl with hcovered | hunopposed | hup
    · rw [List.nil_append] at hcovered
      refine absurd huv (hs.not_waitsFor_of_covered hu fun m hm => ?_)
      rw [hl] at hm
      cases hm
      exact hcovered
    · obtain ⟨-, x, y, m, m', hu', -, hm, hm', hc⟩ := huv
      rw [hu] at hu'
      cases hu'
      rw [hl] at hm
      cases hm
      exact absurd hc (hunopposed y.op m' (Protocol.mem_plan_of_held hm'))
    · rw [List.nil_append] at hup
      exact (hup l' hl').resolve_left hopposed

section Runs

/-- One user with one device. -/
def oneDevice : Schema where
  device := fun _ => "d"
  user := fun _ => "u"
  session := fun _ => "s"

/-- Two transactions. -/
def two (x y : Option (Tx Transaction)) : State ℕ Transaction
  | 0 => x
  | 1 => y
  | _ => none

theorem update_two_zero (x y z : Option (Tx Transaction)) :
    Function.update (two x y) 0 z = two z y := by
  funext t
  match t with
  | 0 => rfl
  | 1 => rfl
  | _ + 2 => rfl

theorem update_two_one (x y z : Option (Tx Transaction)) :
    Function.update (two x y) 1 z = two x z := by
  funext t
  match t with
  | 0 => rfl
  | 1 => rfl
  | _ + 2 => rfl

/-- The session of the device is being refreshed, and its owner has begun to
revoke the device. -/
def refreshing (taken : Nat) : State ℕ Transaction :=
  two (some ⟨.refresh "s" true, 1⟩) (some ⟨.revokeDevice "u" "d" ["s"], taken⟩)

/-- The rotation takes the session, then the revocation the user. -/
theorem refreshing_reachable {ok : State ℕ Transaction → Move ℕ Transaction → Prop}
    (hstart : ∀ s t op, (∀ ids, op ≠ .resend ids) → ok s (.start t op))
    (hfirst : ok (two (some ⟨.refresh "s" true, 0⟩) none) (.acquire 0))
    (hsecond : ok (refreshing 0) (.acquire 1)) :
    oneDevice.protocol.Reachable ok (refreshing 1) := by
  have h₀ : oneDevice.protocol.Reachable ok (two none none) := by
    have hidle : two none none = fun _ => none := by
      funext t
      match t with
      | 0 => rfl
      | 1 => rfl
      | _ + 2 => rfl
    rw [hidle]
    exact .idle
  have h₁ := h₀.step (hstart _ 0 (.refresh "s" true) (by simp)) (.start rfl)
  rw [update_two_zero] at h₁
  have h₂ := h₁.step hfirst (.acquire (x := ⟨.refresh "s" true, 0⟩) rfl rfl (by
    intro u y hu hy
    match u with
    | 0 => exact absurd rfl hu
    | 1 => cases hy
    | _ + 2 => cases hy))
  rw [update_two_zero] at h₂
  have h₃ := h₂.step (hstart _ 1 (.revokeDevice "u" "d" ["s"]) (by simp)) (.start rfl)
  rw [update_two_one] at h₃
  have h₄ := h₃.step hsecond (.acquire (x := ⟨.revokeDevice "u" "d" ["s"], 0⟩) rfl rfl (by
    intro u y hu hy l' hl' hc
    match u with
    | 0 =>
        cases hy
        obtain rfl := List.mem_singleton.mp hl'
        exact absurd hc.1 (by simp)
    | 1 => exact hu rfl
    | _ + 2 => cases hy))
  rw [update_two_one] at h₄
  exact h₄

/-- A rotation holds its session and a revocation the user of its device. -/
theorem locks_do_not_deadlock_refreshing :
    oneDevice.protocol.Reachable (oneDevice.Apart fun _ => 0) (refreshing 1) ∧
      ¬oneDevice.protocol.Deadlock (refreshing 1) := by
  have hreach : oneDevice.protocol.Reachable (oneDevice.Apart fun _ => 0) (refreshing 1) := by
    refine refreshing_reachable ?_ ⟨?_, ?_⟩ ⟨?_, ?_⟩
    · intro s t op hop
      cases op with
      | resend ids => exact absurd rfl (hop ids)
      | _ => trivial
    · intro session_id _ u user_id device_id ids n hu
      match u with
      | 0 => cases hu
      | 1 => cases hu
      | _ + 2 => cases hu
    · intro user_id device_id ids hu
      cases hu
    · intro session_id hu
      cases hu
    · intro user_id device_id ids hu
      cases hu
  exact ⟨hreach, oneDevice.locks_do_not_deadlock _ hreach⟩

/-- **A refresh and a revocation of its device deadlock**: the revocation
takes the device while the rotation holds the session. -/
theorem refresh_and_revokeDevice_deadlock :
    ¬∀ (S : Schema) (s : State ℕ Transaction),
      S.protocol.Reachable (fun _ _ => True) s → ¬S.protocol.Deadlock s := by
  intro h
  have h₁ : oneDevice.protocol.Reachable (fun _ _ => True) (refreshing 1) :=
    refreshing_reachable (fun _ _ _ _ => trivial) trivial trivial
  have h₂ := h₁.step trivial (.acquire (t := 1) (x := ⟨.revokeDevice "u" "d" ["s"], 1⟩) rfl rfl (by
    intro u y hu hy l' hl' hc
    match u with
    | 0 =>
        cases hy
        obtain rfl := List.mem_singleton.mp hl'
        exact absurd hc.1 (by simp)
    | 1 => exact hu rfl
    | _ + 2 => cases hy))
  rw [refreshing, update_two_one] at h₂
  have hwait : oneDevice.protocol.WaitsFor (refreshing 2) 0 1 :=
    ⟨by simp, _, _, ⟨.device "d", .noKeyUpdate⟩, ⟨.device "d", .noKeyUpdate⟩, rfl, rfl, rfl,
      .tail _ (.head _), rfl, rfl⟩
  have hwait' : oneDevice.protocol.WaitsFor (refreshing 2) 1 0 :=
    ⟨by simp, _, _, ⟨.session "s", .noKeyUpdate⟩, ⟨.session "s", .forUpdate⟩, rfl, rfl, rfl,
      .head _, rfl, rfl⟩
  exact h _ _ h₂ ⟨0, .tail (.single hwait) hwait'⟩

end Runs

end Schema

end Server
end SecureMessenger

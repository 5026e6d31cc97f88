import SecureMessenger.Client.MessageState
import SecureMessenger.Lib.Iso8601

/-!
# Message lists in the order of time

`mergeMessages` sorts by the texts of the creation times.  The creation times
of a merged list are among those that were there and those that came in, and the
list is in the order of time unless one text, without its `Z`, begins that of a
later instant.
-/

namespace SecureMessenger
namespace Client

open Lib
open Lib.Iso8601 (UtcTime)

section Order

/-- What `compareMessages` compares. -/
def orderKey (message : DisplayMessage) : List Nat ×ₗ List Nat :=
  toLex (utf16Units message.createdAt, utf16Units (sortKey message))

theorem messageLe_iff (a b : DisplayMessage) : messageLe a b = true ↔ orderKey a ≤ orderKey b := by
  rw [orderKey, orderKey, Prod.Lex.toLex_le_toLex]
  unfold messageLe
  rcases lt_trichotomy (utf16Units a.createdAt) (utf16Units b.createdAt) with hlt | heq | hgt
  · simp [hlt]
  · simp [heq]
  · simp [hgt, lt_asymm hgt, hgt.ne']

instance : Std.Total fun a b : DisplayMessage => messageLe a b = true where
  total a b := by
    rw [messageLe_iff, messageLe_iff]
    exact le_total _ _

instance : IsTrans DisplayMessage fun a b => messageLe a b = true where
  trans a b c hab hbc := by
    rw [messageLe_iff] at *
    exact le_trans hab hbc

/-- Sorted by `compareMessages`. -/
def Sorted (rows : List DisplayMessage) : Prop :=
  rows.Pairwise fun a b => messageLe a b = true

theorem Sorted.mergeMessages {current : List DisplayMessage} (h : Sorted current)
    (incoming : List DisplayMessage) : Sorted (mergeMessages current incoming) := by
  unfold Client.mergeMessages
  simp only
  split_ifs
  · exact h
  · exact List.pairwise_insertionSort _ _
  · exact h

/-- A row that is listed later is not smaller. -/
theorem Sorted.pairwise_createdAt {rows : List DisplayMessage} (h : Sorted rows) :
    rows.Pairwise fun a b => ¬ utf16Units b.createdAt < utf16Units a.createdAt := by
  refine List.Pairwise.imp ?_ h
  intro a b hab hlt
  rw [messageLe_iff, orderKey, orderKey, Prod.Lex.toLex_le_toLex] at hab
  rcases hab with hab | ⟨hab, -⟩
  · exact lt_asymm hab hlt
  · have heq : utf16Units a.createdAt = utf16Units b.createdAt := hab
    rw [heq] at hlt
    exact lt_irrefl _ hlt

end Order

section CreationTimes

variable {T : Set String} {s : MergeState}

/-- The objects of the loop were created at times of `T`. -/
structure Dated (T : Set String) (s : MergeState) : Prop where
  messages : ∀ id o, s.messages.get id = some o → o.message.createdAt ∈ T
  commands : ∀ key o, s.commands.get key = some o → o.message.createdAt ∈ T

theorem Dated.priorOf (h : Dated T s) {message : DisplayMessage} {o : MessageObject}
    (ho : priorOf s message = some o) : o.message.createdAt ∈ T := by
  unfold Client.priorOf at ho
  rcases Option.or_eq_some_iff.mp ho with hget | ⟨-, hcommand⟩
  · exact h.messages _ _ hget
  · split_ifs at hcommand
    obtain ⟨key, -, hget⟩ := Option.bind_eq_some_iff.mp hcommand
    exact h.commands _ _ hget

/-- A row keeps the creation time of the row it replaces. -/
theorem nextMessage_createdAt (prior : Option DisplayMessage) (message : DisplayMessage) :
    (nextMessage prior message).createdAt = (prior.getD message).createdAt := by
  cases prior with
  | none =>
      unfold nextMessage
      cases selectStatus none message.status.get <;> rfl
  | some prior => rfl

theorem get_dropCommand {commands : Dict String MessageObject} {prior o : MessageObject}
    {key : String} (h : (dropCommand commands prior).get key = some o) :
    commands.get key = some o := by
  unfold dropCommand at h
  split at h
  · exact h
  · split_ifs at h
    · rw [Dict.get_delete] at h
      split_ifs at h
      exact h
    · exact h

/-- One round. -/
theorem Dated.mergeStep (h : Dated T s) {message : DisplayMessage} (hm : message.createdAt ∈ T) :
    Dated T (mergeStep s message) := by
  have hnext : (nextMessage ((Client.priorOf s message).map MessageObject.message)
      message).createdAt ∈ T := by
    rw [nextMessage_createdAt]
    cases hp : Client.priorOf s message with
    | none => exact hm
    | some o => exact h.priorOf hp
  unfold Client.mergeStep
  simp only
  split_ifs
  · exact h
  · exact h
  · constructor
    · intro id o hget
      rw [Dict.get_set] at hget
      split_ifs at hget
      · obtain rfl := Option.some.inj hget
        exact hnext
      · cases hp : Client.priorOf s message with
        | none =>
            simp only [hp] at hget
            exact h.messages _ _ hget
        | some prior =>
            simp only [hp] at hget
            rw [Dict.get_delete] at hget
            split_ifs at hget
            exact h.messages _ _ hget
    · intro key o hget
      cases hk : commandKey message with
      | none =>
          simp only [hk] at hget
          cases hp : Client.priorOf s message with
          | none =>
              simp only [hp] at hget
              exact h.commands _ _ hget
          | some prior =>
              simp only [hp] at hget
              exact h.commands _ _ (get_dropCommand hget)
      | some k =>
          simp only [hk] at hget
          rw [Dict.get_set] at hget
          split_ifs at hget
          · obtain rfl := Option.some.inj hget
            exact hnext
          · cases hp : Client.priorOf s message with
            | none =>
                simp only [hp] at hget
                exact h.commands _ _ hget
            | some prior =>
                simp only [hp] at hget
                exact h.commands _ _ (get_dropCommand hget)

theorem Dated.foldl (h : Dated T s) {incoming : List DisplayMessage}
    (hin : ∀ m ∈ incoming, m.createdAt ∈ T) : Dated T (incoming.foldl Client.mergeStep s) := by
  induction incoming generalizing s with
  | nil => exact h
  | cons m rest ih =>
      exact ih (h.mergeStep (hin m List.mem_cons_self))
        fun m' hm' => hin m' (List.mem_cons_of_mem _ hm')

theorem dated_mergeStart {current : List DisplayMessage} (h : ∀ m ∈ current, m.createdAt ∈ T) :
    Dated T (mergeStart current) := by
  have hobject {o : MessageObject} (ho : o ∈ objectsOf current) : o.message.createdAt ∈ T := by
    obtain ⟨p, hp, rfl⟩ := List.mem_map.mp ho
    exact h _ (List.fst_mem_of_mem_zipIdx hp)
  constructor
  · intro id o hget
    obtain ⟨o', ho', heq⟩ := List.mem_map.mp (Dict.mem_of_get_ofList hget)
    obtain ⟨rfl, rfl⟩ := Prod.mk.inj heq
    exact hobject ho'
  · intro key o hget
    obtain ⟨o', ho', heq⟩ := List.mem_filterMap.mp (Dict.mem_of_get_ofList hget)
    obtain ⟨k, -, hk⟩ := Option.map_eq_some_iff.mp heq
    obtain ⟨rfl, rfl⟩ := Prod.mk.inj hk
    exact hobject ho'

/-- **No creation time is made up.** -/
theorem createdAt_mergeMessages {current incoming : List DisplayMessage}
    (hcurrent : ∀ m ∈ current, m.createdAt ∈ T) (hin : ∀ m ∈ incoming, m.createdAt ∈ T) :
    ∀ m ∈ mergeMessages current incoming, m.createdAt ∈ T := by
  intro m hm
  unfold mergeMessages at hm
  simp only at hm
  split_ifs at hm
  · exact hcurrent m hm
  · obtain ⟨o, ho, rfl⟩ := List.mem_map.mp ((List.mem_insertionSort _).mp hm)
    obtain ⟨id, hget⟩ := Dict.mem_values.mp ho
    exact ((dated_mergeStart hcurrent).foldl hin).messages id o hget
  · exact hcurrent m hm

end CreationTimes

section Time

/-- The creation times are texts of timestamps of `S`. -/
def TimedBy (S : Set UtcTime) (rows : List DisplayMessage) : Prop :=
  ∀ m ∈ rows, ∃ t ∈ S, m.createdAt = t.text

/-- Lists that `mergeMessages` produces from batches with times of `S`. -/
inductive Produced (S : Set UtcTime) : List DisplayMessage → Prop
  | nil : Produced S []
  | merge {current incoming : List DisplayMessage} (h : Produced S current)
      (hin : TimedBy S incoming) : Produced S (mergeMessages current incoming)

/-- Rows of different instants are in the order of these. -/
def InTimeOrder (rows : List DisplayMessage) : Prop :=
  rows.Pairwise fun a b => ∀ s t : UtcTime, a.createdAt = s.text → b.createdAt = t.text →
    s.instant ≠ t.instant → s.instant < t.instant

variable {S : Set UtcTime} {current incoming : List DisplayMessage}

/-- Below the surrogates a code unit is a character. -/
theorem utf16Units_of_small {text : String} (h : ∀ c ∈ text.toList, c.toNat < 65536) :
    utf16Units text = text.toList.map Char.toNat := by
  unfold utf16Units
  revert h
  generalize text.toList = chars
  intro h
  induction chars with
  | nil => rfl
  | cons c rest ih =>
      have hc := h c List.mem_cons_self
      have hrest := ih fun c' hc' => h c' (List.mem_cons_of_mem _ hc')
      rw [List.flatMap_cons, if_pos hc, hrest, List.map_cons, List.singleton_append]

/-- The code units of a text are its codes. -/
theorem utf16Units_text (t : UtcTime) : utf16Units t.text = t.codes := by
  have hsmall : ∀ c ∈ t.text.toList, c.toNat < 65536 := by
    intro c hc
    have hmem : c.toNat ∈ t.codes := by
      rw [← t.text_codes]
      exact List.mem_map_of_mem hc
    have hlt := t.code_lt hmem
    omega
  rw [utf16Units_of_small hsmall, t.text_codes]

theorem Produced.sorted (h : Produced S current) : Sorted current := by
  induction h with
  | nil => exact List.Pairwise.nil
  | merge _ _ ih => exact ih.mergeMessages _

theorem TimedBy.mergeMessages (h : TimedBy S current) (hin : TimedBy S incoming) :
    TimedBy S (mergeMessages current incoming) :=
  createdAt_mergeMessages (T := {text | ∃ t ∈ S, text = t.text}) h hin

theorem Produced.timedBy (h : Produced S current) : TimedBy S current := by
  induction h with
  | nil => intro m hm; cases hm
  | merge _ hin ih => exact ih.mergeMessages hin

/-- A sorted list is in the order of time if no two of its times disagree. -/
theorem Sorted.inTimeOrder {rows : List DisplayMessage} (h : Sorted rows)
    (hclear : ∀ a ∈ rows, ∀ b ∈ rows, ∀ s t : UtcTime, a.createdAt = s.text →
      b.createdAt = t.text → ¬ s.Truncates t) : InTimeOrder rows := by
  refine List.Pairwise.imp_of_mem ?_ h.pairwise_createdAt
  intro a b ha hb hnot s t hs ht hne
  rcases Nat.lt_or_ge s.instant t.instant with hlt | hge
  · exact hlt
  · have hlt : t.instant < s.instant := by omega
    have hcodes := (UtcTime.codes_lt_iff hlt).mpr (hclear b hb a ha t s ht hs)
    rw [hs, ht, utf16Units_text, utf16Units_text] at hnot
    exact absurd hcodes hnot

/-- A message without optional properties. -/
def plainMessage (id createdAt : String) : DisplayMessage where
  messageId := id
  chatId := "c1"
  senderUserId := "bob"
  content := "hi"
  createdAt := createdAt

/-- A message with a new id and no command key gets a row of its own. -/
theorem mergeStep_plainMessage {s : MergeState} {id : String} (createdAt : String)
    (h : s.messages.get id = none) :
    mergeStep s (plainMessage id createdAt) =
      { s with
        messages := s.messages.set id ⟨s.next, plainMessage id createdAt⟩
        changed := true
        next := s.next + 1 } := by
  have hprior : priorOf s (plainMessage id createdAt) = none := by
    have hid : (plainMessage id createdAt).messageId = id := rfl
    have hkey : commandKey (plainMessage id createdAt) = none := rfl
    have hstatus : (plainMessage id createdAt).status.get = none := rfl
    simp [priorOf, hid, h, hkey, hstatus]
  unfold mergeStep
  rw [hprior]
  rfl

theorem mergeMessages_two (x y : String) :
    mergeMessages [] [plainMessage "m1" x, plainMessage "m2" y] =
      [plainMessage "m1" x, plainMessage "m2" y].insertionSort
        (fun a b => messageLe a b = true) := by
  have hfirst := @mergeStep_plainMessage (mergeStart []) "m1" x rfl
  have hsecond := @mergeStep_plainMessage (mergeStep (mergeStart []) (plainMessage "m1" x)) "m2" y
    (by rw [hfirst]; rfl)
  unfold mergeMessages
  rw [if_neg (by simp), List.foldl_cons, List.foldl_cons, List.foldl_nil, hsecond, hfirst]
  rfl

/-- **When lists are in the order of time.**  A merged list is in the order of
time if no text among the creation times, without its `Z`, begins that of a
later instant; and the timestamps from which all merged lists are in the order
of time are those among which there are no such texts. -/
theorem messages_in_time_order_iff (S : Set UtcTime) :
    (∀ current incoming, Produced Set.univ current → TimedBy Set.univ incoming →
      (∀ a ∈ current ++ incoming, ∀ b ∈ current ++ incoming, ∀ s t : UtcTime,
        a.createdAt = s.text → b.createdAt = t.text → ¬ s.Truncates t) →
      InTimeOrder (mergeMessages current incoming)) ∧
    ((∀ current incoming, Produced S current → TimedBy S incoming →
        InTimeOrder (mergeMessages current incoming)) ↔
      ∀ s ∈ S, ∀ t ∈ S, ¬ s.Truncates t) := by
  refine ⟨?sufficient, ?necessary, ?enough⟩
  case sufficient =>
    intro current incoming hproduced _ hclear
    refine (hproduced.sorted.mergeMessages incoming).inTimeOrder ?_
    have htimes := createdAt_mergeMessages
      (T := {x | ∃ m ∈ current ++ incoming, m.createdAt = x})
      (fun m hm => ⟨m, List.mem_append_left incoming hm, rfl⟩)
      (fun m hm => ⟨m, List.mem_append_right current hm, rfl⟩)
    intro a ha b hb s t hs ht
    obtain ⟨a', ha', heqa⟩ := htimes a ha
    obtain ⟨b', hb', heqb⟩ := htimes b hb
    exact hclear a' ha' b' hb' s t (heqa.trans hs) (heqb.trans ht)
  case necessary =>
    intro horder s hs t ht htr
    have hin : TimedBy S [plainMessage "m1" s.text, plainMessage "m2" t.text] := by
      intro m hm
      rcases List.mem_cons.mp hm with rfl | hm
      · exact ⟨s, hs, rfl⟩
      · obtain rfl := List.mem_singleton.mp hm
        exact ⟨t, ht, rfl⟩
    have hrows := horder [] _ .nil hin
    have hlt : utf16Units t.text < utf16Units s.text := by
      rw [utf16Units_text, utf16Units_text]
      exact htr.codes_lt
    have hle : messageLe (plainMessage "m1" s.text) (plainMessage "m2" t.text) = false := by
      simp [messageLe, plainMessage, hlt, lt_asymm hlt]
    rw [mergeMessages_two] at hrows
    simp only [List.insertionSort_cons, List.insertionSort_nil, List.orderedInsert_nil,
      List.orderedInsert_cons, hle, Bool.false_eq_true, if_false] at hrows
    have hfirst := (List.pairwise_cons.mp hrows).1 _ List.mem_cons_self
    have hwrong := hfirst t s rfl rfl htr.2.ne'
    exact lt_asymm hwrong htr.2
  case enough =>
    intro hclear current incoming hproduced hin
    refine (hproduced.sorted.mergeMessages incoming).inTimeOrder ?_
    have htimed := hproduced.timedBy.mergeMessages hin
    intro a ha b hb s t hs ht htr
    obtain ⟨s', hs', heqs⟩ := htimed a ha
    obtain ⟨t', ht', heqt⟩ := htimed b hb
    have hsame {u v : UtcTime} (h : u.text = v.text) : u.codes = v.codes := by
      rw [← utf16Units_text, ← utf16Units_text, h]
    exact hclear s' hs' t' ht' (htr.congr (hsame (hs.symm.trans heqs)) (hsame (ht.symm.trans heqt)))

/-- Ten o'clock, and a fraction of the second that follows. -/
def tenOClock (fraction : Lib.Iso8601.Fraction) : UtcTime where
  civil :=
    { year := 2026, month := 9, day := 7, hour := 10, minute := 0, second := 0
      year_lt := by decide, month_pos := by decide, month_le := by decide, day_pos := by decide
      day_le := by decide, hour_lt := by decide, minute_lt := by decide, second_lt := by decide }
  fraction := fraction

theorem tenOClock_texts :
    (tenOClock .omitted).text = "2026-09-07T10:00:00Z" ∧
      (tenOClock (.micros 500000 (by decide))).text = "2026-09-07T10:00:00.500000Z" ∧
      (tenOClock (.millis 7 (by decide))).text = "2026-09-07T10:00:00.007Z" := by
  decide +kernel

/-- Neither of two fractions is cut off from the other. -/
theorem messages_in_time_order_iff_fractions :
    InTimeOrder (mergeMessages [] [plainMessage "m1" "2026-09-07T10:00:00.500000Z",
      plainMessage "m2" "2026-09-07T10:00:00.007Z"]) := by
  obtain ⟨-, hhalf, hmillis⟩ := tenOClock_texts
  refine (messages_in_time_order_iff {tenOClock (.micros 500000 (by decide)),
    tenOClock (.millis 7 (by decide))}).2.mpr ?_ [] _ .nil ?_
  · rintro s (rfl | rfl) t (rfl | rfl) ⟨hcut, hlt⟩
    · exact lt_irrefl _ hlt
    · revert hcut
      decide +kernel
    · revert hcut
      decide +kernel
    · exact lt_irrefl _ hlt
  · intro m hm
    rcases List.mem_cons.mp hm with rfl | hm
    · exact ⟨_, Or.inl rfl, hhalf.symm⟩
    · obtain rfl := List.mem_singleton.mp hm
      exact ⟨_, Or.inr rfl, hmillis.symm⟩

/-- A message of half a second later is listed before the message of the full
second. -/
theorem half_a_second_is_listed_first :
    let current := mergeMessages [] [plainMessage "m1" "2026-09-07T10:00:00Z"]
    let incoming := [plainMessage "m2" "2026-09-07T10:00:00.500000Z"]
    Produced Set.univ current ∧ TimedBy Set.univ incoming ∧
      mergeMessages current incoming =
        [plainMessage "m2" "2026-09-07T10:00:00.500000Z",
          plainMessage "m1" "2026-09-07T10:00:00Z"] ∧
      ¬ InTimeOrder (mergeMessages current incoming) := by
  intro current incoming
  obtain ⟨hwhole, hhalf, -⟩ := tenOClock_texts
  have htimed {id text : String} {t : UtcTime} (h : t.text = text) :
      TimedBy Set.univ [plainMessage id text] := by
    intro m hm
    obtain rfl := List.mem_singleton.mp hm
    exact ⟨t, trivial, h.symm⟩
  have hmerged : mergeMessages current incoming =
      [plainMessage "m2" "2026-09-07T10:00:00.500000Z",
        plainMessage "m1" "2026-09-07T10:00:00Z"] := by
    decide +kernel
  refine ⟨.merge .nil (htimed hwhole), htimed hhalf, hmerged, ?_⟩
  rw [hmerged]
  intro horder
  have hfirst := (List.pairwise_cons.mp horder).1 _ List.mem_cons_self
  have hlt := hfirst _ _ hhalf.symm hwhole.symm
  have hafter : (tenOClock .omitted).instant <
      (tenOClock (.micros 500000 (by decide))).instant := by
    decide +kernel
  exact lt_asymm hafter (hlt hafter.ne')

end Time

end Client
end SecureMessenger

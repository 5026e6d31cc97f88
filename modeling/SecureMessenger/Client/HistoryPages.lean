import SecureMessenger.Client.OutgoingRows
import SecureMessenger.Client.ScopeIsolation
import SecureMessenger.Lib.Keyset

/-!
# Pages of the chat history

`readChatHistory` reads the first rows of two indexes and merges them.  Its
pages are the keyset pages of one table, the rows of the chat, whose keys are
the places in the history.
-/

namespace SecureMessenger
namespace Client

open Lib

/-- A row of the chat history. -/
abbrev HistoryRow := MailboxEnvelope ⊕ OutgoingCommand

namespace HistoryRow

/-- The chat of a row. -/
def chat : HistoryRow → String
  | .inl envelope => envelope.chat_id
  | .inr outgoing => outgoing.command.chat_id

/-- The place of a row in the history of its chat: when it was created, and
its id. -/
def place : HistoryRow → List String
  | .inl envelope => [envelope.message_created_at, "envelope:" ++ envelope.id]
  | .inr outgoing =>
      [(outgoing.createdAt.or (outgoing.accepted.map (·.createdAt))).getD "",
        "outgoing:" ++ outgoing.command.client_message_id]

end HistoryRow

/-- Places from the last to the first. -/
abbrev HistoryPlace := (List (List Nat))ᵒᵈ

/-- A place as it is compared. -/
def placeOf (place : List String) : HistoryPlace :=
  OrderDual.toDual (place.map utf16Units)

/-- The key of a row. -/
def rowPlace (row : HistoryRow) : HistoryPlace :=
  placeOf row.place

/-- The place a cursor stands at. -/
def cursorPlace (cursor : ChatHistoryCursor) : HistoryPlace :=
  placeOf [cursor.createdAt, cursor.id]

/-- The rows of a store that belong to a chat. -/
def storeRows {α : Type} (kind : α → HistoryRow) (scope : InboxScope) (chatId : String)
    (rows : List (Stored α)) : List HistoryRow :=
  (rows.filter fun r => decide (r.scope = scopeKey scope ∧ (kind r.value).chat = chatId)).map
    fun r => kind r.value

/-- The rows of a chat. -/
def chatRows (scope : InboxScope) (chatId : String) (db : Database) : List HistoryRow :=
  storeRows .inl scope chatId db.envelopes ++ storeRows .inr scope chatId db.outgoing

/-- The two indexed stores as their writers leave them. -/
structure HistoryStore (db : Database) : Prop where
  envelopesOrdered : Store.Ordered Stored.key db.envelopes
  envelopesKeyed : ∀ r ∈ db.envelopes, r.key = recordKey r.scope r.value.id
  envelopesIndexed : ∀ r ∈ db.envelopes, indexedEnvelope r = r
  outgoingOrdered : Store.Ordered Stored.key db.outgoing
  outgoingKeyed : ∀ r ∈ db.outgoing,
    r.key = recordKey r.scope r.value.command.client_message_id
  outgoingIndexed : ∀ r ∈ db.outgoing, indexedOutgoing r = r

section Pages

variable {scope : InboxScope} {chatId : String} {before : Option ChatHistoryCursor}

theorem placeOf_injective {p q : List String} (h : placeOf p = placeOf q) : p = q :=
  List.map_injective_iff.mpr (fun _ _ => utf16Units_injective) (OrderDual.toDual_inj.mp h)

theorem placeOf_lt_placeOf {p q : List String} : placeOf p < placeOf q ↔ keyLt q p = true := by
  rw [keyLt, decide_eq_true_eq]
  exact OrderDual.toDual_lt_toDual

theorem placeOf_le_placeOf {p q : List String} : placeOf p ≤ placeOf q ↔ keyLt p q = false := by
  rw [← not_lt, placeOf_lt_placeOf, Bool.not_eq_true]

/-- The keys of a chat differ in their places only. -/
theorem keyLt_cons_cons {s c : String} {p q : List String} :
    keyLt (s :: c :: p) (s :: c :: q) = keyLt p q := by
  simp [keyLt]

/-- **The range of the chat.** -/
theorem inHistoryRange_iff {s c : String} {p : List String} {key : String} :
    inHistoryRange key chatId before (s :: c :: p) = true ↔
      (s = key ∧ c = chatId) ∧ ∀ cursor, before = some cursor →
        cursorPlace cursor < placeOf p := by
  have hchat : s = key ∧ c = chatId ↔
      utf16Units s = utf16Units key ∧ utf16Units c = utf16Units chatId :=
    and_congr ⟨congrArg _, utf16Units_injective⟩ ⟨congrArg _, utf16Units_injective⟩
  have hcursor : ∀ cursor, cursorPlace cursor < placeOf p ↔
      p.map utf16Units < [utf16Units cursor.createdAt, utf16Units cursor.id] := by
    intro cursor
    rw [cursorPlace, placeOf_lt_placeOf, keyLt, decide_eq_true_eq]
    rfl
  have hnil : ¬ p.map utf16Units < [] := List.not_lt_nil _
  rw [hchat]
  cases before with
  | none =>
      simp only [inHistoryRange, keyLt, List.map_cons, List.map_nil, List.take_succ_cons,
        List.take_zero, List.cons_lt_cons_iff, hnil, and_false, or_false, Bool.and_eq_true,
        Bool.not_eq_true', decide_eq_false_iff_not, lt_irrefl, reduceCtorEq, false_implies,
        implies_true, and_true, not_or, not_and, not_lt]
      constructor
      · rintro ⟨⟨hs, hc⟩, hs', hc'⟩
        have hkey := le_antisymm hs' hs
        exact ⟨hkey, le_antisymm (hc' hkey.symm) (hc hkey)⟩
      · rintro ⟨hs, hc⟩
        exact ⟨⟨hs.ge, fun _ => hc.ge⟩, hs.le, fun _ => hc.le⟩
  | some cursor =>
      simp only [inHistoryRange, keyLt, List.map_cons, List.map_nil, List.cons_lt_cons_iff, hnil,
        and_false, or_false, Bool.and_eq_true, Bool.not_eq_true', decide_eq_false_iff_not,
        decide_eq_true_eq, Option.some.injEq, forall_eq', not_or, not_and, not_lt]
      rw [hcursor]
      constructor
      · rintro ⟨⟨hs, hc⟩, hlt | ⟨hkey, hrest⟩⟩
        · exact absurd hlt hs.not_gt
        · rcases hrest with hlt | ⟨hchat, hrest⟩
          · exact absurd hlt (hc hkey).not_gt
          · exact ⟨⟨hkey, hchat⟩, hrest⟩
      · rintro ⟨⟨hs, hc⟩, hrest⟩
        exact ⟨⟨hs.ge, fun _ => hc.ge⟩, Or.inr ⟨hs, Or.inr ⟨hc, hrest⟩⟩⟩

/-- The index holds the places of the rows. -/
def IndexesRows {α : Type} (kind : α → HistoryRow) (rows : List (Stored α)) : Prop :=
  ∀ r ∈ rows, r.history = some (r.scope :: (kind r.value).chat :: (kind r.value).place)

/-- The entries in the range of a chat are its rows beyond the cursor. -/
theorem filter_historyIndex {α : Type} {kind : α → HistoryRow} {rows : List (Stored α)}
    (h : IndexesRows kind rows) :
    ((historyIndex kind rows).filter fun entry =>
        inHistoryRange (scopeKey scope) chatId before entry.history) =
      ((rows.filter fun r =>
          decide (r.scope = scopeKey scope ∧ (kind r.value).chat = chatId) &&
            Keyset.beyond rowPlace (before.map cursorPlace) (kind r.value)).map fun r =>
        ⟨scopeKey scope :: chatId :: (kind r.value).place, r.key, kind r.value⟩) := by
  induction rows with
  | nil => rfl
  | cons r rows ih =>
      have hr := h r List.mem_cons_self
      have ih := ih fun r' hr' => h r' (List.mem_cons_of_mem r hr')
      have hbeyond : Keyset.beyond rowPlace (before.map cursorPlace) (kind r.value) = true ↔
          ∀ cursor, before = some cursor →
            cursorPlace cursor < placeOf (kind r.value).place := by
        cases before with
        | none => simp [Keyset.beyond]
        | some cursor =>
            rw [Option.map_some]
            simp only [Option.some.injEq, forall_eq', Keyset.beyond_some, rowPlace]
      simp only [historyIndex, List.filterMap_cons, hr, Option.map_some] at ih ⊢
      by_cases hin : inHistoryRange (scopeKey scope) chatId before
          (r.scope :: (kind r.value).chat :: (kind r.value).place) = true
      · obtain ⟨hchat, hplace⟩ := inHistoryRange_iff.mp hin
        have hkeep : (decide (r.scope = scopeKey scope ∧ (kind r.value).chat = chatId) &&
            Keyset.beyond rowPlace (before.map cursorPlace) (kind r.value)) = true := by
          rw [decide_eq_true hchat, hbeyond.mpr hplace]
          rfl
        simp only [List.filter_cons, hin, hkeep, if_true, List.map_cons, ih]
        rw [hchat.1, hchat.2]
      · have hdrop : ¬ (decide (r.scope = scopeKey scope ∧ (kind r.value).chat = chatId) &&
            Keyset.beyond rowPlace (before.map cursorPlace) (kind r.value)) = true := by
          rw [Bool.and_eq_true, decide_eq_true_eq, hbeyond, ← inHistoryRange_iff]
          exact hin
        simp only [List.filter_cons, hin, hdrop, if_false, ih, Bool.false_eq_true]

/-- The walk is in the order of the keys, from the end. -/
theorem comesBefore_iff {a b : HistoryEntry} :
    a.comesBefore b = true ↔
      toLex (b.history.map utf16Units, utf16Units b.key) ≤
        toLex (a.history.map utf16Units, utf16Units a.key) := by
  rw [HistoryEntry.comesBefore, Bool.or_eq_true, Bool.and_eq_true, Prod.Lex.toLex_le_toLex]
  simp only [keyLt, List.map_cons, List.map_nil, decide_eq_true_eq, Bool.not_eq_true',
    decide_eq_false_iff_not, List.cons_lt_cons_iff, not_lt, lt_irrefl, and_false, or_false]
  constructor
  · rintro (hlt | ⟨hle, hkey⟩)
    · exact Or.inl hlt
    · rcases hle.lt_or_eq with hlt | heq
      · exact Or.inl hlt
      · exact Or.inr ⟨heq, hkey⟩
  · rintro (hlt | ⟨heq, hkey⟩)
    · exact Or.inl hlt
    · exact Or.inr ⟨heq.le, hkey⟩

/-- The entries stand under the places of their rows. -/
def Entries (scope : InboxScope) (chatId : String) (entries : List HistoryEntry) : Prop :=
  ∀ e ∈ entries, e.history = scopeKey scope :: chatId :: HistoryRow.place e.value

theorem Entries.rowPlace_le {entries : List HistoryEntry} (h : Entries scope chatId entries)
    {a b : HistoryEntry} (ha : a ∈ entries) (hb : b ∈ entries) :
    rowPlace a.value ≤ rowPlace b.value ↔ keyLt a.history b.history = false := by
  rw [h a ha, h b hb, keyLt_cons_cons]
  exact placeOf_le_placeOf

/-- **The first entries of an index** are the first rows beyond the cursor. -/
theorem readHistoryEntries_values {α : Type} {kind : α → HistoryRow} {rows : List (Stored α)}
    (h : IndexesRows kind rows)
    (hdistinct : Keyset.Distinct rowPlace (storeRows kind scope chatId rows))
    (before : Option ChatHistoryCursor) (count : Nat) :
    Entries scope chatId (readHistoryEntries (historyIndex kind rows)
        (inHistoryRange (scopeKey scope) chatId before) count) ∧
      (readHistoryEntries (historyIndex kind rows)
        (inHistoryRange (scopeKey scope) chatId before) count).map HistoryEntry.value =
          (Keyset.following rowPlace (before.map cursorPlace)
            (storeRows kind scope chatId rows)).take count := by
  unfold readHistoryEntries
  rw [filter_historyIndex h]
  generalize hentries : (rows.filter _).map _ = entries
  have hplaces : Entries scope chatId entries := by
    intro e he
    rw [← hentries] at he
    obtain ⟨r, -, rfl⟩ := List.mem_map.mp he
    rfl
  have hvalues : entries.map HistoryEntry.value = (storeRows kind scope chatId rows).filter
      (Keyset.beyond rowPlace (before.map cursorPlace)) := by
    rw [← hentries, List.map_map, storeRows, List.filter_map, List.filter_filter]
    congr 1
    exact List.filter_congr fun r _ => Bool.and_comm _ _
  have hperm : (entries.mergeSort HistoryEntry.comesBefore).Perm entries := List.mergeSort_perm _ _
  have hsorted : (entries.mergeSort HistoryEntry.comesBefore).Pairwise
      fun a b => a.comesBefore b = true := by
    refine List.pairwise_mergeSort (fun a b c hab hbc => ?_) (fun a b => ?_) entries
    · rw [comesBefore_iff] at hab hbc ⊢
      exact hbc.trans hab
    · rw [Bool.or_eq_true, comesBefore_iff, comesBefore_iff]
      exact le_total _ _
  have hplaces' : Entries scope chatId (entries.mergeSort HistoryEntry.comesBefore) :=
    fun e he => hplaces e (hperm.mem_iff.mp he)
  refine ⟨fun e he => hplaces' e (List.mem_of_mem_take he), ?_⟩
  rw [List.map_take]
  congr 1
  refine Keyset.eq_following_of_le hdistinct (hvalues ▸ hperm.map _) (List.pairwise_map.mpr ?_)
  refine hsorted.imp_of_mem fun {a b} ha hb hab => ?_
  rw [comesBefore_iff, Prod.Lex.toLex_le_toLex] at hab
  rw [hplaces'.rowPlace_le ha hb, keyLt, decide_eq_false_iff_not, not_lt]
  rcases hab with hlt | ⟨heq, -⟩
  · exact hlt.le
  · exact heq.le

theorem envelope_place_ne {e : MailboxEnvelope} {o : OutgoingCommand} :
    rowPlace (.inl e) ≠ rowPlace (.inr o) := by
  intro h
  have hid := (List.cons.inj (List.cons.inj (placeOf_injective h)).2).1
  have hhead := congrArg (fun s : String => s.toList.head?) hid
  simp at hhead

end Pages

section Store

variable {db : Database} {scope : InboxScope} {chatId : String}

theorem distinct_storeRows {α : Type} {kind : α → HistoryRow} {rows : List (Stored α)}
    (hordered : Store.Ordered Stored.key rows)
    (hkey : ∀ r ∈ rows, ∀ r' ∈ rows, r.scope = r'.scope →
      rowPlace (kind r.value) = rowPlace (kind r'.value) → r.key = r'.key) :
    Keyset.Distinct rowPlace (storeRows kind scope chatId rows) := by
  unfold Keyset.Distinct storeRows
  rw [List.map_map]
  refine List.Nodup.map_on ?_ (List.Nodup.filter _ ?_)
  · intro r hr r' hr' hplace
    simp only [List.mem_filter, decide_eq_true_eq] at hr hr'
    have hsame := hkey r hr.1 r' hr'.1 (hr.2.1.trans hr'.2.1.symm) hplace
    have hget := Store.get_of_mem hordered hr.1
    rw [hsame, Store.get_of_mem hordered hr'.1] at hget
    exact (Option.some.inj hget).symm
  · exact hordered.imp fun hlt he => absurd (congrArg Stored.key he) hlt.ne

namespace HistoryStore

theorem indexesEnvelopes (h : HistoryStore db) : IndexesRows .inl db.envelopes :=
  fun r hr => (congrArg Stored.history (h.envelopesIndexed r hr)).symm

theorem indexesOutgoing (h : HistoryStore db) : IndexesRows .inr db.outgoing :=
  fun r hr => (congrArg Stored.history (h.outgoingIndexed r hr)).symm

/-- No two rows of a chat have the same place. -/
theorem distinct (h : HistoryStore db) (scope : InboxScope) (chatId : String) :
    Keyset.Distinct rowPlace (chatRows scope chatId db) := by
  have henvelopes : Keyset.Distinct rowPlace (storeRows .inl scope chatId db.envelopes) := by
    refine distinct_storeRows h.envelopesOrdered fun r hr r' hr' hscope hplace => ?_
    have hid := (List.cons.inj (List.cons.inj (placeOf_injective hplace)).2).1
    rw [h.envelopesKeyed r hr, h.envelopesKeyed r' hr', hscope, (String.append_right_inj _).mp hid]
  have houtgoing : Keyset.Distinct rowPlace (storeRows .inr scope chatId db.outgoing) := by
    refine distinct_storeRows h.outgoingOrdered fun r hr r' hr' hscope hplace => ?_
    have hid := (List.cons.inj (List.cons.inj (placeOf_injective hplace)).2).1
    rw [h.outgoingKeyed r hr, h.outgoingKeyed r' hr', hscope, (String.append_right_inj _).mp hid]
  unfold Keyset.Distinct chatRows
  rw [List.map_append]
  refine List.Nodup.append henvelopes houtgoing fun p hp hp' => ?_
  simp only [storeRows, List.map_map, List.mem_map] at hp hp'
  obtain ⟨r, -, rfl⟩ := hp
  obtain ⟨r', -, hplace⟩ := hp'
  exact envelope_place_ne hplace.symm

end HistoryStore

/-- The cursor of the next page. -/
def placeCursor (row : HistoryRow) : ChatHistoryCursor :=
  ⟨row.place.getD 0 "", row.place.getD 1 ""⟩

theorem cursorPlace_placeCursor (row : HistoryRow) :
    cursorPlace (placeCursor row) = rowPlace row := by
  cases row <;> rfl

/-- A page as `readChatHistory` returns it. -/
def historyPage (page : Keyset.Page HistoryRow) : ChatHistoryPage :=
  ⟨page.rows.filterMap Sum.getLeft?, page.rows.filterMap Sum.getRight?,
    if page.hasMore then page.rows.getLast?.map placeCursor else none⟩

/-- **Pages of the history.**  `readChatHistory` returns a keyset page of the
rows of the chat. -/
theorem readChatHistory_eq (h : HistoryStore db) (hvalid : valid scope db = true) {limit : ℤ}
    (hlimit : 1 ≤ limit) (hsafe : (JsNumber.integer limit).isSafeInteger = true)
    (before : Option ChatHistoryCursor) :
    readChatHistory scope chatId (.integer limit) before db =
      .ok (historyPage (Keyset.page rowPlace limit.toNat (before.map cursorPlace)
        (chatRows scope chatId db)), db) := by
  have hdistinct := h.distinct scope chatId
  obtain ⟨hplaceL, hvalueL⟩ := readHistoryEntries_values h.indexesEnvelopes
    (hdistinct.sublist ((List.sublist_append_left _ _).map _)) before (limit.toNat + 1)
  obtain ⟨hplaceR, hvalueR⟩ := readHistoryEntries_values h.indexesOutgoing
    (hdistinct.sublist ((List.sublist_append_right _ _).map _)) before (limit.toNat + 1)
  have hchecks : ¬ ((JsNumber.integer limit).isSafeInteger = false ∨ limit < 1) := by
    rw [hsafe]
    simp [hlimit]
  simp only [readChatHistory, if_neg hchecks, validate, hvalid, if_true, bind, Except.bind, pure,
    Except.pure]
  generalize readHistoryEntries (historyIndex .inl db.envelopes) _ _ = left at *
  generalize readHistoryEntries (historyIndex .inr db.outgoing) _ _ = right at *
  generalize hmerged : (left ++ right).mergeSort _ = entries
  have hperm : entries.Perm (left ++ right) := hmerged ▸ List.mergeSort_perm _ _
  have hplaces : Entries scope chatId entries := by
    intro e he
    rcases List.mem_append.mp (hperm.mem_iff.mp he) with he | he
    · exact hplaceL e he
    · exact hplaceR e he
  have hsorted : (entries.map HistoryEntry.value).Pairwise fun a b => rowPlace a ≤ rowPlace b := by
    have hmerge : entries.Pairwise fun a b => (!keyLt a.history b.history) = true := by
      rw [← hmerged]
      refine List.pairwise_mergeSort (fun a b c hab hbc => ?_) (fun a b => ?_) _
      · simp only [keyLt, Bool.not_eq_true', decide_eq_false_iff_not, not_lt] at hab hbc ⊢
        exact hbc.trans hab
      · simp only [keyLt, Bool.or_eq_true, Bool.not_eq_true', decide_eq_false_iff_not, not_lt]
        exact le_total _ _
    refine List.pairwise_map.mpr (hmerge.imp_of_mem fun {a b} ha hb hab => ?_)
    rw [hplaces.rowPlace_le ha hb]
    exact Bool.not_eq_true' _ ▸ hab
  obtain ⟨hrows, hmore⟩ := Keyset.page_append hdistinct (Nat.lt_succ_self limit.toNat)
    (by rw [← hvalueL, ← hvalueR, ← List.map_append]; exact hperm.map _) hsorted
  have hpage : (Keyset.page rowPlace limit.toNat (before.map cursorPlace)
      (chatRows scope chatId db)).rows = (entries.take limit.toNat).map HistoryEntry.value := by
    rw [List.map_take]
    exact hrows.symm
  have hcursor : (entries.take limit.toNat).getLast?.map
        (fun last => ChatHistoryCursor.mk (last.history.getD 2 "") (last.history.getD 3 "")) =
      ((entries.take limit.toNat).map HistoryEntry.value).getLast?.map placeCursor := by
    rw [List.getLast?_map, Option.map_map]
    refine Option.map_congr fun last hlast => ?_
    rw [hplaces last (List.mem_of_mem_take (List.mem_of_getLast? hlast))]
    rfl
  rw [List.length_map] at hmore
  rw [historyPage, hpage, List.filterMap_map, List.filterMap_map, hcursor, if_congr hmore rfl rfl]
  rfl

end Store

end Client
end SecureMessenger

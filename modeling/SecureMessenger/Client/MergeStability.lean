import SecureMessenger.Client.MergeRows

/-!
# Merging a batch again

A merged list is sorted, the same batch changes it no more, and a row keeps its
creation time.  Only a pending row can go, and then the accepted row of its
command stands in its place.
-/

namespace SecureMessenger
namespace Client

open Lib

section OneRow

variable {a b m : DisplayMessage} {updates : List DisplayMessage}

theorem absorbRow_congr (h : ReadsAs a b) (u : DisplayMessage) :
    ReadsAs (absorbRow a u) (absorbRow b u) := by
  by_cases hskip : isSettled a = true ∧ isPending u
  · rw [absorbRow_skip hskip.1 hskip.2, absorbRow_skip (h.isSettled ▸ hskip.1) hskip.2]
    exact h
  · have hskip' : ¬(isSettled b = true ∧ isPending u) := by
      rw [← h.isSettled]
      exact hskip
    exact (absorbRow_readsAs hskip).trans ((nextMessage_readsAs h u).trans
      (absorbRow_readsAs hskip').symm)

theorem foldl_absorbRow_congr (h : ReadsAs a b) :
    ReadsAs (updates.foldl absorbRow a) (updates.foldl absorbRow b) := by
  induction updates generalizing a b with
  | nil => exact h
  | cons u rest ih => exact ih (absorbRow_congr h u)

/-- The update a row began with changes it no more. -/
theorem absorbRow_self (u : DisplayMessage) :
    ReadsAs (absorbRow (nextMessage none u) u) (nextMessage none u) := by
  by_cases hskip : isSettled (nextMessage none u) = true ∧ isPending u
  · rw [absorbRow_skip hskip.1 hskip.2]
    exact ReadsAs.refl _
  · exact (absorbRow_readsAs hskip).trans (nextMessage_self u)

theorem foldl_absorbUpdate_some :
    updates.foldl (fun prior u => some (absorbUpdate prior u)) (some m) =
      some (updates.foldl absorbRow m) := by
  induction updates generalizing m with
  | nil => rfl
  | cons u rest ih => exact ih

/-- A second pass over the updates of a row, which the first pass may have
added to the list. -/
theorem absorb_again (prior : Option DisplayMessage)
    (hstatus : ∀ u ∈ updates, ∀ v ∈ updates, isPending u → ¬isPending v →
      v.status.get.isSome) :
    ((updates.foldl (fun prior u => some (absorbUpdate prior u))
      (updates.foldl (fun prior u => some (absorbUpdate prior u)) prior)).map
        DisplayMessage.asRead) =
      (updates.foldl (fun prior u => some (absorbUpdate prior u)) prior).map
        DisplayMessage.asRead := by
  cases prior with
  | some m =>
      rw [foldl_absorbUpdate_some, foldl_absorbUpdate_some]
      exact congrArg some (readsAs_iff.mp (absorb_absorb m hstatus))
  | none =>
      cases updates with
      | nil => rfl
      | cons u rest =>
          have hfirst : (u :: rest).foldl (fun prior u => some (absorbUpdate prior u)) none =
              some (rest.foldl absorbRow (nextMessage none u)) := foldl_absorbUpdate_some
          rw [hfirst, foldl_absorbUpdate_some]
          refine congrArg some (readsAs_iff.mp ?_)
          -- the first update can as well be merged into the row it began
          have hbegin : ReadsAs ((u :: rest).foldl absorbRow (nextMessage none u))
              (rest.foldl absorbRow (nextMessage none u)) :=
            foldl_absorbRow_congr (absorbRow_self u)
          exact (foldl_absorbRow_congr hbegin.symm).trans
            ((absorb_absorb (nextMessage none u) hstatus).trans hbegin)

theorem foldl_absorbRow_createdAt (m : DisplayMessage) (updates : List DisplayMessage) :
    (updates.foldl absorbRow m).createdAt = m.createdAt := by
  induction updates generalizing m with
  | nil => rfl
  | cons u rest ih =>
      rw [List.foldl_cons, ih]
      unfold absorbRow
      split_ifs
      · rfl
      · rfl
      · rfl

theorem foldl_absorbRow_settled (updates : List DisplayMessage) (h : isSettled m = true) :
    isSettled (updates.foldl absorbRow m) = true := by
  induction updates generalizing m with
  | nil => exact h
  | cons u rest ih =>
      refine ih ?_
      unfold absorbRow
      split_ifs
      · exact h
      · exact h
      · exact isSettled_next h

end OneRow

section TwoLists

variable {twice : String → Bool} {us : Set DisplayMessage} {list list' : List DisplayMessage}
  {rows rows' : Subject → Option DisplayMessage}

/-- The updates of different rows have different tie-break keys. -/
def TiesBroken (twice : String → Bool) (us : Set DisplayMessage) : Prop :=
  ∀ u ∈ us, ∀ v ∈ us, rowOf twice u ≠ rowOf twice v → sortKey u ≠ sortKey v

theorem orderKey_asRead (m : DisplayMessage) : orderKey m.asRead = orderKey m := by
  have hread : ReadsAs m.asRead m := by
    constructor <;> simp [DisplayMessage.asRead]
  unfold orderKey
  rw [hread.sortKey, hread.createdAt]

theorem Sorted.asRead (h : Sorted list) : Sorted (list.map DisplayMessage.asRead) := by
  unfold Sorted at h ⊢
  rw [List.pairwise_map]
  refine h.imp ?_
  intro a b hab
  rw [messageLe_iff] at hab ⊢
  rw [orderKey_asRead, orderKey_asRead]
  exact hab

theorem Lists.nodup_asRead (h : Lists list rows) : (list.map DisplayMessage.asRead).Nodup := by
  refine List.Nodup.of_map DisplayMessage.messageId ?_
  rw [List.map_map]
  exact h.nodup

theorem Lists.mem_asRead (h : Lists list rows) {n : DisplayMessage} :
    n ∈ list.map DisplayMessage.asRead ↔
      ∃ r, (rows r).map DisplayMessage.asRead = some n := by
  simp only [List.mem_map, Option.map_eq_some_iff, h.mem]
  constructor
  · rintro ⟨m, ⟨r, hr⟩, hread⟩
    exact ⟨r, m, hr, hread⟩
  · rintro ⟨r, m, hr, hread⟩
    exact ⟨m, ⟨r, hr⟩, hread⟩

/-- Sorted lists of the same rows, as they are read, are the same. -/
theorem Lists.eq_of_rows (h : Lists list rows) (h' : Lists list' rows')
    (hfit : RowsFit twice us rows) (hfit' : RowsFit twice us rows') (hties : TiesBroken twice us)
    (hsorted : Sorted list) (hsorted' : Sorted list')
    (hrows : ∀ r, (rows r).map DisplayMessage.asRead = (rows' r).map DisplayMessage.asRead) :
    list.map DisplayMessage.asRead = list'.map DisplayMessage.asRead := by
  have hperm : (list.map DisplayMessage.asRead).Perm (list'.map DisplayMessage.asRead) := by
    refine (List.perm_ext_iff_of_nodup h.nodup_asRead h'.nodup_asRead).mpr fun n => ?_
    simp only [h.mem_asRead, h'.mem_asRead, hrows]
  refine hperm.eq_of_pairwise ?_ hsorted.asRead hsorted'.asRead
  intro a b ha hb hab hba
  obtain ⟨m, hm, rfl⟩ := List.mem_map.mp ha
  obtain ⟨n, hn, rfl⟩ := List.mem_map.mp hb
  rw [messageLe_iff, orderKey_asRead, orderKey_asRead] at hab hba
  -- equal in the order means one tie-break key, that is one row
  have hkey : sortKey m = sortKey n := by
    have horder := le_antisymm hab hba
    exact utf16Units_injective (Prod.ext_iff.mp (toLex_inj.mp horder)).2
  have hmrow := h.at_row hfit hm
  have hnrow := h'.at_row hfit' hn
  obtain ⟨u, hu, hurow, hukey⟩ := (hfit.fits _ _ hmrow).ordered
  obtain ⟨v, hv, hvrow, hvkey⟩ := (hfit'.fits _ _ hnrow).ordered
  have hrow : rowOf twice m = rowOf twice n := by
    by_contra hne
    refine hties u hu v hv ?_ (hukey.trans (hkey.trans hvkey.symm))
    rw [hurow, hvrow]
    exact hne
  have hread := hrows (rowOf twice m)
  rw [hmrow, hrow, hnrow] at hread
  exact Option.some.inj hread

/-- A list in which nothing is set to `undefined` is as it is read. -/
theorem Lists.asRead_eq (h : Lists list rows) (hfit : RowsFit twice us rows)
    (hall : ∀ u ∈ us, Defined u) : list.map DisplayMessage.asRead = list := by
  have hid : ∀ m ∈ list, DisplayMessage.asRead m = id m := fun m hm =>
    ((hfit.fits _ _ (h.at_row hfit hm)).defined hall).asRead
  rw [List.map_congr_left hid, List.map_id]

end TwoLists

section Batches

variable {current incoming : List DisplayMessage}

/-- **Main result.**  A list with distinct ids, sorted, and a batch, together
identity-consistent: the merged list is sorted, merging the batch again gives
an equal list, and each row is still there with its creation time, unless it was
pending and the accepted row of its command took its place and its creation
time. -/
theorem merging_is_stable
    (hnodup : (current.map DisplayMessage.messageId).Nodup) (hsorted : Sorted current)
    (hus : IdentityConsistent {u | u ∈ current ++ incoming})
    (hmix : Unmixed {u | u ∈ current ++ incoming})
    (hstatus : ∀ u ∈ current ++ incoming, ∀ v ∈ current ++ incoming,
      u.messageId = v.messageId → isPending u → ¬isPending v → v.status.get.isSome)
    (hties : TiesBroken (listedTwice current) {u | u ∈ current ++ incoming}) :
    Sorted (mergeMessages current incoming) ∧
      (mergeMessages (mergeMessages current incoming) incoming).map DisplayMessage.asRead =
        (mergeMessages current incoming).map DisplayMessage.asRead ∧
      ((∀ u ∈ current ++ incoming, Defined u) →
        mergeMessages (mergeMessages current incoming) incoming =
          mergeMessages current incoming) ∧
      ∀ m ∈ current,
        (∃ n ∈ mergeMessages current incoming,
          n.messageId = m.messageId ∧ n.createdAt = m.createdAt) ∨
        (isPending m ∧ ∃ n ∈ mergeMessages current incoming,
          (commandKey m).isSome ∧ commandKey n = commandKey m ∧
            n.status.get.isSome ∧ ¬isPending n ∧ n.createdAt = m.createdAt) := by
  have hcurrent : ∀ u ∈ current, u ∈ {u | u ∈ current ++ incoming} :=
    fun u hu => List.mem_append_left _ hu
  have hincoming : ∀ u ∈ incoming, u ∈ {u | u ∈ current ++ incoming} :=
    fun u hu => List.mem_append_right _ hu
  obtain ⟨hlists, hfit⟩ := lists_rowsIn hus hnodup hcurrent
  obtain ⟨hlists₁, hfit₁⟩ := hlists.merge hus hmix hfit hincoming
  obtain ⟨hlists₂, hfit₂⟩ := hlists₁.merge hus hmix hfit₁ hincoming
  have hsorted₁ : Sorted (mergeMessages current incoming) := hsorted.mergeMessages incoming
  have hsorted₂ := hsorted₁.mergeMessages incoming
  -- the updates of one row have statuses as soon as one of them is pending
  have hrows : ∀ r, ((absorbAll (listedTwice current) incoming
      (absorbAll (listedTwice current) incoming (rowsIn current))) r).map
        DisplayMessage.asRead =
      (absorbAll (listedTwice current) incoming (rowsIn current) r).map
        DisplayMessage.asRead := by
    intro r
    refine absorb_again _ ?_
    intro u hu v hv hpu hpv
    obtain ⟨hu, hur⟩ := List.mem_filter.mp hu
    obtain ⟨hv, hvr⟩ := List.mem_filter.mp hv
    have hrow : rowOf (listedTwice current) u = rowOf (listedTwice current) v :=
      (of_decide_eq_true hur).trans (of_decide_eq_true hvr).symm
    have hfits : Fits (listedTwice current) {u | u ∈ current ++ incoming} u :=
      fits_self (hincoming u hu)
    obtain ⟨hkey, hid | ⟨key, hsome, -⟩⟩ := hfits.of_row hus (hincoming v hv) hrow
    · exact hstatus u (hincoming u hu) v (hincoming v hv) hid hpu hpv
    · exact hus.hasStatus u (hincoming u hu) v (hincoming v hv) hpu
        (by rw [hkey, hsome]; rfl) hpv hkey
  have hagain := hlists₂.eq_of_rows hlists₁ hfit₂ hfit₁ hties hsorted₂ hsorted₁ hrows
  refine ⟨hsorted₁, hagain, fun hall => ?_, fun m hm => ?_⟩
  · rw [hlists₂.asRead_eq hfit₂ hall, hlists₁.asRead_eq hfit₁ hall] at hagain
    exact hagain
  · -- the row of the message, after its updates
    have hrow := hlists.at_row hfit hm
    have hn : absorbAll (listedTwice current) incoming (rowsIn current)
        (rowOf (listedTwice current) m) =
          some ((incoming.filter fun u => decide (rowOf (listedTwice current) u =
            rowOf (listedTwice current) m)).foldl absorbRow m) := by
      unfold absorbAll
      rw [hrow, foldl_absorbUpdate_some]
    have hkept := fun hm : isSettled m = true => foldl_absorbRow_settled
      (incoming.filter fun u => decide (rowOf (listedTwice current) u =
        rowOf (listedTwice current) m)) hm
    have hcreated := foldl_absorbRow_createdAt m
      (incoming.filter fun u => decide (rowOf (listedTwice current) u =
        rowOf (listedTwice current) m))
    generalize (incoming.filter fun u => decide (rowOf (listedTwice current) u =
      rowOf (listedTwice current) m)).foldl absorbRow m = n at hn hkept hcreated
    have hmem := (hlists₁.mem n).mpr ⟨_, hn⟩
    have hfits := hfit₁.fits _ n hn
    obtain ⟨hkey, hid⟩ := hfits.of_row hus (hcurrent m hm) (hfit₁.row _ n hn)
    by_cases hsame : n.messageId = m.messageId
    · exact Or.inl ⟨n, hmem, hsame, hcreated⟩
    · right
      obtain hid | ⟨key, hsome, -⟩ := hid
      · exact absurd hid hsame
      · obtain ⟨w, hw, hwid, hwkey, hwstate⟩ := hfits.source
        have hnsome : (commandKey n).isSome := by rw [hkey, hsome]; rfl
        have hwsome : (commandKey w).isSome := hwkey ▸ hnsome
        have hwm : commandKey w = commandKey m := hwkey.trans hkey
        obtain ⟨hwpending, hwstatus⟩ := hwstate hnsome
        have hne : w.messageId ≠ m.messageId := hwid ▸ hsame
        have hmp : isPending m := by
          by_contra hmp
          by_cases hwp : isPending w
          · -- a settled row does not become pending
            have hmstatus := hus.hasStatus w hw m (hcurrent m hm) hwp hwsome hmp hwm
            exact (isSettled_iff.mp (hkept (isSettled_iff.mpr ⟨hmstatus, hmp⟩))).2
              (hwpending.mp hwp)
          · exact hne (hus.server w hw m (hcurrent m hm) hwp hmp hwsome hwm)
        have hwp : ¬isPending w := fun hwp =>
          hne (hus.optimistic w hw m (hcurrent m hm) hwp hmp hwsome hwm)
        refine ⟨hmp, n, hmem, ?_, hkey, ?_, fun hnp => hwp (hwpending.mpr hnp), hcreated⟩
        · rw [← hkey]
          exact hnsome
        · exact hwstatus (hus.hasStatus m (hcurrent m hm) w hw hmp (hwm ▸ hwsome) hwp hwm.symm)

/-- A pending row, and the accepted message of its command. -/
theorem merging_is_stable_accepted :
    ∃ n ∈ mergeMessages [optimisticUpdate] [acceptedUpdate],
      commandKey n = commandKey optimisticUpdate ∧ n.createdAt = optimisticUpdate.createdAt := by
  have hus : IdentityConsistent {u | u ∈ [optimisticUpdate] ++ [acceptedUpdate]} := by
    constructor <;>
      (change ∀ u ∈ [optimisticUpdate, acceptedUpdate],
        ∀ v ∈ [optimisticUpdate, acceptedUpdate], _) <;>
      decide
  have hmix : Unmixed {u | u ∈ [optimisticUpdate] ++ [acceptedUpdate]} := by
    change ∀ u ∈ [optimisticUpdate, acceptedUpdate], ∀ v ∈ [optimisticUpdate, acceptedUpdate], _
    decide
  have hties : TiesBroken (listedTwice [optimisticUpdate])
      {u | u ∈ [optimisticUpdate] ++ [acceptedUpdate]} := by
    change ∀ u ∈ [optimisticUpdate, acceptedUpdate], ∀ v ∈ [optimisticUpdate, acceptedUpdate], _
    decide
  have hnodup : ([optimisticUpdate].map DisplayMessage.messageId).Nodup := List.nodup_singleton _
  have hsorted : Sorted [optimisticUpdate] := List.pairwise_singleton _ _
  have hmain := (merging_is_stable hnodup hsorted hus hmix (by decide) hties).2.2.2
    optimisticUpdate (List.mem_singleton_self _)
  rcases hmain with ⟨n, hn, hid, -⟩ | ⟨-, n, hn, -, hkey, -, -, hcreated⟩
  · have hgone : ∀ n ∈ mergeMessages [optimisticUpdate] [acceptedUpdate],
        n.messageId ≠ optimisticUpdate.messageId := by
      decide
    exact absurd hid (hgone n hn)
  · exact ⟨n, hn, hkey, hcreated⟩

/-- Updates of one message without a command: the first has no status, the
second is pending, the third is accepted. -/
def unsentUpdate (chatSeq : Property Nat) (status : Property MessageStatus) : DisplayMessage where
  messageId := "m3"
  chatId := "chat"
  senderUserId := "alice"
  content := "hello"
  createdAt := "2026-01-01T00:00:00Z"
  chatSeq := chatSeq
  status := status

/-- Updates of one message, of which one sets a property to `undefined`. -/
def unsetUpdate (content : String) (historyId : Property String) : DisplayMessage where
  messageId := "m4"
  chatId := "chat"
  senderUserId := "alice"
  content := content
  createdAt := "2026-01-01T00:00:00Z"
  historyId := historyId

/-- Merging a batch again changes the list: first, if two updates without a
command key merge into a row that has one; then, if an update without status
comes before a pending one of the same message; and a property set to
`undefined` appears in the place of an absent one. -/
theorem merging_again_changes_lists :
    (IdentityConsistent
        {u | u ∈ [acceptedUpdate, clientIdUpdate, deviceUpdate, optimisticUpdate]} ∧
      TiesBroken (listedTwice [])
        {u | u ∈ [acceptedUpdate, clientIdUpdate, deviceUpdate, optimisticUpdate]} ∧
      (mergeMessages (mergeMessages []
          [acceptedUpdate, clientIdUpdate, deviceUpdate, optimisticUpdate])
          [acceptedUpdate, clientIdUpdate, deviceUpdate, optimisticUpdate]).map
            DisplayMessage.messageId = ["m1", "pending:c"] ∧
      (mergeMessages []
          [acceptedUpdate, clientIdUpdate, deviceUpdate, optimisticUpdate]).map
            DisplayMessage.messageId = ["m1", "m2"]) ∧
    (IdentityConsistent {u | u ∈ [unsentUpdate (.value 1) .absent,
        unsentUpdate (.value 2) (.value .pending), unsentUpdate .absent (.value .accepted)]} ∧
      TiesBroken (listedTwice []) {u | u ∈ [unsentUpdate (.value 1) .absent,
        unsentUpdate (.value 2) (.value .pending), unsentUpdate .absent (.value .accepted)]} ∧
      (mergeMessages (mergeMessages [] [unsentUpdate (.value 1) .absent,
          unsentUpdate (.value 2) (.value .pending), unsentUpdate .absent (.value .accepted)])
          [unsentUpdate (.value 1) .absent, unsentUpdate (.value 2) (.value .pending),
            unsentUpdate .absent (.value .accepted)]).map (fun m => m.chatSeq.get) = [some 1] ∧
      (mergeMessages [] [unsentUpdate (.value 1) .absent,
          unsentUpdate (.value 2) (.value .pending),
          unsentUpdate .absent (.value .accepted)]).map (fun m => m.chatSeq.get) = [some 2]) ∧
    mergeMessages (mergeMessages [unsetUpdate "a" .absent]
        [unsetUpdate "a" .undefined, unsetUpdate "b" .absent])
        [unsetUpdate "a" .undefined, unsetUpdate "b" .absent] = [unsetUpdate "b" .undefined] ∧
      mergeMessages [unsetUpdate "a" .absent]
        [unsetUpdate "a" .undefined, unsetUpdate "b" .absent] = [unsetUpdate "b" .absent] := by
  refine ⟨⟨?_, ?_, by decide, by decide +kernel⟩,
    ⟨?_, ?_, by decide, by decide +kernel⟩, by decide +kernel, by decide +kernel⟩
  · constructor <;>
      (change ∀ u ∈ [acceptedUpdate, clientIdUpdate, deviceUpdate, optimisticUpdate],
        ∀ v ∈ [acceptedUpdate, clientIdUpdate, deviceUpdate, optimisticUpdate], _) <;>
      decide
  · change ∀ u ∈ [acceptedUpdate, clientIdUpdate, deviceUpdate, optimisticUpdate],
      ∀ v ∈ [acceptedUpdate, clientIdUpdate, deviceUpdate, optimisticUpdate], _
    decide
  · constructor <;>
      (change ∀ u ∈ [unsentUpdate (.value 1) .absent, unsentUpdate (.value 2) (.value .pending),
          unsentUpdate .absent (.value .accepted)],
        ∀ v ∈ [unsentUpdate (.value 1) .absent, unsentUpdate (.value 2) (.value .pending),
          unsentUpdate .absent (.value .accepted)], _) <;>
      decide
  · change ∀ u ∈ [unsentUpdate (.value 1) .absent, unsentUpdate (.value 2) (.value .pending),
        unsentUpdate .absent (.value .accepted)],
      ∀ v ∈ [unsentUpdate (.value 1) .absent, unsentUpdate (.value 2) (.value .pending),
        unsentUpdate .absent (.value .accepted)], _
    decide

end Batches

end Client
end SecureMessenger

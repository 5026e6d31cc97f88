import Mathlib.Data.List.Sort
import Mathlib.Data.List.Nodup

/-!
# Keyset pages

A page holds the first rows whose keys lie beyond a cursor, and says whether
there are more; the cursor of the next page is the key of its last row.  A walk
reads page after page until there are no more.  The table may change between
two pages: a row that keeps its key is still found, once.
-/

namespace SecureMessenger
namespace Lib
namespace Keyset

universe u v

variable {κ : Type u} {ρ : Type v} [LinearOrder κ] (key : ρ → κ)

/-- The row lies beyond the cursor; without a cursor every row does. -/
def beyond (after : Option κ) (r : ρ) : Bool :=
  match after with
  | none => true
  | some k => decide (k < key r)

/-- The rows beyond a cursor, in the order of their keys. -/
def following (after : Option κ) (rows : List ρ) : List ρ :=
  (rows.filter (beyond key after)).insertionSort fun a b => key a ≤ key b

/-- The first rows beyond a cursor, and whether there are more. -/
structure Page (ρ : Type v) where
  rows : List ρ
  hasMore : Bool

/-- A page of a table; one row more than its limit is looked up. -/
def page (limit : Nat) (after : Option κ) (rows : List ρ) : Page ρ :=
  let found := (following key after rows).take (limit + 1)
  ⟨found.take limit, decide (limit < found.length)⟩

/-- The pages that are read one after the other, each from the table as it is
then. -/
inductive Walk (limit : Nat) : Option κ → List (List ρ) → List (List ρ) → Prop
  | last {after : Option κ} {table : List ρ} (h : (page key limit after table).hasMore = false) :
      Walk limit after [table] [(page key limit after table).rows]
  | next {after : Option κ} {table : List ρ} {tables pages : List (List ρ)} {r : ρ}
      (h : (page key limit after table).hasMore = true)
      (hr : (page key limit after table).rows.getLast? = some r)
      (rest : Walk limit (some (key r)) tables pages) :
      Walk limit after (table :: tables) ((page key limit after table).rows :: pages)

/-- The rows have different keys. -/
def Distinct (rows : List ρ) : Prop :=
  (rows.map key).Nodup

variable {key} {limit : Nat} {after : Option κ} {rows : List ρ}

@[simp] theorem beyond_none {r : ρ} : beyond key none r = true := rfl

@[simp] theorem beyond_some {k : κ} {r : ρ} : beyond key (some k) r = true ↔ k < key r :=
  decide_eq_true_iff

theorem mem_following {r : ρ} :
    r ∈ following key after rows ↔ r ∈ rows ∧ beyond key after r = true := by
  unfold following
  rw [List.mem_insertionSort, List.mem_filter]

theorem following_perm : (following key after rows).Perm (rows.filter (beyond key after)) :=
  List.perm_insertionSort _ _

/-- The rows stand in strictly increasing order. -/
theorem following_sorted (h : Distinct key rows) :
    (following key after rows).Pairwise fun a b => key a < key b := by
  have hle : (following key after rows).Pairwise fun a b => key a ≤ key b :=
    List.pairwise_insertionSort _ _
  have hnodup : ((following key after rows).map key).Nodup :=
    (following_perm.map key).nodup_iff.mpr (h.sublist (List.filter_sublist.map key))
  have hne : (following key after rows).Pairwise fun a b => key a ≠ key b :=
    List.pairwise_map.mp hnodup
  exact (hle.and hne).imp fun hab => lt_of_le_of_ne hab.1 hab.2

/-- Only one list with these rows is sorted. -/
theorem eq_of_sorted {l l' : List ρ} (hperm : l.Perm l')
    (h : l.Pairwise fun a b => key a < key b) (h' : l'.Pairwise fun a b => key a < key b) :
    l = l' := by
  have hasymm : ∀ a b, a ∈ l → b ∈ l' → key a < key b → key b < key a → a = b :=
    fun a b _ _ hab hba => absurd hab (lt_asymm hba)
  exact hperm.eq_of_pairwise hasymm h h'

theorem eq_following {l : List ρ} (hperm : l.Perm (rows.filter (beyond key after)))
    (h : l.Pairwise fun a b => key a < key b) : l = following key after rows := by
  have hnodup : ((rows.filter (beyond key after)).map key).Nodup :=
    (hperm.map key).nodup_iff.mp (List.pairwise_map.mpr (h.imp fun hab => hab.ne))
  refine eq_of_sorted (hperm.trans following_perm.symm) h ?_
  have hle : (following key after rows).Pairwise fun a b => key a ≤ key b :=
    List.pairwise_insertionSort _ _
  have hne : (following key after rows).Pairwise fun a b => key a ≠ key b :=
    List.pairwise_map.mp ((following_perm.map key).nodup_iff.mpr hnodup)
  exact (hle.and hne).imp fun hab => lt_of_le_of_ne hab.1 hab.2

theorem eq_following_of_le (hrows : Distinct key rows) {l : List ρ}
    (hperm : l.Perm (rows.filter (beyond key after)))
    (h : l.Pairwise fun a b => key a ≤ key b) : l = following key after rows := by
  have hnodup : (l.map key).Nodup :=
    (hperm.map key).nodup_iff.mpr (List.Nodup.sublist (List.filter_sublist.map key) hrows)
  have hne : l.Pairwise fun a b => key a ≠ key b := List.pairwise_map.mp hnodup
  exact eq_following hperm ((h.and hne).imp fun hab => lt_of_le_of_ne hab.1 hab.2)

/-- How many rows lie beyond a cursor depends only on the keys. -/
theorem length_following :
    (following key after rows).length = (rows.map key).countP (beyond id after) := by
  rw [following_perm.length_eq, List.countP_map, List.countP_eq_length_filter]
  rfl

theorem page_rows : (page key limit after rows).rows = (following key after rows).take limit := by
  show ((following key after rows).take (limit + 1)).take limit = _
  rw [List.take_take, min_eq_left (Nat.le_succ limit)]

theorem page_hasMore : (page key limit after rows).hasMore = true ↔
    limit < (following key after rows).length := by
  unfold page
  rw [decide_eq_true_eq, List.length_take]
  omega

theorem length_page : (page key limit after rows).rows.length ≤ limit := by
  rw [page_rows, List.length_take]
  exact min_le_left _ _

/-- A page that is not the last is full. -/
theorem length_page_of_hasMore (h : (page key limit after rows).hasMore = true) :
    (page key limit after rows).rows.length = limit := by
  rw [page_hasMore] at h
  rw [page_rows, List.length_take]
  omega

theorem beyond_trans {r r' : ρ} (h : beyond key after r = true) (hlt : key r < key r') :
    beyond key after r' = true := by
  unfold beyond at h ⊢
  cases after with
  | none => rfl
  | some k => exact decide_eq_true ((of_decide_eq_true h).trans hlt)

/-- The rows beyond a row that lies beyond the cursor. -/
theorem following_beyond (hrows : Distinct key rows) {r : ρ} (hr : beyond key after r = true) :
    following key (some (key r)) rows =
      (following key after rows).filter (beyond key (some (key r))) := by
  refine (eq_following ?_ ((following_sorted hrows).filter _)).symm
  refine (following_perm.filter _).trans ?_
  rw [List.filter_filter]
  refine List.Perm.of_eq (List.filter_congr fun r' _ => ?_)
  cases hlt : beyond key (some (key r)) r' with
  | false => rfl
  | true => rw [beyond_trans hr (of_decide_eq_true hlt), Bool.and_true]

/-- **The next page begins where the page ends.** -/
theorem following_last (hrows : Distinct key rows) {r : ρ}
    (hr : (page key limit after rows).rows.getLast? = some r) :
    following key (some (key r)) rows = (following key after rows).drop limit := by
  rw [page_rows] at hr
  have hmem : r ∈ (following key after rows).take limit := List.mem_of_getLast? hr
  rw [following_beyond hrows (mem_following.mp (List.mem_of_mem_take hmem)).2]
  have hsorted : (following key after rows).Pairwise fun a b => key a < key b :=
    following_sorted hrows
  rw [← List.take_append_drop limit (following key after rows)] at hsorted
  obtain ⟨htake, -, hacross⟩ := List.pairwise_append.mp hsorted
  obtain ⟨init, hinit⟩ := List.getLast?_eq_some_iff.mp hr
  conv_lhs => rw [← List.take_append_drop limit (following key after rows)]
  rw [List.filter_append, List.filter_eq_nil_iff.mpr, List.filter_eq_self.mpr, List.nil_append]
  · exact fun r' hr' => decide_eq_true (hacross r hmem r' hr')
  · -- the rows of the page are not beyond its last one
    intro r' hr'
    rw [hinit] at htake hr'
    rw [beyond, decide_eq_true_eq, not_lt]
    rcases List.mem_append.mp hr' with hr' | hr'
    · exact ((List.pairwise_append.mp htake).2.2 r' hr' r (List.mem_singleton_self r)).le
    · rw [List.mem_singleton.mp hr']

variable (limit) in
/-- A row beyond the cursor is on the page, or beyond the cursor of the next
page. -/
theorem mem_page_or_beyond (hrows : Distinct key rows) {r : ρ} (hr : r ∈ rows)
    (hbeyond : beyond key after r = true) :
    r ∈ (page key limit after rows).rows ∨ ((page key limit after rows).hasMore = true ∧
      ∀ r', (page key limit after rows).rows.getLast? = some r' →
        beyond key (some (key r')) r = true) := by
  have hmem : r ∈ following key after rows := mem_following.mpr ⟨hr, hbeyond⟩
  rw [← List.take_append_drop limit (following key after rows)] at hmem
  rcases List.mem_append.mp hmem with hpage | hrest
  · left
    rw [page_rows]
    exact hpage
  · right
    refine ⟨page_hasMore.mpr ?_, fun r' hlast => ?_⟩
    · have hlength := List.length_pos_of_mem hrest
      rw [List.length_drop] at hlength
      omega
    · rw [← following_last hrows hlast] at hrest
      exact (mem_following.mp hrest).2

/-! ## Walks -/

section Walks

variable {tables pages : List (List ρ)}

/-- Every row of a page was in the table. -/
theorem mem_page {r : ρ} (h : r ∈ (page key limit after rows).rows) :
    r ∈ rows ∧ beyond key after r = true := by
  rw [page_rows] at h
  exact mem_following.mp (List.mem_of_mem_take h)

/-- A walk returns only rows that it has read. -/
theorem Walk.sound (h : Walk key limit after tables pages) :
    ∀ r ∈ pages.flatten, ∃ table ∈ tables, r ∈ table := by
  induction h with
  | @last after table h =>
      intro r hr
      rw [List.flatten_singleton] at hr
      exact ⟨table, List.mem_singleton_self table, (mem_page hr).1⟩
  | @next after table tables pages r h hlast rest ih =>
      intro r' hr'
      rw [List.flatten_cons, List.mem_append] at hr'
      rcases hr' with hr' | hr'
      · exact ⟨table, List.mem_cons_self, (mem_page hr').1⟩
      · obtain ⟨table', htable', hmem⟩ := ih r' hr'
        exact ⟨table', List.mem_cons_of_mem _ htable', hmem⟩

/-- **The rows come in strictly increasing order**, so none comes twice. -/
theorem Walk.sorted (h : Walk key limit after tables pages)
    (hdistinct : ∀ table ∈ tables, Distinct key table) :
    pages.flatten.Pairwise (fun a b => key a < key b) ∧
      ∀ r ∈ pages.flatten, beyond key after r = true := by
  induction h with
  | @last after table h =>
      rw [List.flatten_singleton]
      refine ⟨?_, fun r hr => (mem_page hr).2⟩
      rw [page_rows]
      exact (following_sorted (hdistinct table (List.mem_singleton_self table))).take
  | @next after table tables pages r h hlast rest ih =>
      obtain ⟨hsorted, hbeyond⟩ := ih fun t ht => hdistinct t (List.mem_cons_of_mem _ ht)
      have hpage : (page key limit after table).rows.Pairwise fun a b => key a < key b := by
        rw [page_rows]
        exact (following_sorted (hdistinct table List.mem_cons_self)).take
      have hr : beyond key after r = true := (mem_page (List.mem_of_getLast? hlast)).2
      rw [List.flatten_cons]
      constructor
      · refine List.pairwise_append.mpr ⟨hpage, hsorted, fun a ha b hb => ?_⟩
        have hrb : key r < key b := of_decide_eq_true (hbeyond b hb)
        obtain ⟨init, hinit⟩ := List.getLast?_eq_some_iff.mp hlast
        rw [hinit] at hpage ha
        rcases List.mem_append.mp ha with ha | ha
        · exact ((List.pairwise_append.mp hpage).2.2 a ha r (List.mem_singleton_self r)).trans hrb
        · rw [List.mem_singleton.mp ha]
          exact hrb
      · intro b hb
        rcases List.mem_append.mp hb with hb | hb
        · exact (mem_page hb).2
        · exact beyond_trans hr (of_decide_eq_true (hbeyond b hb))

/-- **A row that keeps its key is found**, whatever else changes. -/
theorem Walk.complete (h : Walk key limit after tables pages)
    (hdistinct : ∀ table ∈ tables, Distinct key table) {k : κ}
    (hk : ∀ table ∈ tables, ∃ r ∈ table, key r = k)
    (hbeyond : ∀ a, after = some a → a < k) : ∃ r ∈ pages.flatten, key r = k := by
  have hfollows : ∀ {after : Option κ} {table : List ρ} {r : ρ}, r ∈ table → key r = k →
      (∀ a, after = some a → a < k) → r ∈ following key after table := by
    intro after table r hr hrk hbeyond
    refine mem_following.mpr ⟨hr, ?_⟩
    cases after with
    | none => rfl
    | some a => exact decide_eq_true (hrk ▸ hbeyond a rfl)
  induction h with
  | @last after table h =>
      obtain ⟨r, hr, hrk⟩ := hk table (List.mem_singleton_self table)
      refine ⟨r, ?_, hrk⟩
      have hmem := hfollows hr hrk hbeyond
      rw [List.flatten_singleton, page_rows, List.take_of_length_le]
      · exact hmem
      · rw [Bool.eq_false_iff, ne_eq, page_hasMore] at h
        omega
  | @next after table tables pages r₀ h hlast rest ih =>
      obtain ⟨r, hr, hrk⟩ := hk table List.mem_cons_self
      have htable := hdistinct table List.mem_cons_self
      have hmem := hfollows hr hrk hbeyond
      rw [← List.take_append_drop limit (following key after table), ← page_rows,
        List.mem_append, ← following_last htable hlast] at hmem
      rcases hmem with hmem | hmem
      · exact ⟨r, List.mem_append_left _ hmem, hrk⟩
      · have hlt : key r₀ < k := hrk ▸ of_decide_eq_true (mem_following.mp hmem).2
        obtain ⟨r', hr', hrk'⟩ := ih (fun t ht => hdistinct t (List.mem_cons_of_mem _ ht))
          (fun t ht => hk t (List.mem_cons_of_mem _ ht))
          (fun a ha => Option.some.inj ha ▸ hlt)
        exact ⟨r', List.mem_append_right _ hr', hrk'⟩

/-- No page is larger than the limit, and only the last one may be smaller. -/
theorem Walk.sizes (h : Walk key limit after tables pages) :
    (∀ p ∈ pages, p.length ≤ limit) ∧ ∀ p ∈ pages.dropLast, p.length = limit := by
  induction h with
  | last h =>
      refine ⟨fun p hp => ?_, fun p hp => by cases hp⟩
      rw [List.mem_singleton.mp hp]
      exact length_page
  | @next after table tables pages r h hlast rest ih =>
      constructor
      · intro p hp
        rcases List.mem_cons.mp hp with rfl | hp
        · exact length_page
        · exact ih.1 p hp
      · intro p hp
        have hne : pages ≠ [] := by
          cases rest <;> simp
        rw [List.dropLast_cons_of_ne_nil hne] at hp
        rcases List.mem_cons.mp hp with rfl | hp
        · exact length_page_of_hasMore h
        · exact ih.2 p hp

/-- **A walk through a table that does not change returns it in order.** -/
theorem Walk.flatten_eq (hrows : Distinct key rows) (h : Walk key limit after tables pages)
    (hsame : ∀ table ∈ tables, table = rows) : pages.flatten = following key after rows := by
  induction h with
  | @last after table h =>
      obtain rfl := hsame table (List.mem_singleton_self table)
      rw [Bool.eq_false_iff, ne_eq, page_hasMore] at h
      rw [List.flatten_singleton, page_rows, List.take_of_length_le (by omega)]
  | @next after table tables pages r h hlast rest ih =>
      obtain rfl := hsame table List.mem_cons_self
      rw [List.flatten_cons, ih fun t ht => hsame t (List.mem_cons_of_mem _ ht),
        following_last hrows hlast, page_rows, List.take_append_drop]

/-- **A walk ends** when the keys stay the same. -/
theorem exists_walk_of_keys (hlimit : 0 < limit) {read : Nat → List ρ}
    (hdistinct : ∀ i, Distinct key (read i))
    (hkeys : ∀ i, ((read (i + 1)).map key).Perm ((read i).map key)) (after : Option κ) :
    ∃ n pages, Walk key limit after ((List.range n).map read) pages := by
  generalize hlength : (following key after (read 0)).length = length
  induction length using Nat.strong_induction_on generalizing after read with
  | _ length ih =>
      cases hmore : (page key limit after (read 0)).hasMore with
      | false => exact ⟨1, _, .last hmore⟩
      | true =>
          have hfull := length_page_of_hasMore hmore
          cases hlast : (page key limit after (read 0)).rows.getLast? with
          | none =>
              rw [List.getLast?_eq_none_iff] at hlast
              rw [hlast, List.length_nil] at hfull
              omega
          | some r =>
              rw [page_hasMore] at hmore
              have hrest : (following key (some (key r)) (read 1)).length = length - limit := by
                rw [length_following, (hkeys 0).countP_eq, ← length_following,
                  following_last (hdistinct 0) hlast, List.length_drop, hlength]
              obtain ⟨n, pages, hwalk⟩ := ih (length - limit) (by omega)
                (fun i => hdistinct (i + 1)) (fun i => hkeys (i + 1)) (some (key r)) hrest
              refine ⟨n + 1, (page key limit after (read 0)).rows :: pages, ?_⟩
              rw [List.range_succ_eq_map, List.map_cons, List.map_map]
              exact .next (page_hasMore.mpr hmore) hlast hwalk

/-- **A walk through a table that does not change ends.** -/
theorem exists_walk (hrows : Distinct key rows) (hlimit : 0 < limit) (after : Option κ) :
    ∃ n pages, Walk key limit after (List.replicate n rows) pages := by
  obtain ⟨n, pages, hwalk⟩ := exists_walk_of_keys hlimit (fun _ => hrows)
    (fun _ => List.Perm.refl (rows.map key)) after
  refine ⟨n, pages, ?_⟩
  rwa [List.map_const', List.length_range] at hwalk

end Walks

/-! ## Two tables -/

/-- What comes early in a list comes early in its sublists. -/
theorem mem_take_of_sublist {l l' : List ρ} (hsub : l.Sublist l') (hnodup : l'.Nodup) {n : Nat}
    {r : ρ} (hr : r ∈ l'.take n) (hmem : r ∈ l) : r ∈ l.take n := by
  induction hsub generalizing n with
  | slnil => cases hmem
  | @cons l l' x hsub ih =>
      rw [List.nodup_cons] at hnodup
      cases n with
      | zero => cases hr
      | succ n =>
          rw [List.take_succ_cons] at hr
          rcases List.mem_cons.mp hr with rfl | hr
          · exact absurd (hsub.mem hmem) hnodup.1
          · exact List.take_subset_take_left l (Nat.le_succ n) (ih hnodup.2 hr hmem)
  | @cons_cons l l' x hsub ih =>
      rw [List.nodup_cons] at hnodup
      cases n with
      | zero => cases hr
      | succ n =>
          rw [List.take_succ_cons] at hr ⊢
          rcases List.mem_cons.mp hr with rfl | hr
          · exact List.mem_cons_self
          · rcases List.mem_cons.mp hmem with rfl | hmem
            · exact List.mem_cons_self
            · exact List.mem_cons_of_mem _ (ih hnodup.2 hr hmem)

/-- A sublist that misses none of the first members begins with them. -/
theorem take_eq_of_sublist {l l' : List ρ} (hsub : l.Sublist l') (hnodup : l'.Nodup) {n : Nat}
    (hfirst : ∀ r ∈ l'.take n, r ∈ l) : l.take n = l'.take n := by
  induction hsub generalizing n with
  | slnil => rfl
  | @cons l l' x hsub ih =>
      rw [List.nodup_cons] at hnodup
      cases n with
      | zero => rfl
      | succ n => exact absurd (hsub.mem (hfirst x List.mem_cons_self)) hnodup.1
  | @cons_cons l l' x hsub ih =>
      rw [List.nodup_cons] at hnodup
      cases n with
      | zero => rfl
      | succ n =>
          rw [List.take_succ_cons, List.take_succ_cons, ih hnodup.2]
          intro r hr
          refine (List.mem_cons.mp (hfirst r (List.mem_cons_of_mem _ hr))).resolve_left ?_
          rintro rfl
          exact hnodup.1 (List.mem_of_mem_take hr)

theorem sublist_of_sorted {l l' : List ρ} (h : l.Pairwise fun a b => key a < key b)
    (h' : l'.Pairwise fun a b => key a < key b) (hsub : ∀ r ∈ l, r ∈ l') : l.Sublist l' := by
  have hnodup : l.Nodup := h.imp fun hab heq => (heq ▸ hab).false
  exact List.sublist_of_subperm_of_pairwise (List.subperm_of_subset hnodup hsub) h h'

/-- **The page of two tables together**, from enough rows of each. -/
theorem page_append {A B e : List ρ} {n : Nat} (hdistinct : Distinct key (A ++ B)) (hn : limit < n)
    (hperm : e.Perm ((following key after A).take n ++ (following key after B).take n))
    (hle : e.Pairwise fun a b => key a ≤ key b) :
    e.take limit = (page key limit after (A ++ B)).rows ∧
      (limit < e.length ↔ (page key limit after (A ++ B)).hasMore = true) := by
  have he : e.Pairwise fun a b => key a < key b := by
    have hrows : ((following key after A).take n ++ (following key after B).take n).Subperm
        (A ++ B) := by
      refine ((List.take_sublist _ _).append (List.take_sublist _ _)).subperm.trans ?_
      refine (following_perm.append following_perm).subperm.trans ?_
      exact (List.filter_sublist.append List.filter_sublist).subperm
    have hnodup : (e.map key).Nodup := by
      obtain ⟨l, hl, hsub⟩ := hrows
      exact ((hperm.trans hl.symm).map key).nodup_iff.mpr (hdistinct.sublist (hsub.map key))
    have hne : e.Pairwise fun a b => key a ≠ key b := List.pairwise_map.mp hnodup
    exact (hle.and hne).imp fun hab => lt_of_le_of_ne hab.1 hab.2
  have hs : (following key after (A ++ B)).Pairwise fun a b => key a < key b :=
    following_sorted hdistinct
  have hnodup : (following key after (A ++ B)).Nodup := hs.imp fun hab heq => (heq ▸ hab).false
  have hleft : (following key after A).Sublist (following key after (A ++ B)) := by
    refine sublist_of_sorted (following_sorted ?_) hs fun r hr => ?_
    · exact hdistinct.sublist ((List.sublist_append_left A B).map key)
    · obtain ⟨hr, hb⟩ := mem_following.mp hr
      exact mem_following.mpr ⟨List.mem_append_left B hr, hb⟩
  have hright : (following key after B).Sublist (following key after (A ++ B)) := by
    refine sublist_of_sorted (following_sorted ?_) hs fun r hr => ?_
    · exact hdistinct.sublist ((List.sublist_append_right A B).map key)
    · obtain ⟨hr, hb⟩ := mem_following.mp hr
      exact mem_following.mpr ⟨List.mem_append_right A hr, hb⟩
  have hsub : e.Sublist (following key after (A ++ B)) := by
    refine sublist_of_sorted he hs fun r hr => ?_
    rcases List.mem_append.mp (hperm.mem_iff.mp hr) with hr | hr
    · exact hleft.mem (List.mem_of_mem_take hr)
    · exact hright.mem (List.mem_of_mem_take hr)
  have htake : e.take n = (following key after (A ++ B)).take n := by
    refine take_eq_of_sublist hsub hnodup fun r hr => hperm.mem_iff.mpr (List.mem_append.mpr ?_)
    obtain ⟨hmem, hb⟩ := mem_following.mp (List.mem_of_mem_take hr)
    rcases List.mem_append.mp hmem with hmem | hmem
    · exact Or.inl (mem_take_of_sublist hleft hnodup hr (mem_following.mpr ⟨hmem, hb⟩))
    · exact Or.inr (mem_take_of_sublist hright hnodup hr (mem_following.mpr ⟨hmem, hb⟩))
  constructor
  · rw [page_rows, ← min_eq_left hn.le, ← List.take_take, htake, List.take_take, min_eq_left hn.le]
  · have hlength := congrArg List.length htake
    rw [List.length_take, List.length_take] at hlength
    rw [page_hasMore]
    omega

end Keyset
end Lib
end SecureMessenger

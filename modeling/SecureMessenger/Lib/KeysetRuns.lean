import SecureMessenger.Lib.Keyset
import SecureMessenger.Lib.Total

/-!
# Following keyset pages

A program that answers a cursor with a page, and a caller who follows the pages
from a cursor until there are no more.  The keys of the table stay the same
while the pages are read; the rest of a row may change.
-/

namespace SecureMessenger
namespace Lib
namespace Keyset

universe u

variable {E : Type u} {R : E → Type} {X S : Type} {P κ ρ : Type} [LinearOrder κ]

/-- What a caller reads from a page, and how pages are asked for. -/
structure Endpoint (E : Type u) (R : E → Type) (X P κ ρ : Type) where
  read : Option κ → Prog E R X P
  rows : P → List ρ
  next : P → Option κ
  more : P → Bool

namespace Endpoint

variable (api : Endpoint E R X P κ ρ) (exec : Tid → (e : E) → S → R e → S → Prop) (t : Tid)
  (key : ρ → κ) (limit : Nat)

/-- The pages from a cursor to the last one, read one after the other while
nobody else moves. -/
inductive Follows : Option κ → S → List P → S → Prop
  | last {after : Option κ} {s s' : S} {page : P}
      (h : Evaluates exec t (api.read after) s (.ok page) s') (hmore : api.more page = false) :
      Follows after s [page] s'
  | next {after : Option κ} {s s' s'' : S} {page : P} {pages : List P}
      (h : Evaluates exec t (api.read after) s (.ok page) s') (hmore : api.more page = true)
      (rest : Follows (api.next page) s' pages s'') : Follows after s (page :: pages) s''

/-- A page that is not the last leads to the next cursor. -/
def Leads (a b : Option κ × S) : Prop :=
  ∃ page, Evaluates exec t (api.read a.1) a.2 (.ok page) b.2 ∧ api.more page = true ∧
    b.1 = api.next page

/-- The page is the keyset page of the table; its cursor is the key of its last
row. -/
structure PageOf (after : Option κ) (table : List ρ) (page : P) : Prop where
  rows : api.rows page = (Keyset.page key limit after table).rows
  more : api.more page = (Keyset.page key limit after table).hasMore
  next : ∀ r, (api.rows page).getLast? = some r → api.next page = some (key r)

/-- The program serves the pages of a table whose keys it keeps. -/
structure Serves (I : S → Prop) (table : S → List ρ) : Prop where
  distinct : ∀ s, I s → Distinct key (table s)
  serves : ∀ after s, I s → Total exec Eq t (api.read after)
    (fun page s' => I s' ∧ (table s').map key = (table s).map key ∧
      PageOf api key limit after (table s') page) (fun _ _ => False) s

variable {api exec t key limit} {I : S → Prop} {table : S → List ρ} {after : Option κ} {s s' : S}

theorem Serves.page (h : Serves api exec t key limit I table) (hs : I s) {page : P}
    (hread : Evaluates exec t (api.read after) s (.ok page) s') :
    I s' ∧ (table s').map key = (table s).map key ∧ PageOf api key limit after (table s') page :=
  (Total.post hread (h.serves after s hs) fun _ => rfl).1 page rfl

theorem Serves.reads (h : Serves api exec t key limit I table) (hs : I s) (after : Option κ) :
    ∃ page s', Evaluates exec t (api.read after) s (.ok page) s' := by
  obtain ⟨o, s', hread⟩ := (h.serves after s hs).evaluates fun _ => rfl
  cases o with
  | ok page => exact ⟨page, s', hread⟩
  | error x => exact ((Total.post hread (h.serves after s hs) fun _ => rfl).2 x rfl).elim

/-- The next cursor is the key of the last row. -/
theorem PageOf.last {page : P} {rows : List ρ} (h : PageOf api key limit after rows page)
    (hlimit : 0 < limit) (hmore : api.more page = true) :
    ∃ r, (Keyset.page key limit after rows).rows.getLast? = some r ∧
      api.next page = some (key r) := by
  have hfull := length_page_of_hasMore (h.more ▸ hmore)
  cases hlast : (Keyset.page key limit after rows).rows.getLast? with
  | none =>
      rw [List.getLast?_eq_none_iff] at hlast
      rw [hlast, List.length_nil] at hfull
      omega
  | some r =>
      exact ⟨r, rfl, h.next r (h.rows ▸ hlast)⟩

/-- How many keys of a table lie beyond a cursor. -/
def remaining (key : ρ → κ) (after : Option κ) (rows : List ρ) : Nat :=
  (rows.map key).countP (beyond id after)

theorem remaining_lt (hlimit : 0 < limit) {rows : List ρ} (hrows : Distinct key rows)
    (hmore : (Keyset.page key limit after rows).hasMore = true) {r : ρ}
    (hlast : (Keyset.page key limit after rows).rows.getLast? = some r) :
    remaining key (some (key r)) rows < remaining key after rows := by
  unfold remaining
  rw [← length_following, ← length_following, following_last hrows hlast, List.length_drop]
  rw [page_hasMore] at hmore
  omega

/-- **The pages come to an end.** -/
theorem Serves.acc (h : Serves api exec t key limit I table) (hlimit : 0 < limit) (hs : I s)
    (after : Option κ) : Acc (fun b a => Leads api exec t a b) (after, s) := by
  generalize hn : remaining key after (table s) = n
  induction n using Nat.strongRecOn generalizing after s with
  | ind n ih =>
      refine Acc.intro _ ?_
      rintro ⟨next, s'⟩ ⟨page, hread, hmore, heq⟩
      obtain rfl : next = api.next page := heq
      obtain ⟨hs', hkeys, hpage⟩ := h.page hs hread
      obtain ⟨r, hlast, hnext⟩ := hpage.last hlimit hmore
      have hlt : remaining key (some (key r)) (table s') < remaining key after (table s') :=
        remaining_lt hlimit (h.distinct s' hs') (hpage.more ▸ hmore) hlast
      have hsame : remaining key after (table s') = remaining key after (table s) := by
        unfold remaining
        rw [hkeys]
      rw [hnext]
      exact ih (remaining key (some (key r)) (table s')) (by omega) hs' _ rfl

/-- The pages can be followed to the last. -/
theorem Serves.exists_follows (h : Serves api exec t key limit I table) (hlimit : 0 < limit)
    (hs : I s) (after : Option κ) : ∃ pages s', Follows api exec t after s pages s' := by
  have hacc := h.acc hlimit hs after
  generalize ha : (after, s) = a at hacc
  induction hacc generalizing after s with
  | intro a _ ih =>
      obtain rfl := ha
      obtain ⟨page, s', hread⟩ := h.reads hs after
      cases hmore : api.more page with
      | false => exact ⟨[page], s', .last hread hmore⟩
      | true =>
          obtain ⟨hs', -, -⟩ := h.page hs hread
          obtain ⟨pages, s'', hrest⟩ :=
            ih (api.next page, s') ⟨page, hread, hmore, rfl⟩ hs' (api.next page) rfl
          exact ⟨page :: pages, s'', .next hread hmore hrest⟩

/-- Pages that are followed are a walk through the tables they were read
from. -/
theorem Follows.walk (h : Serves api exec t key limit I table) (hlimit : 0 < limit)
    {pages : List P} (hf : Follows api exec t after s pages s') (hs : I s) :
    ∃ tables, Walk key limit after tables (pages.map api.rows) ∧
      ∀ rows ∈ tables, ∃ s₁, I s₁ ∧ rows = table s₁ ∧ rows.map key = (table s).map key := by
  induction hf with
  | @last after s s' page hread hmore =>
      obtain ⟨hs', hkeys, hpage⟩ := h.page hs hread
      refine ⟨[table s'], ?_, ?_⟩
      · rw [List.map_singleton, hpage.rows]
        exact .last (hpage.more ▸ hmore)
      · intro rows hrows
        obtain rfl := List.mem_singleton.mp hrows
        exact ⟨s', hs', rfl, hkeys⟩
  | @next after s s' s'' page pages hread hmore rest ih =>
      obtain ⟨hs', hkeys, hpage⟩ := h.page hs hread
      obtain ⟨r, hlast, hnext⟩ := hpage.last hlimit hmore
      obtain ⟨tables, hwalk, htables⟩ := ih hs'
      refine ⟨table s' :: tables, ?_, ?_⟩
      · rw [List.map_cons, hpage.rows]
        exact .next (hpage.more ▸ hmore) hlast (hnext ▸ hwalk)
      · intro rows hrows
        rcases List.mem_cons.mp hrows with rfl | hrows
        · exact ⟨s', hs', rfl, hkeys⟩
        · obtain ⟨s₁, hs₁, heq, hsame⟩ := htables rows hrows
          exact ⟨s₁, hs₁, heq, hsame.trans hkeys⟩

/-- From the cursor `start`, the pages end, however they come; and whenever
they have ended, they hold each row of the table once, in the order of the
keys, all pages but the last being full. -/
structure CoversOnce (api : Endpoint E R X P κ ρ) (exec : Tid → (e : E) → S → R e → S → Prop)
    (t : Tid) (key : ρ → κ) (limit : Nat) (I : S → Prop) (table : S → List ρ) (start : Option κ)
    (s : S) : Prop where
  ends : Acc (fun b a => Leads api exec t a b) (start, s)
  reaches : ∃ pages s', Follows api exec t start s pages s'
  ascending : ∀ pages s', Follows api exec t start s pages s' →
    (pages.flatMap api.rows).Pairwise fun a b => key a < key b
  complete : ∀ pages s', Follows api exec t start s pages s' →
    ∀ k, k ∈ (pages.flatMap api.rows).map key ↔ k ∈ (table s).map key
  sound : ∀ pages s', Follows api exec t start s pages s' →
    ∀ r ∈ pages.flatMap api.rows, ∃ s₁, I s₁ ∧ r ∈ table s₁
  full : ∀ pages s', Follows api exec t start s pages s' →
    (∀ page ∈ pages, (api.rows page).length ≤ limit) ∧
      ∀ page ∈ pages.dropLast, (api.rows page).length = limit

/-- **Following the pages covers the table once.** -/
theorem Serves.coversOnce (h : Serves api exec t key limit I table) (hlimit : 0 < limit)
    (hs : I s) {start : Option κ} (hstart : ∀ r ∈ table s, beyond key start r = true) :
    CoversOnce api exec t key limit I table start s := by
  have hdistinct {tables : List (List ρ)}
      (htables : ∀ rows ∈ tables, ∃ s₁, I s₁ ∧ rows = table s₁ ∧
        rows.map key = (table s).map key) : ∀ rows ∈ tables, Distinct key rows := by
    intro rows hrows
    obtain ⟨s₁, hs₁, rfl, -⟩ := htables rows hrows
    exact h.distinct s₁ hs₁
  constructor
  case ends => exact h.acc hlimit hs start
  case reaches => exact h.exists_follows hlimit hs start
  case ascending =>
    intro pages s' hf
    obtain ⟨tables, hwalk, htables⟩ := hf.walk h hlimit hs
    rw [List.flatMap_def]
    exact (hwalk.sorted (hdistinct htables)).1
  case complete =>
    intro pages s' hf k
    obtain ⟨tables, hwalk, htables⟩ := hf.walk h hlimit hs
    rw [List.flatMap_def]
    constructor
    · intro hk
      obtain ⟨r, hr, rfl⟩ := List.mem_map.mp hk
      obtain ⟨rows, hrows, hmem⟩ := hwalk.sound r hr
      obtain ⟨s₁, -, -, hsame⟩ := htables rows hrows
      rw [← hsame]
      exact List.mem_map_of_mem hmem
    · intro hk
      have hin : ∀ rows ∈ tables, ∃ r ∈ rows, key r = k := by
        intro rows hrows
        obtain ⟨s₁, -, -, hsame⟩ := htables rows hrows
        rw [← hsame] at hk
        exact List.mem_map.mp hk
      have hbeyond : ∀ a, start = some a → a < k := by
        rintro a rfl
        obtain ⟨r, hr, rfl⟩ := List.mem_map.mp hk
        exact beyond_some.mp (hstart r hr)
      obtain ⟨r, hr, hrk⟩ := hwalk.complete (hdistinct htables) hin hbeyond
      exact List.mem_map.mpr ⟨r, hr, hrk⟩
  case sound =>
    intro pages s' hf r hr
    obtain ⟨tables, hwalk, htables⟩ := hf.walk h hlimit hs
    rw [List.flatMap_def] at hr
    obtain ⟨rows, hrows, hmem⟩ := hwalk.sound r hr
    obtain ⟨s₁, hs₁, rfl, -⟩ := htables rows hrows
    exact ⟨s₁, hs₁, hmem⟩
  case full =>
    intro pages s' hf
    obtain ⟨tables, hwalk, -⟩ := hf.walk h hlimit hs
    obtain ⟨hle, hfull⟩ := hwalk.sizes
    refine ⟨fun page hpage => hle _ (List.mem_map_of_mem hpage), fun page hpage => hfull _ ?_⟩
    rw [← List.map_dropLast]
    exact List.mem_map_of_mem hpage

end Endpoint

end Keyset
end Lib
end SecureMessenger

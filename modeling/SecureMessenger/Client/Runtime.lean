import SecureMessenger.Client.SyncManager
import SecureMessenger.Lib.Pool

/-!
# Browser tabs

How the calls that concern a single tab behave: its in-memory fields and the
promise chain of its `SyncManager`.  The durable inbox, the gateways and the
handlers are added by the systems built on top.
-/

namespace SecureMessenger
namespace Client

open Lib

/-- The promise chain `SyncManager.pending`: how many places have been handed
out, and which of them have settled. -/
structure Chain where
  next : Nat := 0
  settled : List Nat := []

/-- What one tab holds in memory. -/
structure Tab where
  memory : Memory := {}
  chain : Chain := {}

/-- The tab after `activate` or `deactivate` has set the scope. -/
def Tab.signed (ref : Option ScopeRef) (tab : Tab) : Tab :=
  { tab with memory := { tab.memory with current := ref } }

/-- The calls that concern only the tab itself. -/
def Tab.exec : (c : Call) → Tab → c.Answer → Tab → Prop
  | .transport, s, _, s' => s' = s
  | .enqueue, s, place, s' =>
      place = s.chain.next ∧
        s' = { s with chain := { s.chain with next := s.chain.next + 1 } }
  | .turn place, s, _, s' => (∀ q < place, q ∈ s.chain.settled) ∧ s' = s
  | .leave place, s, _, s' =>
      s' = { s with chain := { s.chain with settled := place :: s.chain.settled } }
  | .memory f, s, a, s' => a = (f s.memory).1 ∧ s' = { s with memory := (f s.memory).2 }
  | .recovery n, s, r, s' => (n, r) ∈ s.memory.recovered ∧ s' = s
  | .sleep, s, _, s' => s' = s
  | .clock, s, _, s' => s' = s
  | .freshId, s, _, s' => s' = s
  | .inbox _, _, _, _ => False
  | .request _, _, _, _ => False
  | .response _, _, _, _ => False
  | .notify _, _, _, _ => False

/-- The transaction runs to its end, with the outcome the code computes. -/
def Inbox.runs {α : Type} (tx : Transaction α) (db : Database)
    (r : Except JsError α) (db' : Database) : Prop :=
  (∃ a, tx db = .ok (a, db') ∧ r = .ok a) ∨ (∃ x, tx db = .error x ∧ r = .error x ∧ db' = db)

/-- The transaction is aborted from outside and changes nothing. -/
def Inbox.aborts {α : Type} (db : Database) (r : Except JsError α) (db' : Database) : Prop :=
  (∃ x, r = .error x) ∧ db' = db

end Client
end SecureMessenger

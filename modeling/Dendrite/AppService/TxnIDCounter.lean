import Dendrite.SQL
import Mathlib.Data.List.Count

/-! The application service transaction ID counter, `appservice/storage/mysql/txn_id_counter_table.go`,
as go-sqlite3 runs it. `appservice_counters` is a `rowid` table, scanned in insertion order, with a
unique index on its primary key `last_id`. -/

namespace Dendrite.AppService

structure CounterRow where
  name : String
  lastID : Nat
  deriving DecidableEq, Repr

abbrev Counters := List CounterRow

/-- The `INSERT OR IGNORE ... VALUES('txn_id', 1)` of `txnIDSchema`, run by `prepare`'s `db.Exec`:
ignored when the key `last_id = 1` is taken, else a new last row. -/
def prepare (rows : Counters) : Counters :=
  if 1 ∈ rows.map (·.lastID) then rows else rows ++ [⟨"txn_id", 1⟩]

def selectLastID (rows : Counters) : Except DBError Nat :=
  match rows.find? (·.name == "txn_id") with
  | some r => .ok r.lastID
  | none => .error .errNoRows

/-- The `UPDATE appservice_counters SET last_id=last_id+1 WHERE name='txn_id'` of `selectTxnIDSQL`,
row by row in `rowid` order, each new key checked at once against the keys the table holds. -/
def updateLastIDLoop (done : Counters) : Counters → Except DBError Counters
  | [] => .ok done
  | r :: rest =>
    if r.name = "txn_id" then
      if r.lastID + 1 ∈ (done ++ rest).map (·.lastID) then .error (.uniqueViolation "PRIMARY")
      else updateLastIDLoop (done ++ [{ r with lastID := r.lastID + 1 }]) rest
    else updateLastIDLoop (done ++ [r]) rest

def updateLastID (rows : Counters) : Except DBError Counters :=
  updateLastIDLoop [] rows

/-- `txnStatements.selectTxnID`. `db.Prepare` compiles only the first statement of
`selectTxnIDSQL`, the `SELECT`, and `QueryRowContext` runs it alone: the `UPDATE` never runs. -/
def selectTxnID (rows : Counters) : Except DBError Nat :=
  selectLastID rows

inductive CounterOp
  | prepare
  | selectTxnID
  deriving DecidableEq, Repr

def returnedIDs : Counters → List CounterOp → List Nat
  | _, [] => []
  | rows, .prepare :: ops => returnedIDs (prepare rows) ops
  | rows, .selectTxnID :: ops =>
    match selectTxnID rows with
    | .ok id => id :: returnedIDs rows ops
    | .error _ => returnedIDs rows ops

theorem returnedIDs_single (ops : List CounterOp) :
    returnedIDs [⟨"txn_id", 1⟩] ops = List.replicate (ops.count .selectTxnID) 1 := by
  induction ops with
  | nil => rfl
  | cons op ops ih =>
    cases op <;> simp [returnedIDs, prepare, selectTxnID, selectLastID, ih, List.replicate_succ]

theorem returnedIDs_from_empty (ops : List CounterOp) :
    returnedIDs [] ops = List.replicate ((ops.dropWhile (· != .prepare)).count .selectTxnID) 1 := by
  induction ops with
  | nil => rfl
  | cons op ops ih =>
    cases op with
    | prepare => exact returnedIDs_single (.prepare :: ops)
    | selectTxnID => exact ih

theorem returnedIDs_restart :
    returnedIDs [] [.prepare, .selectTxnID, .selectTxnID, .prepare, .selectTxnID] = [1, 1, 1] :=
  (returnedIDs_from_empty _).trans rfl

/-- Concurrent callers of `selectTxnID` as the concurrency contract takes them: each runs both
statements of `selectTxnIDSQL`, the `SELECT` then the `UPDATE`, on its own connection with no
transaction, and other callers' statements may run between them. `selected c` is what `c`'s
`SELECT` read, until its `UPDATE`. -/
structure Callers where
  rows : Counters
  selected : Nat → Option Nat
  returned : List (Nat × Nat)

inductive CallerAction
  | select (c : Nat)
  | update (c : Nat)
  deriving DecidableEq, Repr

namespace Callers

def init (rows : Counters) : Callers := ⟨rows, fun _ => none, []⟩

def step (s : Callers) : CallerAction → Callers
  | .select c =>
    match s.selected c, selectLastID s.rows with
    | none, .ok id => { s with selected := Function.update s.selected c (some id) }
    | none, .error _ => s
    | some _, _ => s
  | .update c =>
    match s.selected c, updateLastID s.rows with
    | some id, .ok rows' =>
      ⟨rows', Function.update s.selected c none, s.returned ++ [(c, id)]⟩
    | some _, .error _ => { s with selected := Function.update s.selected c none }
    | none, _ => s

def run (s : Callers) : List CallerAction → Callers
  | [] => s
  | a :: as => (s.step a).run as

theorem selectTxnID_race :
    ((init (prepare [])).run [.select 1, .select 2, .update 1, .update 2]).returned = [(1, 1), (2, 1)] := by
  decide

end Callers

end Dendrite.AppService

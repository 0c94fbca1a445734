import Dendrite.SyncAPI.Log

/-! Transactions that call `InsertEvent` concurrently, statement by statement. The `UPDATE` of
`nextStreamID` locks the `"global"` row of `syncapi_stream_id` until the transaction commits or
rolls back; a transaction reads the committed tables with its own writes on top. A restart drops
every open transaction and runs the schemas again. -/

namespace Dendrite.SyncAPI

inductive InsertStage
  | idle
  | increased
  | selected (streamPos : Nat)
  deriving DecidableEq, Repr

structure Txn where
  view : Option SyncDB
  stage : InsertStage
  calls : List InsertEventArgs

def Txn.fresh : Txn := ⟨none, .idle, []⟩

/-- The committed tables, the holder of the `"global"` row lock, the open transactions, and the
committed calls and restarts in the order they took effect. -/
structure TxnSystem where
  db : SyncDB
  lock : Option Nat
  txns : Nat → Txn
  history : List SyncOp

def TxnSystem.init : TxnSystem := ⟨SyncDB.init, none, fun _ => .fresh, []⟩

inductive TxnAction
  | increase (t : Nat)
  | select (t : Nat)
  | insert (t : Nat) (a : InsertEventArgs)
  | commit (t : Nat)
  | rollback (t : Nat)
  | restart
  deriving DecidableEq, Repr

def SyncDB.increase (db : SyncDB) : SyncDB :=
  { db with streamIDs := db.streamIDs.increaseStreamID "global" }

/-- `insertEventSQL` at `streamPos` on a transaction's tables; a failed statement writes nothing. -/
def SyncDB.insertRow (db : SyncDB) (a : InsertEventArgs) (streamPos : Nat) : SyncDB :=
  match insertEventSQL (a.row streamPos) a.excludeFromSync db.events with
  | .ok events => { db with events }
  | .error _ => db

namespace TxnSystem

def current (s : TxnSystem) (t : Nat) : SyncDB := (s.txns t).view.getD s.db

def setTxn (s : TxnSystem) (t : Nat) (x : Txn) : TxnSystem :=
  { s with txns := Function.update s.txns t x }

def release (s : TxnSystem) (t : Nat) : Option Nat :=
  if s.lock = some t then none else s.lock

/-- One statement, commit, rollback or restart; `none` when it cannot run now (waiting on the
lock, or out of order in its transaction). -/
def step (s : TxnSystem) : TxnAction → Option TxnSystem
  | .increase t =>
    if (s.txns t).stage = .idle ∧ (s.lock = none ∨ s.lock = some t) then
      match (s.current t).streamIDs "global" with
      | some _ => some ⟨s.db, some t, Function.update s.txns t
          { s.txns t with view := some (s.current t).increase, stage := .increased }, s.history⟩
      -- no row to update or lock; the `SELECT` then fails with `ErrNoRows`
      | none => some s
    else none
  | .select t =>
    if (s.txns t).stage = .increased then
      match (s.current t).streamIDs.selectStreamID "global" with
      | .ok streamPos => some (s.setTxn t { s.txns t with stage := .selected streamPos })
      | .error _ => some (s.setTxn t { s.txns t with stage := .idle })
    else none
  | .insert t a =>
    match (s.txns t).stage with
    | .selected streamPos => some (s.setTxn t ⟨some ((s.current t).insertRow a streamPos), .idle,
        (s.txns t).calls ++ [a]⟩)
    | _ => none
  | .commit t =>
    if (s.txns t).stage = .idle then
      some ⟨s.current t, s.release t, Function.update s.txns t .fresh,
        s.history ++ (s.txns t).calls.map .insertEvent⟩
    else none
  | .rollback t => some ⟨s.db, s.release t, Function.update s.txns t .fresh, s.history⟩
  | .restart => some ⟨SyncOp.prepare.apply s.db, none, fun _ => .fresh, s.history ++ [.prepare]⟩

/-- Run the actions in order; one that cannot run leaves the state as it is (the transaction
waits, and the scheduler may pick it again later). -/
def run (s : TxnSystem) : List TxnAction → TxnSystem
  | [] => s
  | a :: as => ((s.step a).getD s).run as

end TxnSystem

def Txn.Consistent (db : SyncDB) (x : Txn) : Prop :=
  match x.view, x.stage with
  | none, .idle => x.calls = []
  | none, _ => False
  | some v, .idle => v = db.run (x.calls.map .insertEvent)
  | some v, .increased => ∃ n, (db.run (x.calls.map .insertEvent)).streamIDs "global" = some n ∧
      v = (db.run (x.calls.map .insertEvent)).increase
  | some v, .selected p => ∃ n, (db.run (x.calls.map .insertEvent)).streamIDs "global" = some n ∧
      p = n + 1 ∧ v = (db.run (x.calls.map .insertEvent)).increase

/-- What every reachable state of the transactions satisfies: the committed tables are the
calls of the committed transactions run one after another in commit order; each open
transaction's tables are its own calls run on top of them; only the lock holder has writes. -/
structure TxnSystem.Inv (s : TxnSystem) : Prop where
  committed : s.db = SyncDB.init.run s.history
  txns : ∀ t, (s.txns t).Consistent s.db
  locked : ∀ t, (s.txns t).view.isSome ↔ s.lock = some t

variable {db db' : SyncDB} {x : Txn} {s s' : TxnSystem} {t : Nat}

theorem Txn.consistent_fresh (db : SyncDB) : Txn.fresh.Consistent db := rfl

theorem Txn.Consistent.getD_of_idle (hx : x.Consistent db) (h : x.stage = .idle) :
    x.view.getD db = db.run (x.calls.map .insertEvent) := by
  obtain ⟨_ | v, stage, calls⟩ := x <;> simp only at h <;> subst h
  · simp only [Txn.Consistent] at hx
    simp [hx]
  · exact hx

theorem Txn.Consistent.of_increased (hx : x.Consistent db) (h : x.stage = .increased) :
    ∃ n, (db.run (x.calls.map .insertEvent)).streamIDs "global" = some n ∧
      x.view = some (db.run (x.calls.map .insertEvent)).increase := by
  obtain ⟨_ | v, stage, calls⟩ := x <;> simp only at h <;> subst h
  · exact hx.elim
  · obtain ⟨n, hn, hv⟩ := hx
    exact ⟨n, hn, congrArg some hv⟩

theorem Txn.Consistent.of_selected (hx : x.Consistent db) (h : x.stage = .selected p) :
    ∃ n, (db.run (x.calls.map .insertEvent)).streamIDs "global" = some n ∧ p = n + 1 ∧
      x.view = some (db.run (x.calls.map .insertEvent)).increase := by
  obtain ⟨_ | v, stage, calls⟩ := x <;> simp only at h <;> subst h
  · exact hx.elim
  · obtain ⟨n, hn, rfl, hv⟩ := hx
    exact ⟨n, hn, rfl, congrArg some hv⟩

theorem Txn.Consistent.of_view_none (hx : x.Consistent db) (h : x.view = none) :
    x.Consistent db' := by
  obtain ⟨_ | v, stage, calls⟩ := x
  · cases stage <;> exact hx
  · cases h

theorem SyncDB.increase_global (h : db.streamIDs "global" = some n) :
    db.increase.streamIDs "global" = some (n + 1) := by
  simp [SyncDB.increase, StreamIDTable.increaseStreamID_global h]

theorem SyncDB.increase_insertRow (a : InsertEventArgs) (h : db.streamIDs "global" = some n) :
    db.increase.insertRow a (n + 1) = (insertEvent a db).2 := by
  rw [insertEvent_of_global h, SyncDB.insertRow]
  simp only [SyncDB.increase, StreamIDTable.increaseStreamID_global h]
  cases insertEventSQL (a.row (n + 1)) a.excludeFromSync db.events <;> rfl

namespace TxnSystem

theorem release_eq_some {t t' : Nat} : s.release t = some t' ↔ s.lock = some t' ∧ t' ≠ t := by
  unfold release
  split_ifs with h
  · rw [h]
    constructor
    · intro h'; cases h'
    · rintro ⟨h', hne⟩; cases h'; exact absurd rfl hne
  · exact ⟨fun h' => ⟨h', fun e => h (e ▸ h')⟩, And.left⟩

theorem inv_init : init.Inv :=
  ⟨rfl, fun _ => Txn.consistent_fresh _, fun t => by simp [init, Txn.fresh]⟩

theorem Inv.view_none_of_lock (hs : s.Inv) {t' : Nat} (h : s.lock ≠ some t') :
    (s.txns t').view = none :=
  Option.not_isSome_iff_eq_none.mp fun h' => h ((hs.locked t').mp h')

theorem Inv.increase (hs : s.Inv) (h : s.step (.increase t) = some s') : s'.Inv := by
  simp only [step] at h
  split_ifs at h with hc
  split at h
  · rename_i n hn
    cases h
    have hcur := (hs.txns t).getD_of_idle hc.1
    rw [current, hcur] at hn ⊢
    refine ⟨hs.committed, fun t' => ?_, fun t' => ?_⟩
    · by_cases ht : t' = t
      · subst t'
        simp only [Function.update_same]
        exact ⟨n, hn, rfl⟩
      · simpa [Function.update_noteq ht] using hs.txns t'
    · by_cases ht : t' = t
      · subst t'; simp
      · simp only [Function.update_noteq ht, Option.some.injEq, Ne.symm ht, iff_false]
        rw [hs.view_none_of_lock]
        · simp
        · rcases hc.2 with hl | hl <;> simp [hl, Ne.symm ht]
  · cases h; exact hs

theorem Inv.select (hs : s.Inv) (h : s.step (.select t) = some s') : s'.Inv := by
  simp only [step] at h
  split_ifs at h with hc
  obtain ⟨n, hn, hv⟩ := (hs.txns t).of_increased hc
  have hsel : (s.current t).streamIDs.selectStreamID "global" = .ok (n + 1) := by
    rw [current, hv]
    exact StreamIDTable.selectStreamID_some (SyncDB.increase_global hn)
  rw [hsel] at h
  cases h
  refine ⟨hs.committed, fun t' => ?_, fun t' => ?_⟩
  · by_cases ht : t' = t
    · subst t'
      simp only [setTxn, Function.update_same]
      show Txn.Consistent _ ⟨(s.txns t).view, _, _⟩
      rw [hv]
      exact ⟨n, hn, rfl, rfl⟩
    · simpa [setTxn, Function.update_noteq ht] using hs.txns t'
  · by_cases ht : t' = t
    · subst t'; simpa [setTxn] using hs.locked t
    · simpa [setTxn, Function.update_noteq ht] using hs.locked t'

theorem Inv.insert (hs : s.Inv) (h : s.step (.insert t a) = some s') : s'.Inv := by
  simp only [step] at h
  split at h
  · rename_i p hp
    cases h
    obtain ⟨n, hn, rfl, hv⟩ := (hs.txns t).of_selected hp
    refine ⟨hs.committed, fun t' => ?_, fun t' => ?_⟩
    · by_cases ht : t' = t
      · subst t'
        simp only [setTxn, Function.update_same]
        show _ = _
        rw [current, hv, Option.getD_some, SyncDB.increase_insertRow a hn, List.map_append,
          SyncDB.run_append]
        rfl
      · simpa [setTxn, Function.update_noteq ht] using hs.txns t'
    · by_cases ht : t' = t
      · subst t'
        simpa [setTxn, hv] using hs.locked t
      · simpa [setTxn, Function.update_noteq ht] using hs.locked t'
  · cases h

theorem Inv.end_txn (hs : s.Inv) (db' : SyncDB)
    (hdb : (s.txns t).view = none → db' = s.db) :
    ∀ t', (Function.update s.txns t .fresh t').Consistent db' ∧
      ((Function.update s.txns t .fresh t').view.isSome ↔ s.release t = some t') := by
  intro t'
  by_cases ht : t' = t
  · subst t'
    rw [Function.update_same]
    exact ⟨Txn.consistent_fresh db', by simp [release_eq_some, Txn.fresh]⟩
  · rw [Function.update_noteq ht, release_eq_some, ← hs.locked t']
    refine ⟨?_, by simp [ht]⟩
    cases hv : (s.txns t').view with
    | none => exact (hs.txns t').of_view_none hv
    | some v =>
      have hl := (hs.locked t').mp (by simp [hv])
      rw [hdb (hs.view_none_of_lock (by simp [hl, ht]))]
      exact hs.txns t'

theorem Inv.commit (hs : s.Inv) (h : s.step (.commit t) = some s') : s'.Inv := by
  simp only [step] at h
  split_ifs at h with hc
  cases h
  have hcur := (hs.txns t).getD_of_idle hc
  have hdb : (s.txns t).view = none → s.current t = s.db := fun hv => by simp [current, hv]
  refine ⟨?_, fun t' => (hs.end_txn _ hdb t').1, fun t' => (hs.end_txn _ hdb t').2⟩
  rw [current, hcur, hs.committed, ← SyncDB.run_append]

theorem Inv.rollback (hs : s.Inv) (h : s.step (.rollback t) = some s') : s'.Inv := by
  cases h
  exact ⟨hs.committed, fun t' => (hs.end_txn _ (fun _ => rfl) t').1,
    fun t' => (hs.end_txn _ (fun _ => rfl) t').2⟩

theorem Inv.restart (hs : s.Inv) (h : s.step .restart = some s') : s'.Inv := by
  cases h
  refine ⟨?_, fun _ => Txn.consistent_fresh _, fun _ => by simp [Txn.fresh]⟩
  rw [SyncDB.run_append, ← hs.committed]
  rfl

theorem Inv.step (hs : s.Inv) : ∀ {a : TxnAction}, s.step a = some s' → s'.Inv
  | .increase _, h => hs.increase h
  | .select _, h => hs.select h
  | .insert _ _, h => hs.insert h
  | .commit _, h => hs.commit h
  | .rollback _, h => hs.rollback h
  | .restart, h => hs.restart h

theorem Inv.run (hs : s.Inv) (acts : List TxnAction) : (s.run acts).Inv := by
  induction acts generalizing s with
  | nil => exact hs
  | cons a acts ih =>
    apply ih
    cases h : s.step a with
    | none => exact hs
    | some s' => exact hs.step h

theorem step_history {a : TxnAction} (h : s.step a = some s') :
    ∃ more, s'.history = s.history ++ more := by
  cases a <;> simp only [step] at h <;> (repeat' split at h) <;> cases h <;>
    first | exact ⟨[], (List.append_nil _).symm⟩ | exact ⟨_, rfl⟩

theorem run_history (s : TxnSystem) (acts : List TxnAction) :
    ∃ more, (s.run acts).history = s.history ++ more := by
  induction acts generalizing s with
  | nil => exact ⟨[], (List.append_nil _).symm⟩
  | cons a acts ih =>
    obtain ⟨m₁, h₁⟩ : ∃ more, ((s.step a).getD s).history = s.history ++ more := by
      cases h : s.step a with
      | none => exact ⟨[], (List.append_nil _).symm⟩
      | some s' => exact step_history h
    obtain ⟨m₂, h₂⟩ := ih ((s.step a).getD s)
    exact ⟨m₁ ++ m₂, by rw [run, h₂, h₁, List.append_assoc]⟩

theorem committed_positions_increase (acts more : List TxnAction) :
    ((init.run acts).run more).db.events.Pairwise (fun r r' => r.id < r'.id) ∧
    (∀ r' ∈ ((init.run acts).run more).db.events,
      r'.eventID ∉ (init.run acts).db.events.map (·.eventID) →
        selectMaxEventID (init.run acts).db < r'.id) ∧
    ∀ t p, (((init.run acts).run more).txns t).stage = .selected p →
      ∀ r ∈ ((init.run acts).run more).db.events, r.id < p := by
  have hs := inv_init.run acts
  have hs' := hs.run more
  have hw' : ((init.run acts).run more).db.Wf := hs'.committed ▸ SyncDB.wf_run _
  refine ⟨hw'.sorted, ?_, fun t p hp r hr => ?_⟩
  · obtain ⟨m, hm⟩ := run_history (init.run acts) more
    have hdb : ((init.run acts).run more).db = (init.run acts).db.run m := by
      rw [hs'.committed, hm, SyncDB.run_append, ← hs.committed]
    rw [hdb]
    exact (hs.committed ▸ SyncDB.wf_run _ : (init.run acts).db.Wf).run_above m
  · obtain ⟨n, hn, rfl, -⟩ := (hs'.txns t).of_selected hp
    obtain ⟨k, hk, hle⟩ := hw'.bounded r hr
    obtain ⟨n', hn', hkn⟩ := hw'.global_run hk ((((init.run acts).run more).txns t).calls.map
      SyncOp.insertEvent)
    rw [hn, Option.some.injEq] at hn'
    omega

theorem committed_positions_increase_after_rollback :
    ∃ r ∈ ((init.run [.restart, .increase 1, .select 1, .insert 1 (messageEvent "$x" false),
        .rollback 1, .increase 2, .select 2, .insert 2 (messageEvent "$a" false), .commit 2]).run
        [.increase 3, .select 3, .insert 3 (messageEvent "$b" false), .commit 3]).db.events,
      r.eventID = "$b" ∧ selectMaxEventID (init.run [.restart, .increase 1, .select 1,
        .insert 1 (messageEvent "$x" false), .rollback 1, .increase 2, .select 2,
        .insert 2 (messageEvent "$a" false), .commit 2]).db < r.id := by
  have hr : (messageEvent "$b" false).row 2 ∈ ((init.run [.restart, .increase 1, .select 1,
      .insert 1 (messageEvent "$x" false), .rollback 1, .increase 2, .select 2,
      .insert 2 (messageEvent "$a" false), .commit 2]).run
      [.increase 3, .select 3, .insert 3 (messageEvent "$b" false), .commit 3]).db.events := by
    decide
  exact ⟨_, hr, rfl, (committed_positions_increase [.restart, .increase 1, .select 1,
      .insert 1 (messageEvent "$x" false), .rollback 1, .increase 2, .select 2,
      .insert 2 (messageEvent "$a" false), .commit 2]
    [.increase 3, .select 3, .insert 3 (messageEvent "$b" false), .commit 3]).2.1 _ hr (by decide)⟩

end TxnSystem

end Dendrite.SyncAPI

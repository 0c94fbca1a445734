import Dendrite.RoomServer.Rooms

/-! Transactions on `roomserver_rooms` running side by side, at READ COMMITTED. A plain `SELECT`
sees the committed rows and the transaction's own changes. `SELECT ... FOR UPDATE`, `UPDATE` and
`INSERT` lock the row they touch until the transaction ends; an `INSERT` of a `room_id` that another
transaction has inserted and not committed waits for it. The `AUTO_INCREMENT` counter is not
transactional. Gap locks are not modelled.

A statement that has to wait does not run (`step` is `none`); `run` skips it. The results of the
statements and the commit order are kept as ghost state. -/

namespace Dendrite.RoomServer

/-- What a statement returned to its caller. An `UPDATE` is recorded when it matched its row. -/
inductive RoomCall
  | selectRoomNID (roomID : String) (result : Except DBError Nat)
  | selectLatestEventNIDs (roomNID : Nat) (result : Except DBError (List Nat × Nat))
  | selectLatestEventsNIDsForUpdate (roomNID : Nat) (result : Except DBError LatestEvents)
  | updateLatestEventNIDs (roomNID : Nat) (v : LatestEvents)
  | selectRoomVersionForRoomID (roomID : String) (result : Except DBError String)
  | selectRoomVersionForRoomNID (roomNID : Nat) (result : Except DBError String)
  deriving DecidableEq

inductive RowOp
  | read (v : LatestEvents)
  | write (v : LatestEvents)
  deriving DecidableEq

namespace RoomCall

def rowOp (n : Nat) : RoomCall → Option RowOp
  | .selectLatestEventsNIDsForUpdate m (.ok v) => if m = n then some (.read v) else none
  | .updateLatestEventNIDs m v => if m = n then some (.write v) else none
  | _ => none

def Seen (rows : List RoomRow) : RoomCall → Prop
  | .selectRoomNID i (.ok n) => ∃ v, (n, i, v) ∈ rows.map RoomRow.ident
  | .selectRoomVersionForRoomID i (.ok v) => ∃ n, (n, i, v) ∈ rows.map RoomRow.ident
  | .selectRoomVersionForRoomNID n (.ok v) => ∃ i, (n, i, v) ∈ rows.map RoomRow.ident
  | _ => True

end RoomCall

def rowOps (n : Nat) (cs : List RoomCall) : List RowOp := cs.filterMap (RoomCall.rowOp n)

def RowOp.replay : LatestEvents → List RowOp → Option LatestEvents
  | v, [] => some v
  | v, .read w :: ops => if w = v then replay v ops else none
  | _, .write w :: ops => replay w ops

section RowOps

variable {n : Nat} {c : RoomCall} {cs cs' : List RoomCall}

@[simp] theorem rowOps_nil : rowOps n [] = [] := rfl

@[simp] theorem rowOps_append : rowOps n (cs ++ cs') = rowOps n cs ++ rowOps n cs' :=
  List.filterMap_append _ _ _

@[simp] theorem rowOps_singleton : rowOps n [c] = (c.rowOp n).toList := by
  cases h : c.rowOp n <;> simp [rowOps, h]

theorem RowOp.replay_append (v : LatestEvents) (ops ops' : List RowOp) :
    replay v (ops ++ ops') = (replay v ops).bind (replay · ops') := by
  induction ops generalizing v with
  | nil => rfl
  | cons op ops ih =>
    cases op with
    | read w => simp only [List.cons_append, replay]; split <;> simp [ih]
    | write w => exact ih w

theorem RowOp.eq_or_write_of_replay {v w : LatestEvents} {ops : List RowOp}
    (h : replay v ops = some w) : w = v ∨ .write w ∈ ops := by
  induction ops generalizing v with
  | nil => exact .inl (Option.some.inj h).symm
  | cons op ops ih =>
    cases op with
    | read u =>
      simp only [replay] at h
      split at h
      · exact (ih h).imp id (List.mem_cons_of_mem _)
      · cases h
    | write u =>
      rcases ih h with rfl | hw
      · exact .inr (List.mem_cons_self _ _)
      · exact .inr (List.mem_cons_of_mem _ hw)

end RowOps

structure RoomTxn where
  inserted : List RoomRow
  updated : Nat → Option LatestEvents
  calls : List RoomCall

namespace RoomTxn

def fresh : RoomTxn := ⟨[], fun _ => none, []⟩

def apply (x : RoomTxn) (r : RoomRow) : RoomRow :=
  match x.updated r.roomNID with
  | some v => r.setLatest v
  | none => r

def view (x : RoomTxn) (rooms : List RoomRow) : List RoomRow := (rooms ++ x.inserted).map x.apply

def record (x : RoomTxn) (c : RoomCall) : RoomTxn := { x with calls := x.calls ++ [c] }

variable {x : RoomTxn} {r : RoomRow} {c : RoomCall} {rooms : List RoomRow}

@[simp] theorem apply_roomNID : (x.apply r).roomNID = r.roomNID := by
  unfold apply; split <;> rfl

@[simp] theorem apply_roomID : (x.apply r).roomID = r.roomID := by
  unfold apply; split <;> rfl

@[simp] theorem apply_ident : (x.apply r).ident = r.ident := by
  unfold apply; split <;> rfl

@[simp] theorem apply_setLatest {v : LatestEvents} : (x.apply r).setLatest v = r.setLatest v := by
  unfold apply; split <;> simp

theorem apply_update {n : Nat} {v : LatestEvents} :
    ({ x with updated := Function.update x.updated n (some v) } : RoomTxn).apply r =
      if r.roomNID = n then r.setLatest v else x.apply r := by
  by_cases he : r.roomNID = n
  · show (match Function.update x.updated n (some v) r.roomNID with
      | some w => r.setLatest w
      | none => r) = _
    rw [he, Function.update_same, if_pos rfl]
  · show (match Function.update x.updated n (some v) r.roomNID with
      | some w => r.setLatest w
      | none => r) = _
    rw [Function.update_noteq he, if_neg he]
    rfl

theorem apply_of_updated_none (h : x.updated r.roomNID = none) : x.apply r = r := by
  simp [apply, h]

@[simp] theorem fresh_apply : fresh.apply r = r := rfl
@[simp] theorem fresh_inserted : fresh.inserted = [] := rfl
@[simp] theorem fresh_calls : fresh.calls = [] := rfl

@[simp] theorem record_inserted : (x.record c).inserted = x.inserted := rfl
@[simp] theorem record_updated : (x.record c).updated = x.updated := rfl
@[simp] theorem record_calls : (x.record c).calls = x.calls ++ [c] := rfl
@[simp] theorem record_apply : (x.record c).apply = x.apply := rfl

theorem view_map_roomNID :
    (x.view rooms).map (·.roomNID) = (rooms ++ x.inserted).map (·.roomNID) := by
  simp [view, Function.comp_def]

theorem view_map_roomID : (x.view rooms).map (·.roomID) = (rooms ++ x.inserted).map (·.roomID) := by
  simp [view, Function.comp_def]

theorem view_map_ident :
    (x.view rooms).map RoomRow.ident = (rooms ++ x.inserted).map RoomRow.ident := by
  simp [view, Function.comp_def]

end RoomTxn

/-- `roomserver_rooms` with the transactions running on it. -/
structure RoomSystem where
  rooms : List RoomRow
  autoIncrement : Nat
  rowLocks : Nat → Option Nat
  keyLocks : String → Option Nat
  txns : Nat → RoomTxn
  history : List (Nat × List RoomCall)

inductive RoomAction
  | insertRoomNIDStmt (t : Nat) (roomID roomVersion : String)
  | selectRoomNIDStmt (t : Nat) (roomID : String)
  | selectLatestEventNIDsStmt (t : Nat) (roomNID : Nat)
  | selectLatestEventNIDsForUpdateStmt (t : Nat) (roomNID : Nat)
  | updateLatestEventNIDsStmt (t : Nat) (roomNID : Nat) (v : LatestEvents)
  | selectRoomVersionForRoomIDStmt (t : Nat) (roomID : String)
  | selectRoomVersionForRoomNIDStmt (c : Nat) (roomNID : Nat)
  | commit (t : Nat)
  | rollback (t : Nat)
  deriving DecidableEq

/-- `roomStatements.InsertRoomNID`: the `INSERT`, then `SelectRoomNID` in the same transaction. -/
def insertRoomNID (t : Nat) (roomID roomVersion : String) : List RoomAction :=
  [.insertRoomNIDStmt t roomID roomVersion, .selectRoomNIDStmt t roomID]

def RoomAction.stmtTxn : RoomAction → Option Nat
  | .insertRoomNIDStmt t _ _ | .selectRoomNIDStmt t _ | .selectLatestEventNIDsStmt t _
  | .selectLatestEventNIDsForUpdateStmt t _ | .updateLatestEventNIDsStmt t _ _
  | .selectRoomVersionForRoomIDStmt t _ => some t
  | _ => none

def RoomAction.onRows (autoIncrement : Nat) : RoomAction → List RoomRow → List RoomRow
  | .insertRoomNIDStmt _ roomID roomVersion, rows =>
    insertRoomNIDSQL autoIncrement roomID roomVersion rows
  | .updateLatestEventNIDsStmt _ roomNID v, rows => updateLatestEventNIDsSQL roomNID v rows
  | _, rows => rows

namespace RoomSystem

def init : RoomSystem := ⟨[], 1, fun _ => none, fun _ => none, fun _ => .fresh, []⟩

def view (s : RoomSystem) (t : Nat) : List RoomRow := (s.txns t).view s.rooms

def Free (l : Option Nat) (t : Nat) : Prop := l = none ∨ l = some t

instance (l : Option Nat) (t : Nat) : Decidable (Free l t) := inferInstanceAs (Decidable (_ ∨ _))

theorem Free.eq_of_eq_some {l : Option Nat} {t t' : Nat} (hf : Free l t) (h : l = some t') :
    t' = t := by
  rcases hf with rfl | rfl
  · cases h
  · exact (Option.some.inj h).symm

def release {α : Type} (locks : α → Option Nat) (t : Nat) : α → Option Nat :=
  fun k => if locks k = some t then none else locks k

def setTxn (s : RoomSystem) (t : Nat) (x : RoomTxn) : RoomSystem :=
  { s with txns := Function.update s.txns t x }

def lockRow (s : RoomSystem) (t n : Nat) : RoomSystem :=
  { s with rowLocks := Function.update s.rowLocks n (some t) }

def endTxn (s : RoomSystem) (t : Nat) : RoomSystem :=
  { s with
    rowLocks := release s.rowLocks t
    keyLocks := release s.keyLocks t
    txns := Function.update s.txns t .fresh }

def commitTxn (s : RoomSystem) (t : Nat) : RoomSystem :=
  { s.endTxn t with rooms := s.view t, history := s.history ++ [(t, (s.txns t).calls)] }

def historyCalls (s : RoomSystem) : List RoomCall := s.history.flatMap (·.2)

def step (s : RoomSystem) : RoomAction → Option RoomSystem
  | .insertRoomNIDStmt t roomID roomVersion =>
    if Free (s.keyLocks roomID) t then
      if insertConflicts s.autoIncrement roomID (s.view t) then
        some { s with autoIncrement := s.autoIncrement + 1 }
      else
        some { s with
          autoIncrement := s.autoIncrement + 1
          rowLocks := Function.update s.rowLocks s.autoIncrement (some t)
          keyLocks := Function.update s.keyLocks roomID (some t)
          txns := Function.update s.txns t { s.txns t with
            inserted := (s.txns t).inserted ++ [newRoom s.autoIncrement roomID roomVersion] } }
    else none
  | .selectRoomNIDStmt t roomID =>
    some (s.setTxn t ((s.txns t).record (.selectRoomNID roomID (selectRoomNIDSQL roomID (s.view t)))))
  | .selectLatestEventNIDsStmt t roomNID =>
    some (s.setTxn t ((s.txns t).record
      (.selectLatestEventNIDs roomNID (selectLatestEventNIDsSQL roomNID (s.view t)))))
  | .selectLatestEventNIDsForUpdateStmt t roomNID =>
    if Free (s.rowLocks roomNID) t then
      let x := (s.txns t).record (.selectLatestEventsNIDsForUpdate roomNID
        (selectLatestEventNIDsForUpdateSQL roomNID (s.view t)))
      if roomNID ∈ (s.view t).map (·.roomNID) then some ((s.lockRow t roomNID).setTxn t x)
      else some (s.setTxn t x)
    else none
  | .updateLatestEventNIDsStmt t roomNID v =>
    if Free (s.rowLocks roomNID) t then
      if roomNID ∈ (s.view t).map (·.roomNID) then
        some ((s.lockRow t roomNID).setTxn t { (s.txns t).record (.updateLatestEventNIDs roomNID v) with
          updated := Function.update (s.txns t).updated roomNID (some v) })
      else some s
    else none
  | .selectRoomVersionForRoomIDStmt t roomID =>
    some (s.setTxn t ((s.txns t).record
      (.selectRoomVersionForRoomID roomID (selectRoomVersionForRoomID roomID (s.view t)))))
  | .selectRoomVersionForRoomNIDStmt c roomNID =>
    some { s with history := s.history ++
      [(c, [.selectRoomVersionForRoomNID roomNID (selectRoomVersionForRoomNID roomNID s.rooms)])] }
  | .commit t => some (s.commitTxn t)
  | .rollback t => some (s.endTxn t)

/-- Runs the statements in turn; one that has to wait is skipped. -/
def run (s : RoomSystem) : List RoomAction → RoomSystem
  | [] => s
  | a :: as => ((s.step a).getD s).run as

variable {s : RoomSystem} {t t' : Nat} {x : RoomTxn}

@[simp] theorem setTxn_rooms : (s.setTxn t x).rooms = s.rooms := rfl
@[simp] theorem setTxn_rowLocks : (s.setTxn t x).rowLocks = s.rowLocks := rfl
@[simp] theorem setTxn_history : (s.setTxn t x).history = s.history := rfl
@[simp] theorem setTxn_txns_self : (s.setTxn t x).txns t = x := Function.update_same _ _ _

@[simp] theorem lockRow_rooms {n : Nat} : (s.lockRow t n).rooms = s.rooms := rfl
@[simp] theorem lockRow_txns {n : Nat} : (s.lockRow t n).txns = s.txns := rfl
@[simp] theorem lockRow_history {n : Nat} : (s.lockRow t n).history = s.history := rfl

theorem setTxn_txns_of_ne (h : t' ≠ t) : (s.setTxn t x).txns t' = s.txns t' :=
  Function.update_noteq h _ _

@[simp] theorem endTxn_rooms : (s.endTxn t).rooms = s.rooms := rfl
@[simp] theorem endTxn_autoIncrement : (s.endTxn t).autoIncrement = s.autoIncrement := rfl
@[simp] theorem endTxn_rowLocks : (s.endTxn t).rowLocks = release s.rowLocks t := rfl
@[simp] theorem endTxn_keyLocks : (s.endTxn t).keyLocks = release s.keyLocks t := rfl
@[simp] theorem endTxn_history : (s.endTxn t).history = s.history := rfl
@[simp] theorem endTxn_txns_self : (s.endTxn t).txns t = .fresh := Function.update_same _ _ _

theorem endTxn_txns_of_ne (h : t' ≠ t) : (s.endTxn t).txns t' = s.txns t' :=
  Function.update_noteq h _ _

theorem endTxn_inserted_sublist :
    List.Sublist ((s.endTxn t).txns t').inserted (s.txns t').inserted := by
  rcases eq_or_ne t' t with rfl | h
  · simp
  · rw [endTxn_txns_of_ne h]

theorem mem_endTxn_inserted {r : RoomRow} :
    r ∈ ((s.endTxn t).txns t').inserted ↔ t' ≠ t ∧ r ∈ (s.txns t').inserted := by
  rcases eq_or_ne t' t with rfl | h
  · simp
  · simp [endTxn_txns_of_ne h, h]

@[simp] theorem commitTxn_rooms : (s.commitTxn t).rooms = s.view t := rfl
@[simp] theorem commitTxn_autoIncrement : (s.commitTxn t).autoIncrement = s.autoIncrement := rfl
@[simp] theorem commitTxn_rowLocks : (s.commitTxn t).rowLocks = release s.rowLocks t := rfl
@[simp] theorem commitTxn_keyLocks : (s.commitTxn t).keyLocks = release s.keyLocks t := rfl
@[simp] theorem commitTxn_txns : (s.commitTxn t).txns = (s.endTxn t).txns := rfl
@[simp] theorem commitTxn_history :
    (s.commitTxn t).history = s.history ++ [(t, (s.txns t).calls)] := rfl

@[simp] theorem commitTxn_historyCalls :
    (s.commitTxn t).historyCalls = s.historyCalls ++ (s.txns t).calls := by
  simp [historyCalls]

theorem release_eq_some {α : Type} {l : α → Option Nat} {k : α} :
    release l t k = some t' ↔ l k = some t' ∧ t' ≠ t := by
  unfold release
  split
  · simp_all [eq_comm]
  · constructor
    · intro h; exact ⟨h, fun he => by simp_all⟩
    · exact And.left

theorem view_step_update {n : Nat} {v : LatestEvents} {s' : RoomSystem}
    (h : s.step (.updateLatestEventNIDsStmt t n v) = some s') :
    s'.view t = updateLatestEventNIDsSQL n v (s.view t) := by
  simp only [step] at h
  split_ifs at h with hf hn <;> cases h
  · simp only [view, setTxn_txns_self, lockRow_rooms, RoomTxn.view, updateLatestEventNIDsSQL,
      List.map_map]
    refine List.map_congr_left fun r _ => ?_
    show ({ s.txns t with updated := Function.update (s.txns t).updated n (some v) } : RoomTxn).apply r = _
    rw [RoomTxn.apply_update]
    by_cases he : r.roomNID = n <;> simp [he]
  · exact (updateLatestEventNIDsSQL_of_not_mem hn).symm

theorem run_append (s : RoomSystem) (as bs : List RoomAction) :
    s.run (as ++ bs) = (s.run as).run bs := by
  induction as generalizing s with
  | nil => rfl
  | cons a as ih => exact ih _

theorem history_run (s : RoomSystem) (as : List RoomAction) :
    ∃ h, (s.run as).history = s.history ++ h := by
  induction as generalizing s with
  | nil => exact ⟨[], (List.append_nil _).symm⟩
  | cons a as ih =>
    obtain ⟨h, hh⟩ := ih ((s.step a).getD s)
    have : ∃ h', ((s.step a).getD s).history = s.history ++ h' := by
      cases a <;> simp only [step] <;> (try split_ifs) <;>
        first | exact ⟨[], (List.append_nil _).symm⟩ | exact ⟨_, rfl⟩
    obtain ⟨h', hh'⟩ := this
    exact ⟨h' ++ h, by simp [run, hh, hh']⟩

end RoomSystem

end Dendrite.RoomServer

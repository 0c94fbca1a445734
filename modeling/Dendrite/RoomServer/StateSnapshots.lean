import Dendrite.RoomServer.Int64Array
import Mathlib.Data.List.Sort

/-! `roomserver_state_snapshots` on SQLite, with `stateSnapshotStatements.insertState` and
`bulkSelectStateBlockNIDs` (the sqlite3 `state_snapshot_table.go`, `src/unnamed/part_001`), as
go-sqlite3 runs them: a prepared text runs its first statement only. -/

namespace Dendrite.RoomServer

structure SnapshotRow where
  stateSnapshotNID : Int
  roomNID : Int
  stateBlockNIDs : String
  deriving DecidableEq

/-- The table, with `sqlite_sequence`'s entry for it: the largest `state_snapshot_nid`
`AUTOINCREMENT` has handed out. -/
structure SnapshotTable where
  rows : List SnapshotRow
  seq : Int
  deriving DecidableEq

/-- The `rowid` `AUTOINCREMENT` gives a new row: one more than the largest it handed out and than
the largest in the table. -/
def SnapshotTable.nextRowid (t : SnapshotTable) : Int :=
  (t.rows.map (·.stateSnapshotNID)).foldl max t.seq + 1

/-- `insertStateSQL` with `$1 = roomNID` and `$2` bound to the text `stateBlockNIDs`, as
`QueryRowContext` runs the prepared text under go-sqlite3: only its first statement, the `INSERT`
(`SQLITE_FULL` past the largest `rowid`). The `INSERT` returns no row, so `Scan` reports
`ErrNoRows`; the `SELECT` after it never runs. -/
def insertStateSQL (roomNID : Int) (stateBlockNIDs : String) (t : SnapshotTable) :
    Except DBError Int × SnapshotTable :=
  if t.nextRowid < 2 ^ 63 then
    (.error .errNoRows, ⟨t.rows ++ [⟨t.nextRowid, roomNID, stateBlockNIDs⟩], t.nextRowid⟩)
  else (.error .databaseFull, t)

def insertState (roomNID : Int) (stateBlockNIDs : List Int) (t : SnapshotTable) :
    Except DBError Int × SnapshotTable :=
  insertStateSQL roomNID (int64ArrayText stateBlockNIDs) t

def insertStates (t : SnapshotTable) : List (Int × List Int) → List (Except DBError Int) × SnapshotTable
  | [] => ([], t)
  | (roomNID, stateBlockNIDs) :: calls =>
    let call := insertState roomNID stateBlockNIDs t
    let rest := insertStates call.2 calls
    (call.1 :: rest.1, rest.2)

/-- `bulkSelectStateBlockNIDsSQL` with `$1` bound to `pq.Int64Array(nids)`: the rows with
`state_snapshot_nid IN ($1)`, by ascending `state_snapshot_nid`. -/
def bulkSelectStateBlockNIDsSQL (nids : List Int) (rows : List SnapshotRow) : List SnapshotRow :=
  (rows.filter fun r => inParam r.stateSnapshotNID (int64ArrayValue nids)).mergeSort
    fun r r' => r.stateSnapshotNID ≤ r'.stateSnapshotNID

structure StateBlockNIDList where
  stateSnapshotNID : Int
  stateBlockNIDs : List Int
  deriving DecidableEq

/-- How `bulkSelectStateBlockNIDs` ends: with its results, with an error, or with the Go
runtime's panic at `results[i]` past the end of a slice of length `len`. -/
inductive BulkSelectResult
  | ok (results : List StateBlockNIDList)
  | error (e : DBError)
  | indexOutOfRange (i len : Nat)
  deriving DecidableEq

def stateNIDsMissing (i n : Nat) : DBError :=
  .message ("storage: state NIDs missing from the database (" ++ toString i ++ " != " ++
    toString n ++ ")")

def scanSnapshotRows (results : List StateBlockNIDList) (i : Nat) :
    List SnapshotRow → BulkSelectResult
  | [] => if i ≠ results.length then .error (stateNIDsMissing i results.length) else .ok results
  | row :: rows =>
    if i < results.length then
      match scanInt64Array row.stateBlockNIDs with
      | .error e => .error e
      | .ok blocks => scanSnapshotRows (results.set i ⟨row.stateSnapshotNID, blocks⟩) (i + 1) rows
    else .indexOutOfRange i results.length

def bulkSelectStateBlockNIDs (stateNIDs : List Int) (t : SnapshotTable) : BulkSelectResult :=
  scanSnapshotRows (List.replicate stateNIDs.length ⟨0, []⟩) 0
    (bulkSelectStateBlockNIDsSQL stateNIDs t.rows)

theorem le_foldl_max (l : List Int) (a : Int) : a ≤ l.foldl max a := by
  induction l generalizing a with
  | nil => exact le_refl a
  | cons x l ih => exact (le_max_left a x).trans (ih (max a x))

theorem seq_lt_nextRowid (t : SnapshotTable) : t.seq < t.nextRowid :=
  Int.lt_add_one_of_le (le_foldl_max _ _)

theorem insertStates_full {t : SnapshotTable} (h : ¬ t.nextRowid < 2 ^ 63)
    (calls : List (Int × List Int)) :
    insertStates t calls = (List.replicate calls.length (.error .databaseFull), t) := by
  induction calls with
  | nil => rfl
  | cons c calls ih =>
    simp only [insertStates, insertState, insertStateSQL, if_neg h, ih]
    rfl

theorem insertStates_rows (t : SnapshotTable) (calls : List (Int × List Int)) :
    ∃ k new, (insertStates t calls).1 = List.replicate k (.error .errNoRows) ++
        List.replicate (calls.length - k) (.error .databaseFull) ∧
      (insertStates t calls).2.rows = t.rows ++ new ∧
      new.map (fun r => (r.roomNID, r.stateBlockNIDs)) =
        (calls.take k).map (fun c => (c.1, int64ArrayText c.2)) ∧
      (new.map (·.stateSnapshotNID)).Pairwise (· < ·) ∧ ∀ r ∈ new, t.seq < r.stateSnapshotNID := by
  induction calls generalizing t with
  | nil => exact ⟨0, [], rfl, (List.append_nil _).symm, rfl, .nil, nofun⟩
  | cons c calls ih =>
    by_cases h : t.nextRowid < 2 ^ 63
    · obtain ⟨k, new, h₁, h₂, h₃, h₄, h₅⟩ :=
        ih ⟨t.rows ++ [⟨t.nextRowid, c.1, int64ArrayText c.2⟩], t.nextRowid⟩
      have hlt := seq_lt_nextRowid t
      refine ⟨k + 1, ⟨t.nextRowid, c.1, int64ArrayText c.2⟩ :: new, ?_, ?_, ?_, ?_, ?_⟩
      · simp only [insertStates, insertState, insertStateSQL, if_pos h, h₁, List.length_cons,
          Nat.add_sub_add_right, List.replicate_succ, List.cons_append]
      · simp only [insertStates, insertState, insertStateSQL, if_pos h, h₂, List.append_assoc,
          List.singleton_append]
      · simp only [List.map_cons, h₃, List.take_succ_cons]
      · exact List.Pairwise.cons (by simpa using h₅) h₄
      · exact List.forall_mem_cons.mpr ⟨hlt, fun r hr => hlt.trans (h₅ r hr)⟩
    · refine ⟨0, [], ?_, ?_, rfl, .nil, nofun⟩ <;> simp [insertStates_full h]

theorem bulkSelectStateBlockNIDsSQL_eq_nil (nids : List Int) (rows : List SnapshotRow) :
    bulkSelectStateBlockNIDsSQL nids rows = [] := by
  simp [bulkSelectStateBlockNIDsSQL, inParam_int64ArrayValue]

theorem scanSnapshotRows_nil (n : Nat) :
    scanSnapshotRows (List.replicate n ⟨0, []⟩) 0 [] =
      if n = 0 then .ok [] else .error (stateNIDsMissing 0 n) := by
  cases n <;> simp [scanSnapshotRows]

theorem bulkSelectStateBlockNIDs_eq (stateNIDs : List Int) (t : SnapshotTable) :
    bulkSelectStateBlockNIDs stateNIDs t =
      if stateNIDs = [] then .ok [] else .error (stateNIDsMissing 0 stateNIDs.length) := by
  rw [bulkSelectStateBlockNIDs, bulkSelectStateBlockNIDsSQL_eq_nil, scanSnapshotRows_nil]
  simp only [List.length_eq_zero]

theorem insertStates_bulkSelect (t : SnapshotTable) (calls : List (Int × List Int))
    (S : List Int) (hv : ∀ c ∈ calls, ∀ v ∈ c.2, Int64Range v) :
    ∃ k new, (insertStates t calls).1 = List.replicate k (.error .errNoRows) ++
        List.replicate (calls.length - k) (.error .databaseFull) ∧
      (insertStates t calls).2.rows = t.rows ++ new ∧
      (new.map (·.stateSnapshotNID)).Pairwise (· < ·) ∧
      new.map (fun r => (r.roomNID, scanInt64Array r.stateBlockNIDs)) =
        (calls.take k).map (fun c => (c.1, .ok c.2)) ∧
      bulkSelectStateBlockNIDs S (insertStates t calls).2 =
        if S = [] then .ok [] else .error (stateNIDsMissing 0 S.length) := by
  obtain ⟨k, new, h₁, h₂, h₃, h₄, -⟩ := insertStates_rows t calls
  refine ⟨k, new, h₁, h₂, h₄, ?_, bulkSelectStateBlockNIDs_eq S _⟩
  have hmap := congrArg (List.map fun p => (p.1, scanInt64Array p.2)) h₃
  simp only [List.map_map, Function.comp_def] at hmap
  rw [hmap]
  exact List.map_congr_left fun c hc =>
    by rw [scanInt64Array_int64ArrayText (hv c (List.mem_of_mem_take hc))]

theorem insertStates_bulkSelect_seven :
    (∀ c ∈ [((1 : Int), [(7 : Int)])], ∀ v ∈ c.2, Int64Range v) ∧
      insertStates ⟨[], 0⟩ [(1, [7])] = ([.error .errNoRows], ⟨[⟨1, 1, "{7}"⟩], 1⟩) ∧
      bulkSelectStateBlockNIDs [1] (insertStates ⟨[], 0⟩ [(1, [7])]).2 =
        .error (stateNIDsMissing 0 1) := by
  have hv : ∀ c ∈ [((1 : Int), [(7 : Int)])], ∀ v ∈ c.2, Int64Range v := by decide
  obtain ⟨_, _, -, -, -, -, h⟩ := insertStates_bulkSelect ⟨[], 0⟩ [(1, [7])] [1] hv
  exact ⟨hv, by decide, h⟩

def scanSnapshotRow (row : SnapshotRow) : Except DBError StateBlockNIDList :=
  (scanInt64Array row.stateBlockNIDs).map (⟨row.stateSnapshotNID, ·⟩)

theorem scanSnapshotRows_append (done rest : List StateBlockNIDList) (rows : List SnapshotRow) :
    scanSnapshotRows (done ++ rest) done.length rows =
      match (rows.take rest.length).mapM scanSnapshotRow with
      | .error e => .error e
      | .ok res =>
        if rest.length < rows.length then
          .indexOutOfRange (done.length + rest.length) (done.length + rest.length)
        else if rows.length = rest.length then .ok (done ++ res)
        else .error (stateNIDsMissing (done.length + rows.length) (done.length + rest.length)) := by
  induction rows generalizing done rest with
  | nil =>
    cases rest <;> simp [scanSnapshotRows] <;>
      first | rfl | exact (congrArg BulkSelectResult.ok (List.append_nil done)).symm
  | cons row rows ih =>
    cases rest with
    | nil => simp [scanSnapshotRows]; rfl
    | cons x rest =>
      rw [scanSnapshotRows, if_pos (by simp)]
      simp only [List.length_cons, List.take_succ_cons, List.mapM_cons, scanSnapshotRow]
      cases hs : scanInt64Array row.stateBlockNIDs with
      | error e => rfl
      | ok blocks =>
        have hset : (done ++ x :: rest).set done.length ⟨row.stateSnapshotNID, blocks⟩ =
            (done ++ [⟨row.stateSnapshotNID, blocks⟩]) ++ rest := by
          simp
        have hlen : (done ++ [(⟨row.stateSnapshotNID, blocks⟩ : StateBlockNIDList)]).length =
            done.length + 1 := by
          simp
        simp only [hset, ← hlen, ih]
        simp only [hlen, Except.map, bind, Except.bind, pure, Except.pure]
        cases (rows.take rest.length).mapM scanSnapshotRow with
        | error e => rfl
        | ok res =>
          simp only [List.append_assoc, List.singleton_append, Nat.add_lt_add_iff_right,
            Nat.add_right_cancel_iff, Nat.add_assoc, Nat.add_comm 1]

theorem scanSnapshotRows_rows (n : Nat) (rows : List SnapshotRow) :
    scanSnapshotRows (List.replicate n ⟨0, []⟩) 0 rows =
      match (rows.take n).mapM scanSnapshotRow with
      | .error e => .error e
      | .ok res =>
        if n < rows.length then .indexOutOfRange n n
        else if rows.length = n then .ok res
        else .error (stateNIDsMissing rows.length n) := by
  have h := scanSnapshotRows_append [] (List.replicate n ⟨0, []⟩) rows
  simp only [List.nil_append, List.length_nil, List.length_replicate, Nat.zero_add] at h
  exact h

end Dendrite.RoomServer

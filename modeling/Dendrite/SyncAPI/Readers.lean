import Dendrite.SyncAPI.StateInRange
import Mathlib.Data.List.Sort

/-! The readers of `syncapi_output_room_events` that go through `rowsToStreamEvents`:
`SelectRecentEvents`, `SelectEarlyEvents` and `SelectEvents`
(`syncapi/storage/mysql/output_room_events_table.go`). They see every row the schema admits,
including a `headered_event_json` that does not decode and a `NULL` `exclude_from_sync`. -/

namespace Dendrite.SyncAPI

structure StoredEvent where
  id : Nat
  roomID : String
  eventID : String
  /-- `none` when `json.Unmarshal` rejects the text. -/
  headeredEventJSON : Option HeaderedEvent
  sessionID : Option Int
  transactionID : Option String
  /-- `none` for `NULL`: the column has a default but no `NOT NULL`. -/
  excludeFromSync : Option Bool
  deriving DecidableEq, Repr

structure OutputLog where
  rows : List StoredEvent
  id_nodup : (rows.map (·.id)).Nodup
  eventID_nodup : (rows.map (·.eventID)).Nodup

def transactionIDOf : Option Int → Option String → Option TransactionID
  | some sessionID, some txnID => some ⟨sessionID, txnID⟩
  | _, _ => none

/-- One row of `rowsToStreamEvents`: the `Scan` (a `NULL` does not go into a Go `bool`), then the
`json.Unmarshal` of the headered event. -/
def toStreamEvent (r : StoredEvent) : Except DBError StreamEvent := do
  let excludeFromSync ← match r.excludeFromSync with
    | some b => pure b
    | none => throw (.nullScan "exclude_from_sync")
  let ev ← match r.headeredEventJSON with
    | some ev => pure ev
    | none => throw (.unmarshal "headered_event_json")
  return ⟨ev, r.id, transactionIDOf r.sessionID r.transactionID, excludeFromSync⟩

def rowsToStreamEvents (rows : List StoredEvent) : Except DBError (List StreamEvent) :=
  rows.mapM toStreamEvent

def orderByID (descending : Bool) (r r' : StoredEvent) : Bool :=
  if descending then r'.id ≤ r.id else r.id ≤ r'.id

/-- The window statements: the rows of `roomID` with `low < id ≤ high` (with `forSync`, only
those with `exclude_from_sync = FALSE`, which a `NULL` is not), ordered by `id`, at most `limit`
of them. -/
def windowSQL (forSync descending : Bool) (roomID : String) (low high limit : Nat)
    (rows : List StoredEvent) : List StoredEvent :=
  ((rows.filter fun r => r.roomID == roomID && low < r.id && r.id ≤ high &&
      (!forSync || r.excludeFromSync == some false)).mergeSort (orderByID descending)).take limit

def selectRecentEventsSQL : String → Nat → Nat → Nat → List StoredEvent → List StoredEvent :=
  windowSQL false true

def selectRecentEventsForSyncSQL : String → Nat → Nat → Nat → List StoredEvent → List StoredEvent :=
  windowSQL true true

def selectEarlyEventsSQL : String → Nat → Nat → Nat → List StoredEvent → List StoredEvent :=
  windowSQL false false

def sortByStreamPosition (events : List StreamEvent) : List StreamEvent :=
  events.mergeSort fun e e' => e.streamPosition ≤ e'.streamPosition

def selectRecentEvents (roomID : String) (low high limit : Nat)
    (chronologicalOrder onlySyncEvents : Bool) (log : OutputLog) :
    Except DBError (List StreamEvent) := do
  let stmt := if onlySyncEvents then selectRecentEventsForSyncSQL else selectRecentEventsSQL
  let events ← rowsToStreamEvents (stmt roomID low high limit log.rows)
  return if chronologicalOrder then sortByStreamPosition events else events

def selectEarlyEvents (roomID : String) (low high limit : Nat) (log : OutputLog) :
    Except DBError (List StreamEvent) := do
  let events ← rowsToStreamEvents (selectEarlyEventsSQL roomID low high limit log.rows)
  return sortByStreamPosition events

/-- `selectEventsSQL` with `$1` bound to one event ID: the row of that ID. -/
def selectEventsSQL (eventID : String) (rows : List StoredEvent) : List StoredEvent :=
  rows.filter (·.eventID == eventID)

/-- One pass of the loop of `SelectEvents`: the events of a query whose `rowsToStreamEvents` fails
are dropped. -/
def selectEventsStep (rows : List StoredEvent) (returnEvents : List StreamEvent)
    (eventID : String) : List StreamEvent :=
  match rowsToStreamEvents (selectEventsSQL eventID rows) with
  | .ok streamEvents => returnEvents ++ streamEvents
  | .error _ => returnEvents

def selectEvents (eventIDs : List String) (log : OutputLog) : Except DBError (List StreamEvent) :=
  .ok (eventIDs.foldl (selectEventsStep log.rows) [])

theorem mergeSort_eq_of_perm {α : Type} {le : α → α → Bool} {l l' : List α}
    (trans : ∀ a b c, le a b → le b c → le a c) (total : ∀ a b, (le a b || le b a) = true)
    (hp : l.Perm l') (hs : l'.Pairwise fun a b => ¬ le b a) : l.mergeSort le = l' := by
  haveI : IsAntisymm α fun a b => ¬ le b a :=
    ⟨fun a b h h' => absurd (total a b) (by simp [h, h'])⟩
  have hp' := (List.mergeSort_perm l le).trans hp
  have hnt : (l.mergeSort le).Pairwise fun a b => ¬ (le a b ∧ le b a) :=
    (hp'.pairwise_iff fun h h' => h ⟨h'.2, h'.1⟩).mpr (hs.imp fun h h' => h h'.2)
  exact List.eq_of_perm_of_sorted hp'
    (((List.sorted_mergeSort trans total l).and hnt).imp fun h h' => h.2 ⟨h.1, h'⟩) hs

theorem mergeSort_orderByID_asc {rows : List StoredEvent} (hs : rows.Pairwise (·.id < ·.id)) :
    rows.mergeSort (orderByID false) = rows :=
  List.mergeSort_of_sorted (hs.imp fun h => by simpa [orderByID] using h.le)

theorem mergeSort_orderByID_desc {rows : List StoredEvent} (hs : rows.Pairwise (·.id < ·.id)) :
    rows.mergeSort (orderByID true) = rows.reverse :=
  mergeSort_eq_of_perm (fun a b c h h' => by simp only [orderByID] at *; simp at *; omega)
    (fun a b => by simp only [orderByID]; simp; omega) (List.reverse_perm rows).symm
    (List.pairwise_reverse.mpr (hs.imp fun h => by simpa [orderByID] using h))

theorem sortByStreamPosition_eq {events events' : List StreamEvent} (hp : events.Perm events')
    (hs : events'.Pairwise (·.streamPosition < ·.streamPosition)) :
    sortByStreamPosition events = events' :=
  mergeSort_eq_of_perm (fun a b c h h' => by simp at *; omega) (fun a b => by simp; omega) hp
    (hs.imp fun h => by simpa using h)

@[simp] theorem rowsToStreamEvents_nil : rowsToStreamEvents [] = .ok [] := rfl

theorem rowsToStreamEvents_cons (r : StoredEvent) (rows : List StoredEvent) :
    rowsToStreamEvents (r :: rows) =
      toStreamEvent r >>= fun ev => rowsToStreamEvents rows >>= fun evs => pure (ev :: evs) :=
  List.mapM_cons _

theorem mem_of_rowsToStreamEvents {rows : List StoredEvent} {evs : List StreamEvent}
    (h : rowsToStreamEvents rows = .ok evs) : ∀ ev ∈ evs, ∃ r ∈ rows, toStreamEvent r = .ok ev := by
  induction rows generalizing evs with
  | nil => cases h; nofun
  | cons r rows ih =>
    rw [rowsToStreamEvents_cons] at h
    obtain ⟨ev₀, hr, h⟩ := bind_eq_ok h
    obtain ⟨evs', hrs, h⟩ := bind_eq_ok h
    cases h
    rintro ev (_ | ⟨_, hev⟩)
    · exact ⟨r, List.mem_cons_self _ _, hr⟩
    · obtain ⟨r', hr', he⟩ := ih hrs ev hev
      exact ⟨r', List.mem_cons_of_mem _ hr', he⟩

theorem rowsToStreamEvents_error {rows : List StoredEvent} {r : StoredEvent} (hr : r ∈ rows)
    {e : DBError} (he : toStreamEvent r = .error e) : ∃ e', rowsToStreamEvents rows = .error e' := by
  induction rows with
  | nil => cases hr
  | cons r₀ rows ih =>
    rw [rowsToStreamEvents_cons]
    cases h₀ : toStreamEvent r₀ with
    | error e₀ => exact ⟨e₀, rfl⟩
    | ok ev₀ =>
      rcases List.mem_cons.mp hr with rfl | hr
      · rw [he] at h₀; cases h₀
      · obtain ⟨e', he'⟩ := ih hr
        exact ⟨e', by simp [he']; rfl⟩

theorem foldl_selectEventsStep (rows : List StoredEvent) (eventIDs : List String)
    (returnEvents : List StreamEvent) :
    eventIDs.foldl (selectEventsStep rows) returnEvents =
      returnEvents ++ eventIDs.flatMap fun eventID => selectEventsStep rows [] eventID := by
  induction eventIDs generalizing returnEvents with
  | nil => simp
  | cons eventID eventIDs ih =>
    rw [List.foldl_cons, ih, List.flatMap_cons, ← List.append_assoc]
    congr 1
    unfold selectEventsStep
    split <;> simp

theorem selectEventsSQL_length (log : OutputLog) (eventID : String) :
    (selectEventsSQL eventID log.rows).length ≤ 1 := by
  have hnd : ((selectEventsSQL eventID log.rows).map (·.eventID)).Nodup :=
    log.eventID_nodup.sublist ((List.filter_sublist _).map _)
  have hrep : (selectEventsSQL eventID log.rows).map (·.eventID) =
      List.replicate (selectEventsSQL eventID log.rows).length eventID :=
    List.eq_replicate_iff.mpr ⟨List.length_map _ _, fun b hb => by
      obtain ⟨r, hr, rfl⟩ := List.mem_map.mp hb
      simpa using (List.mem_filter.mp hr).2⟩
  rwa [hrep, List.nodup_replicate] at hnd

theorem selectEventsStep_nil (log : OutputLog) (eventID : String) :
    selectEventsStep log.rows [] eventID =
      (selectEventsSQL eventID log.rows).filterMap fun r => (toStreamEvent r).toOption := by
  have hle := selectEventsSQL_length log eventID
  unfold selectEventsStep
  cases hq : selectEventsSQL eventID log.rows with
  | nil => rfl
  | cons r rows =>
    cases rows with
    | nil =>
      simp only [rowsToStreamEvents_cons, List.filterMap_cons, List.filterMap_nil]
      cases toStreamEvent r <;> rfl
    | cons r' rows => simp [hq] at hle

theorem selectEvents_unreadable_as_missing (eventIDs : List String) (log : OutputLog) :
    selectEvents eventIDs log = .ok (eventIDs.flatMap fun eventID =>
      (log.rows.filter (·.eventID == eventID)).filterMap fun r => (toStreamEvent r).toOption) := by
  rw [selectEvents, foldl_selectEventsStep, List.nil_append]
  simp only [selectEventsStep_nil, selectEventsSQL]

theorem mem_selectEvents {eventIDs : List String} {log : OutputLog} {evs : List StreamEvent}
    (h : selectEvents eventIDs log = .ok evs) : ∀ ev ∈ evs, ∃ r ∈ log.rows, toStreamEvent r = .ok ev := by
  rw [selectEvents, foldl_selectEventsStep, List.nil_append] at h
  cases h
  intro ev hev
  obtain ⟨eventID, -, hev⟩ := List.mem_flatMap.mp hev
  unfold selectEventsStep at hev
  split at hev
  · next evs' h =>
    obtain ⟨r, hr, he⟩ := mem_of_rowsToStreamEvents h ev (by simpa using hev)
    exact ⟨r, (List.mem_filter.mp hr).1, he⟩
  · cases hev

theorem mem_windowSQL {forSync descending : Bool} {roomID : String} {low high limit : Nat}
    {rows : List StoredEvent} {r : StoredEvent}
    (h : r ∈ windowSQL forSync descending roomID low high limit rows) : r ∈ rows :=
  (List.mem_filter.mp (List.mem_mergeSort.mp (List.mem_of_mem_take h))).1

@[simp] theorem mem_sortByStreamPosition {ev : StreamEvent} {events : List StreamEvent} :
    ev ∈ sortByStreamPosition events ↔ ev ∈ events :=
  List.mem_mergeSort

theorem mem_selectRecentEvents {roomID : String} {low high limit : Nat}
    {chronologicalOrder onlySyncEvents : Bool} {log : OutputLog} {evs : List StreamEvent}
    (h : selectRecentEvents roomID low high limit chronologicalOrder onlySyncEvents log = .ok evs) :
    ∀ ev ∈ evs, ∃ r ∈ log.rows, toStreamEvent r = .ok ev := by
  dsimp only [selectRecentEvents] at h
  obtain ⟨events, hr, h⟩ := bind_eq_ok h
  cases h
  intro ev hev
  obtain ⟨r, hrm, he⟩ := mem_of_rowsToStreamEvents hr ev (by split at hev <;> simpa using hev)
  have hrows : r ∈ log.rows := by split at hrm <;> exact mem_windowSQL hrm
  exact ⟨r, hrows, he⟩

theorem mem_selectEarlyEvents {roomID : String} {low high limit : Nat} {log : OutputLog}
    {evs : List StreamEvent} (h : selectEarlyEvents roomID low high limit log = .ok evs) :
    ∀ ev ∈ evs, ∃ r ∈ log.rows, toStreamEvent r = .ok ev := by
  obtain ⟨events, hr, h⟩ := bind_eq_ok h
  cases h
  intro ev hev
  obtain ⟨r, hrm, he⟩ := mem_of_rowsToStreamEvents hr ev (by simpa using hev)
  exact ⟨r, mem_windowSQL hrm, he⟩

theorem exists_error_of_rowsToStreamEvents {rows : List StoredEvent} {e : DBError}
    (h : rowsToStreamEvents rows = .error e) : ∃ r ∈ rows, ∃ e, toStreamEvent r = .error e := by
  induction rows generalizing e with
  | nil => cases h
  | cons r rows ih =>
    rw [rowsToStreamEvents_cons] at h
    cases hr : toStreamEvent r with
    | error e' => exact ⟨r, List.mem_cons_self _ _, e', hr⟩
    | ok ev =>
      cases hrs : rowsToStreamEvents rows with
      | error e' =>
        obtain ⟨r', hr', he'⟩ := ih hrs
        exact ⟨r', List.mem_cons_of_mem _ hr', he'⟩
      | ok evs => simp [hr, hrs] at h; cases h

theorem rowsToStreamEvents_error_iff {rows : List StoredEvent} :
    (∃ e, rowsToStreamEvents rows = .error e) ↔ ∃ r ∈ rows, ∃ e, toStreamEvent r = .error e :=
  ⟨fun ⟨_, h⟩ => exists_error_of_rowsToStreamEvents h,
    fun ⟨_, hr, _, he⟩ => rowsToStreamEvents_error hr he⟩

theorem windowReaders_error_iff (roomID : String) (low high limit : Nat)
    (chronologicalOrder onlySyncEvents : Bool) (log : OutputLog) :
    ((∃ e, selectRecentEvents roomID low high limit chronologicalOrder onlySyncEvents log =
        .error e) ↔
      ∃ r ∈ (if onlySyncEvents then selectRecentEventsForSyncSQL else selectRecentEventsSQL)
        roomID low high limit log.rows, ∃ e, toStreamEvent r = .error e) ∧
    ((∃ e, selectEarlyEvents roomID low high limit log = .error e) ↔
      ∃ r ∈ selectEarlyEventsSQL roomID low high limit log.rows, ∃ e, toStreamEvent r = .error e) := by
  have hbind : ∀ (x : Except DBError (List StreamEvent)) (f : List StreamEvent → List StreamEvent),
      (∃ e, (x >>= fun evs => pure (f evs)) = .error e) ↔ ∃ e, x = .error e := fun x f => by
    cases x <;> simp [bind, Except.bind, pure, Except.pure]
  refine ⟨?_, ?_⟩
  · dsimp only [selectRecentEvents]
    rw [hbind, rowsToStreamEvents_error_iff]
  · rw [selectEarlyEvents, hbind, rowsToStreamEvents_error_iff]

end Dendrite.SyncAPI

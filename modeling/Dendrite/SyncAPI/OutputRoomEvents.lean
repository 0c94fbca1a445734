import Dendrite.SyncAPI.StreamID
import Mathlib.Data.Nat.Defs

/-! Rows of `syncapi_output_room_events` and `outputRoomEventsStatements.InsertEvent`,
`syncapi/storage/mysql/output_room_events_table.go`. A JSON column is represented by the JSON
value its text holds. -/

namespace Dendrite.SyncAPI

/-- An event's `content` as `json.Unmarshal` into a `map[string]interface{}` sees it. -/
inductive EventContent
  | object (keys : List String)
  /-- A JSON object holding a value the map cannot take, a number beyond `float64`: `Unmarshal`
  saves the `UnmarshalTypeError`, fills the map with every key, and returns the error. -/
  | objectTypeError (keys : List String) (err : String)
  | other
  deriving DecidableEq, Repr

structure HeaderedEvent where
  eventID : String
  roomID : String
  type : String
  sender : String
  content : EventContent
  deriving DecidableEq, Repr

structure TransactionID where
  sessionID : Int
  transactionID : String
  deriving DecidableEq, Repr

/-- The text `json.Marshal` writes for a Go `[]string`: `null` for the nil slice. -/
inductive StateIDsJSON
  | null
  | array (ids : List String)
  deriving DecidableEq, Repr

def marshalStateIDs : Option (List String) → StateIDsJSON
  | none => .null
  | some ids => .array ids

def StateIDsJSON.ids : StateIDsJSON → List String
  | .null => []
  | .array ids => ids

@[simp] theorem ids_marshalStateIDs (s : Option (List String)) :
    (marshalStateIDs s).ids = s.getD [] := by
  cases s <;> rfl

/-- `json.Unmarshal(event.Content(), &content)`: its error, and the map it leaves (nil on error). -/
def unmarshalContent : EventContent → Option String × List String
  | .object keys => (none, keys)
  | .objectTypeError keys err => (some err, keys)
  | .other => (some "json: cannot unmarshal into map[string]interface {}", [])

/-- `containsURL` of `InsertEvent`: the `url` lookup runs only when `json.Unmarshal` fails. -/
def containsURL (c : EventContent) : Bool :=
  let (err, content) := unmarshalContent c
  if err.isSome then content.contains "url" else false

theorem containsURL_of_decoded {c : EventContent} (h : (unmarshalContent c).1 = none) :
    containsURL c = false := by
  cases c <;> simp_all [unmarshalContent, containsURL]

structure OutputRoomEvent where
  id : Nat
  roomID : String
  eventID : String
  headeredEventJSON : HeaderedEvent
  type : String
  sender : String
  containsURL : Bool
  addStateIDs : Option StateIDsJSON
  removeStateIDs : Option StateIDsJSON
  sessionID : Option Int
  transactionID : Option String
  excludeFromSync : Bool
  deriving DecidableEq, Repr

structure InsertEventArgs where
  event : HeaderedEvent
  addState : Option (List String)
  removeState : Option (List String)
  transactionID : Option TransactionID
  excludeFromSync : Bool
  deriving DecidableEq, Repr

def InsertEventArgs.row (a : InsertEventArgs) (streamPos : Nat) : OutputRoomEvent where
  id := streamPos
  roomID := a.event.roomID
  eventID := a.event.eventID
  headeredEventJSON := a.event
  type := a.event.type
  sender := a.event.sender
  containsURL := containsURL a.event.content
  addStateIDs := some (marshalStateIDs a.addState)
  removeStateIDs := some (marshalStateIDs a.removeState)
  sessionID := a.transactionID.map (·.sessionID)
  transactionID := a.transactionID.map (·.transactionID)
  excludeFromSync := a.excludeFromSync

/-- The `DO UPDATE SET exclude_from_sync = $13` of `insertEventSQL`, on the row of `eventID`. -/
def setExcludeFromSync (eventID : String) (b : Bool) (r : OutputRoomEvent) : OutputRoomEvent :=
  if r.eventID = eventID then { r with excludeFromSync := b } else r

/-- `insertEventSQL`. The arbiter of `ON CONFLICT` is the `event_id` index; a clash on the `id`
primary key alone is an error. Rows are kept in insertion order. -/
def insertEventSQL (row : OutputRoomEvent) (excludeFromSync : Bool)
    (rows : List OutputRoomEvent) : Except DBError (List OutputRoomEvent) :=
  if row.eventID ∈ rows.map (·.eventID) then
    .ok (rows.map (setExcludeFromSync row.eventID excludeFromSync))
  else if row.id ∈ rows.map (·.id) then
    .error (.uniqueViolation "PRIMARY")
  else
    .ok (rows ++ [row])

structure SyncDB where
  streamIDs : StreamIDTable
  events : List OutputRoomEvent

def SyncDB.init : SyncDB := ⟨fun _ => none, []⟩

/-- `outputRoomEventsStatements.InsertEvent`: `nextStreamID`, then `insertEventSQL` at that
position. A statement that fails keeps the effect of those before it. -/
def insertEvent (a : InsertEventArgs) (db : SyncDB) : Except DBError Nat × SyncDB :=
  match db.streamIDs.nextStreamID with
  | .error e => (.error e, db)
  | .ok (streamPos, streamIDs) =>
    match insertEventSQL (a.row streamPos) a.excludeFromSync db.events with
    | .error e => (.error e, { db with streamIDs })
    | .ok events => (.ok streamPos, { streamIDs, events })

/-- `SelectMaxEventID`: `SELECT MAX(id)`, read as `0` when the table is empty. -/
def selectMaxEventID (db : SyncDB) : Nat :=
  match (db.events.map (·.id)).max? with
  | some id => id
  | none => 0

theorem le_selectMaxEventID {db : SyncDB} {r : OutputRoomEvent} (hr : r ∈ db.events) :
    r.id ≤ selectMaxEventID db := by
  unfold selectMaxEventID
  split
  · rename_i m hm
    exact (List.max?_eq_some_iff'.mp hm).2 _ (List.mem_map_of_mem _ hr)
  · rename_i hm
    simp_all

theorem selectMaxEventID_le {db : SyncDB} {n : Nat} (h : ∀ r ∈ db.events, r.id ≤ n) :
    selectMaxEventID db ≤ n := by
  unfold selectMaxEventID
  split
  · rename_i m hm
    obtain ⟨r, hr, rfl⟩ := List.mem_map.mp (List.max?_eq_some_iff'.mp hm).1
    exact h r hr
  · exact Nat.zero_le n

section Lemmas

variable {a : InsertEventArgs} {pos : Nat} {r : OutputRoomEvent} {e : String} {b : Bool}

@[simp] theorem row_id : (a.row pos).id = pos := rfl
@[simp] theorem row_eventID : (a.row pos).eventID = a.event.eventID := rfl
@[simp] theorem row_roomID : (a.row pos).roomID = a.event.roomID := rfl
@[simp] theorem row_excludeFromSync : (a.row pos).excludeFromSync = a.excludeFromSync := rfl

@[simp] theorem setExcludeFromSync_id : (setExcludeFromSync e b r).id = r.id := by
  unfold setExcludeFromSync; split <;> rfl

@[simp] theorem setExcludeFromSync_eventID : (setExcludeFromSync e b r).eventID = r.eventID := by
  unfold setExcludeFromSync; split <;> rfl

@[simp] theorem setExcludeFromSync_roomID : (setExcludeFromSync e b r).roomID = r.roomID := by
  unfold setExcludeFromSync; split <;> rfl

theorem setExcludeFromSync_eq (e : String) (b : Bool) (r : OutputRoomEvent) :
    setExcludeFromSync e b r =
      { r with excludeFromSync := if r.eventID = e then b else r.excludeFromSync } := by
  unfold setExcludeFromSync; split <;> rfl

theorem insertEvent_of_global {db : SyncDB} (h : db.streamIDs "global" = some pos) :
    insertEvent a db =
      match insertEventSQL (a.row (pos + 1)) a.excludeFromSync db.events with
      | .error e => (.error e, { db with streamIDs := Function.update db.streamIDs "global" (some (pos + 1)) })
      | .ok events =>
        (.ok (pos + 1), ⟨Function.update db.streamIDs "global" (some (pos + 1)), events⟩) := by
  simp only [insertEvent, StreamIDTable.nextStreamID_of_global h]

theorem insertEvent_of_none {db : SyncDB} (h : db.streamIDs "global" = none) :
    insertEvent a db = (.error .errNoRows, db) := by
  simp only [insertEvent, StreamIDTable.nextStreamID_of_none h]

end Lemmas

end Dendrite.SyncAPI

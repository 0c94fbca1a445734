import Dendrite.SQL
import Mathlib.Data.List.Basic

/-! The room server's `roomserver_rooms` table, `roomserver/storage/mysql/rooms_table.go`. Each
statement is a function of the rows the transaction running it sees. `latest_event_nids` holds the
JSON array its text encodes: `eventNIDsAsArray` writes it and `json.Unmarshal` reads it back. -/

namespace Dendrite.RoomServer

structure LatestEvents where
  latestEventNIDs : List Nat
  lastEventSentNID : Nat
  stateSnapshotNID : Nat
  deriving DecidableEq, Repr

def defaultLatest : LatestEvents := ⟨[], 0, 0⟩

structure RoomRow where
  roomNID : Nat
  roomID : String
  latestEventNIDs : List Nat
  lastEventSentNID : Nat
  stateSnapshotNID : Nat
  roomVersion : String
  deriving DecidableEq, Repr

namespace RoomRow

def latest (r : RoomRow) : LatestEvents :=
  ⟨r.latestEventNIDs, r.lastEventSentNID, r.stateSnapshotNID⟩

def setLatest (r : RoomRow) (v : LatestEvents) : RoomRow :=
  { r with
    latestEventNIDs := v.latestEventNIDs
    lastEventSentNID := v.lastEventSentNID
    stateSnapshotNID := v.stateSnapshotNID }

def ident (r : RoomRow) : Nat × String × String := (r.roomNID, r.roomID, r.roomVersion)

variable {r : RoomRow} {v w : LatestEvents}

@[simp] theorem setLatest_roomNID : (r.setLatest v).roomNID = r.roomNID := rfl
@[simp] theorem setLatest_roomID : (r.setLatest v).roomID = r.roomID := rfl
@[simp] theorem setLatest_ident : (r.setLatest v).ident = r.ident := rfl
@[simp] theorem latest_setLatest : (r.setLatest v).latest = v := rfl
@[simp] theorem setLatest_setLatest : (r.setLatest v).setLatest w = r.setLatest w := rfl

end RoomRow

def newRoom (roomNID : Nat) (roomID roomVersion : String) : RoomRow :=
  ⟨roomNID, roomID, [], 0, 0, roomVersion⟩

@[simp] theorem newRoom_latest (n : Nat) (i v : String) : (newRoom n i v).latest = defaultLatest :=
  rfl

def insertConflicts (roomNID : Nat) (roomID : String) (rows : List RoomRow) : Prop :=
  roomID ∈ rows.map (·.roomID) ∨ roomNID ∈ rows.map (·.roomNID)

instance (n : Nat) (i : String) (rows : List RoomRow) : Decidable (insertConflicts n i rows) :=
  inferInstanceAs (Decidable (_ ∨ _))

/-- `insertRoomNIDSQL`, with `roomNID` the next `AUTO_INCREMENT` value: `ON CONFLICT DO NOTHING`
keeps the rows when a unique key is taken. -/
def insertRoomNIDSQL (roomNID : Nat) (roomID roomVersion : String) (rows : List RoomRow) :
    List RoomRow :=
  if insertConflicts roomNID roomID rows then rows else rows ++ [newRoom roomNID roomID roomVersion]

def scanRow {α : Type} (col : RoomRow → α) : Option RoomRow → Except DBError α
  | some r => .ok (col r)
  | none => .error .errNoRows

def selectRoomNIDSQL (roomID : String) (rows : List RoomRow) : Except DBError Nat :=
  scanRow (·.roomNID) (rows.find? (·.roomID == roomID))

def selectLatestEventNIDsSQL (roomNID : Nat) (rows : List RoomRow) :
    Except DBError (List Nat × Nat) :=
  scanRow (fun r => (r.latestEventNIDs, r.stateSnapshotNID)) (rows.find? (·.roomNID == roomNID))

/-- `selectLatestEventNIDsForUpdateSQL`, as the rows look once its lock is granted. -/
def selectLatestEventNIDsForUpdateSQL (roomNID : Nat) (rows : List RoomRow) :
    Except DBError LatestEvents :=
  scanRow RoomRow.latest (rows.find? (·.roomNID == roomNID))

def selectRoomVersionForRoomIDSQL (roomID : String) (rows : List RoomRow) :
    Except DBError String :=
  scanRow (·.roomVersion) (rows.find? (·.roomID == roomID))

def selectRoomVersionForRoomNIDSQL (roomNID : Nat) (rows : List RoomRow) :
    Except DBError String :=
  scanRow (·.roomVersion) (rows.find? (·.roomNID == roomNID))

def updateLatestEventNIDsSQL (roomNID : Nat) (v : LatestEvents) (rows : List RoomRow) :
    List RoomRow :=
  rows.map fun r => if r.roomNID = roomNID then r.setLatest v else r

def roomNotFound : Except DBError String → Except DBError String
  | .error .errNoRows => .error (.message "room not found")
  | res => res

def selectRoomVersionForRoomID (roomID : String) (rows : List RoomRow) : Except DBError String :=
  roomNotFound (selectRoomVersionForRoomIDSQL roomID rows)

def selectRoomVersionForRoomNID (roomNID : Nat) (rows : List RoomRow) : Except DBError String :=
  roomNotFound (selectRoomVersionForRoomNIDSQL roomNID rows)

section Lemmas

variable {α : Type} {col : RoomRow → α} {o : Option RoomRow} {a : α} {rows : List RoomRow}

theorem scanRow_eq_ok : scanRow col o = .ok a ↔ ∃ r, o = some r ∧ col r = a := by
  cases o <;> simp [scanRow]

theorem roomNotFound_eq_ok {res : Except DBError String} {v : String} :
    roomNotFound res = .ok v ↔ res = .ok v := by
  unfold roomNotFound
  split <;> simp_all

theorem scanRow_find?_ok {p : RoomRow → Bool} (h : scanRow col (rows.find? p) = .ok a) :
    ∃ r ∈ rows, p r = true ∧ col r = a := by
  obtain ⟨r, hr, rfl⟩ := scanRow_eq_ok.mp h
  exact ⟨r, List.mem_of_find?_eq_some hr, List.find?_some hr, rfl⟩

theorem updateLatestEventNIDsSQL_of_not_mem {n : Nat} {v : LatestEvents}
    (h : n ∉ rows.map (·.roomNID)) : updateLatestEventNIDsSQL n v rows = rows := by
  refine (List.map_congr_left fun r hr => if_neg fun he => h ?_).trans (List.map_id _)
  exact List.mem_map.mpr ⟨r, hr, he⟩

theorem find?_key {β : Type} [BEq β] [LawfulBEq β] {key : RoomRow → β} {r : RoomRow}
    (hu : (rows.map key).Nodup) (hr : r ∈ rows) : rows.find? (key · == key r) = some r := by
  induction rows with
  | nil => cases hr
  | cons r' rows ih =>
    rw [List.map_cons, List.nodup_cons] at hu
    rcases List.mem_cons.mp hr with rfl | hr
    · simp
    · have hne : key r' ≠ key r := fun he => hu.1 (he ▸ List.mem_map_of_mem _ hr)
      simpa [List.find?_cons, hne] using ih hu.2 hr

end Lemmas

end Dendrite.RoomServer

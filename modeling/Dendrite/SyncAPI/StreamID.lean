import Dendrite.SQL

/-! The sync API's stream position counter, `syncapi/storage/mysql/stream_id_table.go`. -/

namespace Dendrite.SyncAPI

abbrev StreamIDTable := String → Option Nat

namespace StreamIDTable

/-- The `INSERT ... VALUES ("global", 0) ON CONFLICT DO NOTHING` of `streamIDTableSchema`, run by
`streamIDStatements.prepare` on every start. -/
def prepare (t : StreamIDTable) : StreamIDTable :=
  match t "global" with
  | some _ => t
  | none => Function.update t "global" (some 0)

def increaseStreamID (name : String) (t : StreamIDTable) : StreamIDTable :=
  Function.update t name ((t name).map (· + 1))

def selectStreamID (name : String) (t : StreamIDTable) : Except DBError Nat :=
  match t name with
  | some n => .ok n
  | none => .error .errNoRows

def nextStreamID (t : StreamIDTable) : Except DBError (Nat × StreamIDTable) :=
  let t' := increaseStreamID "global" t
  return (← selectStreamID "global" t', t')

variable {t : StreamIDTable} {n : Nat}

theorem prepare_global (t : StreamIDTable) : ∃ n, t.prepare "global" = some n := by
  unfold prepare
  cases h : t "global" with
  | some n => exact ⟨n, by simp [h]⟩
  | none => exact ⟨0, by simp⟩

theorem prepare_of_global (h : t "global" = some n) : t.prepare = t := by
  simp [prepare, h]

@[simp] theorem selectStreamID_some (h : t name = some n) : selectStreamID name t = .ok n := by
  simp [selectStreamID, h]

theorem increaseStreamID_global (h : t "global" = some n) :
    increaseStreamID "global" t = Function.update t "global" (some (n + 1)) := by
  simp [increaseStreamID, h]

theorem nextStreamID_of_global (h : t "global" = some n) :
    nextStreamID t = .ok (n + 1, Function.update t "global" (some (n + 1))) := by
  simp only [nextStreamID, increaseStreamID_global h, selectStreamID, Function.update_same]; rfl

theorem nextStreamID_of_none (h : t "global" = none) : nextStreamID t = .error .errNoRows := by
  simp only [nextStreamID, increaseStreamID, selectStreamID, h, Option.map_none',
    Function.update_same]; rfl

end StreamIDTable

end Dendrite.SyncAPI

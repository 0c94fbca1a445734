import Dendrite.SyncAPI.Log
import Mathlib.Data.List.Basic

/-! `outputRoomEventsStatements.SelectStateInRange`: the state deltas of a window of the log,
folded per room into the set of state event IDs still needed. -/

namespace Dendrite.SyncAPI

structure StreamEvent where
  headeredEvent : HeaderedEvent
  streamPosition : Nat
  transactionID : Option TransactionID
  excludeFromSync : Bool
  deriving DecidableEq, Repr

abbrev StateNeeded := String → Option (String → Option Bool)

abbrev EventIDToEvent := String → Option StreamEvent

/-- `selectStateInRangeSQL`: the rows with `low < id ≤ high` and a non-`NULL` delta column, by
ascending `id`, at most `limit` of them. -/
def selectStateInRangeSQL (low high limit : Nat) (rows : List OutputRoomEvent) :
    List OutputRoomEvent :=
  ((rows.filter fun r => low < r.id && r.id ≤ high &&
      (r.addStateIDs.isSome || r.removeStateIDs.isSome)).mergeSort
    fun r r' => r.id ≤ r'.id).take limit

def scanStateIDs (column : String) : Option StateIDsJSON → Except DBError StateIDsJSON
  | some j => .ok j
  | none => .error (.nullScan column)

def unmarshalStateIDs (addIDsJSON delIDsJSON : StateIDsJSON) : List String × List String :=
  (addIDsJSON.ids, delIDsJSON.ids)

def setAll (v : Bool) (ids : List String) (needSet : String → Option Bool) :
    String → Option Bool :=
  ids.foldl (fun m id => Function.update m id (some v)) needSet

/-- The map updates of the row loop: removals first, then additions, then the event cache. -/
def foldStateDelta (acc : StateNeeded × EventIDToEvent) (ev : HeaderedEvent) (streamPos : Nat)
    (excludeFromSync : Bool) (addIDs delIDs : List String) : StateNeeded × EventIDToEvent :=
  let needSet := setAll true addIDs (setAll false delIDs ((acc.1 ev.roomID).getD fun _ => none))
  (Function.update acc.1 ev.roomID (some needSet),
    Function.update acc.2 ev.eventID (some ⟨ev, streamPos, none, excludeFromSync⟩))

@[simp] theorem foldStateDelta_snd (acc : StateNeeded × EventIDToEvent) (ev : HeaderedEvent)
    (streamPos : Nat) (excludeFromSync : Bool) (addIDs delIDs : List String) :
    (foldStateDelta acc ev streamPos excludeFromSync addIDs delIDs).2 =
      Function.update acc.2 ev.eventID (some ⟨ev, streamPos, none, excludeFromSync⟩) := rfl

def stateInRangeRow (acc : StateNeeded × EventIDToEvent) (row : OutputRoomEvent) :
    Except DBError (StateNeeded × EventIDToEvent) := do
  let addIDsJSON ← scanStateIDs "add_state_ids" row.addStateIDs
  let delIDsJSON ← scanStateIDs "remove_state_ids" row.removeStateIDs
  let (addIDs, delIDs) := unmarshalStateIDs addIDsJSON delIDsJSON
  return foldStateDelta acc row.headeredEventJSON row.id row.excludeFromSync addIDs delIDs

/-- `outputRoomEventsStatements.SelectStateInRange` on the window `(low, high]` with
`stateFilter.Limit = limit`. -/
def selectStateInRange (low high limit : Nat) (db : SyncDB) :
    Except DBError (StateNeeded × EventIDToEvent) :=
  (selectStateInRangeSQL low high limit db.events).foldlM stateInRangeRow
    (fun _ => none, fun _ => none)

def OutputRoomEvent.addIDs (r : OutputRoomEvent) : List String := (r.addStateIDs.getD .null).ids

def OutputRoomEvent.removeIDs (r : OutputRoomEvent) : List String :=
  (r.removeStateIDs.getD .null).ids

def OutputRoomEvent.Mentions (r : OutputRoomEvent) (X : String) : Prop :=
  X ∈ r.addIDs ∨ X ∈ r.removeIDs

instance (r : OutputRoomEvent) (X : String) : Decidable (r.Mentions X) :=
  inferInstanceAs (Decidable (_ ∨ _))

def IsLastMention (rows : List OutputRoomEvent) (R X : String) (r : OutputRoomEvent) : Prop :=
  r ∈ rows ∧ r.roomID = R ∧ r.Mentions X ∧
    ∀ r' ∈ rows, r'.roomID = R → r'.Mentions X → r'.id ≤ r.id

theorem setAll_apply (v : Bool) (ids : List String) (m : String → Option Bool) (X : String) :
    setAll v ids m X = if X ∈ ids then some v else m X := by
  induction ids generalizing m with
  | nil => simp [setAll]
  | cons id ids ih =>
    simp only [setAll, List.foldl_cons] at ih ⊢
    rw [ih]
    rcases eq_or_ne X id with rfl | h
    · simp
    · simp [h, Function.update_noteq h]

theorem foldlM_except_ok {α β ε : Type} {f : β → α → Except ε β} {g : β → α → β} :
    ∀ (L : List α) (init : β), (∀ b, ∀ a ∈ L, f b a = .ok (g b a)) →
      L.foldlM f init = .ok (L.foldl g init)
  | [], _, _ => rfl
  | a :: L, init, h => by
    simp only [List.foldlM_cons, List.foldl_cons, h init a (List.mem_cons_self a L)]
    exact foldlM_except_ok L _ fun b a' ha' => h b a' (List.mem_cons_of_mem a ha')

def foldRows (L : List OutputRoomEvent) : StateNeeded × EventIDToEvent :=
  L.foldl (fun acc r => foldStateDelta acc r.headeredEventJSON r.id r.excludeFromSync
    r.addIDs r.removeIDs) (fun _ => none, fun _ => none)

theorem stateInRangeRow_ok (acc : StateNeeded × EventIDToEvent) {r : OutputRoomEvent}
    (ha : r.addStateIDs.isSome) (hr : r.removeStateIDs.isSome) :
    stateInRangeRow acc r = .ok (foldStateDelta acc r.headeredEventJSON r.id r.excludeFromSync
      r.addIDs r.removeIDs) := by
  obtain ⟨a, ha⟩ := Option.isSome_iff_exists.mp ha
  obtain ⟨d, hd⟩ := Option.isSome_iff_exists.mp hr
  simp [stateInRangeRow, scanStateIDs, unmarshalStateIDs, OutputRoomEvent.addIDs,
    OutputRoomEvent.removeIDs, ha, hd]
  rfl

def lastMention (R X : String) (L : List OutputRoomEvent) : Option Bool :=
  L.foldl (fun m r => if r.headeredEventJSON.roomID = R ∧ r.Mentions X then
    some (decide (X ∈ r.addIDs)) else m) none

theorem foldStateDelta_lookup (acc : StateNeeded × EventIDToEvent) (r : OutputRoomEvent)
    (R X : String) :
    ((foldStateDelta acc r.headeredEventJSON r.id r.excludeFromSync r.addIDs r.removeIDs).1
        R).bind (· X) =
      if r.headeredEventJSON.roomID = R ∧ r.Mentions X then some (decide (X ∈ r.addIDs))
      else (acc.1 R).bind (· X) := by
  unfold foldStateDelta OutputRoomEvent.Mentions
  by_cases hR : R = r.headeredEventJSON.roomID
  · subst hR
    simp only [Function.update_same, Option.bind_some, setAll_apply, true_and]
    by_cases ha : X ∈ r.addIDs <;> by_cases hd : X ∈ r.removeIDs <;>
      cases acc.1 r.headeredEventJSON.roomID <;> simp [ha, hd, setAll_apply]
  · simp [Function.update_noteq hR, Ne.symm hR]

theorem foldl_foldStateDelta_lookup (L : List OutputRoomEvent) (R X : String)
    (acc : StateNeeded × EventIDToEvent) :
    ((L.foldl (fun acc r => foldStateDelta acc r.headeredEventJSON r.id r.excludeFromSync
        r.addIDs r.removeIDs) acc).1 R).bind (· X) =
      L.foldl (fun m r => if r.headeredEventJSON.roomID = R ∧ r.Mentions X then
        some (decide (X ∈ r.addIDs)) else m) ((acc.1 R).bind (· X)) := by
  induction L generalizing acc with
  | nil => rfl
  | cons r L ih => simp only [List.foldl_cons, ih, foldStateDelta_lookup]

theorem foldRows_lookup (L : List OutputRoomEvent) (R X : String) :
    ((foldRows L).1 R).bind (· X) = lastMention R X L :=
  foldl_foldStateDelta_lookup L R X _

theorem lastMention_append (R X : String) (L : List OutputRoomEvent) (r : OutputRoomEvent) :
    lastMention R X (L ++ [r]) =
      if r.headeredEventJSON.roomID = R ∧ r.Mentions X then some (decide (X ∈ r.addIDs))
      else lastMention R X L := by
  simp [lastMention, List.foldl_append]

theorem isLastMention_append_of_not {L : List OutputRoomEvent} {r₀ r : OutputRoomEvent}
    {R X : String} (h : ¬(r₀.roomID = R ∧ r₀.Mentions X)) :
    IsLastMention (L ++ [r₀]) R X r ↔ IsLastMention L R X r := by
  unfold IsLastMention
  simp only [List.mem_append, List.mem_singleton]
  constructor
  · rintro ⟨hr | rfl, hR, hm, hmax⟩
    · exact ⟨hr, hR, hm, fun r' hr' => hmax r' (.inl hr')⟩
    · exact absurd ⟨hR, hm⟩ h
  · rintro ⟨hr, hR, hm, hmax⟩
    refine ⟨.inl hr, hR, hm, ?_⟩
    rintro r' (hr' | rfl) hR' hm'
    · exact hmax r' hr' hR' hm'
    · exact absurd ⟨hR', hm'⟩ h

theorem lastMention_iff {L : List OutputRoomEvent} (hs : L.Pairwise (fun r r' => r.id < r'.id))
    (hroom : ∀ r ∈ L, r.headeredEventJSON.roomID = r.roomID) (R X : String) :
    (∀ b, lastMention R X L = some b ↔ ∃ r, IsLastMention L R X r ∧ b = decide (X ∈ r.addIDs)) ∧
    (lastMention R X L = none ↔ ∀ r ∈ L, r.roomID = R → ¬ r.Mentions X) := by
  induction L using List.reverseRecOn with
  | nil => simp [lastMention, IsLastMention]
  | append_singleton L r₀ ih =>
    obtain ⟨hsL, -, hlt⟩ := List.pairwise_append.mp hs
    have ih := ih hsL fun r hr => hroom r (List.mem_append_left _ hr)
    rw [lastMention_append, hroom r₀ (by simp)]
    split_ifs with hm
    · have hlast : IsLastMention (L ++ [r₀]) R X r₀ := by
        refine ⟨by simp, hm.1, hm.2, fun r' hr' _ _ => ?_⟩
        rcases List.mem_append.mp hr' with hr' | hr'
        · exact Nat.le_of_lt (hlt r' hr' r₀ (List.mem_singleton_self _))
        · rw [List.mem_singleton.mp hr']
      have huniq : ∀ r, IsLastMention (L ++ [r₀]) R X r → r = r₀ := by
        rintro r ⟨hr, -, -, hmax⟩
        rcases List.mem_append.mp hr with hr | hr
        · have := hmax r₀ (by simp) hm.1 hm.2
          have := hlt r hr r₀ (List.mem_singleton_self _)
          omega
        · exact List.mem_singleton.mp hr
      refine ⟨fun b => ⟨?_, ?_⟩, ⟨nofun, fun h => absurd hm.2 (h r₀ (by simp) hm.1)⟩⟩
      · rintro ⟨⟩
        exact ⟨r₀, hlast, rfl⟩
      · rintro ⟨r, hr, rfl⟩
        rw [huniq r hr]
    · refine ⟨fun b => (ih.1 b).trans ?_, ih.2.trans ?_⟩
      · simp only [isLastMention_append_of_not hm]
      · simp only [List.mem_append, List.mem_singleton]
        exact ⟨fun h r hr hR hm' => hr.elim (h r · hR hm') (fun e => hm ⟨e ▸ hR, e ▸ hm'⟩),
          fun h r hr => h r (.inl hr)⟩

theorem foldRows_append (L : List OutputRoomEvent) (r : OutputRoomEvent) :
    foldRows (L ++ [r]) = foldStateDelta (foldRows L) r.headeredEventJSON r.id r.excludeFromSync
      r.addIDs r.removeIDs := by
  simp [foldRows, List.foldl_append]

theorem foldRows_event {L : List OutputRoomEvent} (hu : (L.map (·.eventID)).Nodup)
    (hid : ∀ r ∈ L, r.headeredEventJSON.eventID = r.eventID) :
    ∀ r ∈ L, (foldRows L).2 r.eventID =
      some ⟨r.headeredEventJSON, r.id, none, r.excludeFromSync⟩ := by
  induction L using List.reverseRecOn with
  | nil => simp
  | append_singleton L r₀ ih =>
    rw [List.map_append, List.nodup_append] at hu
    intro r hr
    rw [foldRows_append, foldStateDelta_snd, hid r₀ (by simp)]
    rcases List.mem_append.mp hr with hr | hr
    · have hne : r.eventID ≠ r₀.eventID := fun h =>
        hu.2.2 (List.mem_map_of_mem _ hr) (by simp [h])
      rw [Function.update_noteq hne]
      exact ih hu.1 (fun r hr => hid r (List.mem_append_left _ hr)) r hr
    · rw [List.mem_singleton.mp hr, Function.update_same]

theorem foldRows_event_mem {L : List OutputRoomEvent} {X : String} {ev : StreamEvent}
    (h : (foldRows L).2 X = some ev) : ∃ r ∈ L, r.headeredEventJSON.eventID = X ∧
      ev = ⟨r.headeredEventJSON, r.id, none, r.excludeFromSync⟩ := by
  induction L using List.reverseRecOn with
  | nil => simp [foldRows] at h
  | append_singleton L r ih =>
    rw [foldRows_append, foldStateDelta_snd] at h
    by_cases hX : X = r.headeredEventJSON.eventID
    · subst hX
      rw [Function.update_same] at h
      cases h
      exact ⟨r, List.mem_append_right _ (List.mem_singleton_self _), rfl, rfl⟩
    · rw [Function.update_noteq hX] at h
      obtain ⟨r', hr', hre⟩ := ih h
      exact ⟨r', List.mem_append_left _ hr', hre⟩

def rowsInRange (low high : Nat) (rows : List OutputRoomEvent) : List OutputRoomEvent :=
  rows.filter fun r => low < r.id && r.id ≤ high

variable {db : SyncDB}

theorem written_deltas {r : OutputRoomEvent} (h : ∃ a : InsertEventArgs, a.row r.id = r) :
    r.addStateIDs.isSome ∧ r.removeStateIDs.isSome := by
  obtain ⟨a, ha⟩ := h
  rw [← ha]
  exact ⟨rfl, rfl⟩

theorem written_headered {r : OutputRoomEvent} (h : ∃ a : InsertEventArgs, a.row r.id = r) :
    r.headeredEventJSON.eventID = r.eventID ∧ r.headeredEventJSON.roomID = r.roomID := by
  obtain ⟨a, ha⟩ := h
  rw [← ha]
  exact ⟨rfl, rfl⟩

theorem SyncDB.Wf.selectStateInRangeSQL_eq (hw : db.Wf) (low high limit : Nat) :
    selectStateInRangeSQL low high limit db.events =
      (rowsInRange low high db.events).take limit := by
  have hf : (db.events.filter fun r => low < r.id && r.id ≤ high &&
      (r.addStateIDs.isSome || r.removeStateIDs.isSome)) = rowsInRange low high db.events :=
    List.filter_congr fun r hr => by simp [written_deltas (hw.written r hr)]
  rw [selectStateInRangeSQL, hf, List.mergeSort_of_sorted]
  exact (hw.sorted.filter _).imp fun h => by simpa using Nat.le_of_lt h

theorem selectStateInRange_eq (ops : List SyncOp) (low high limit : Nat) :
    selectStateInRange low high limit (SyncDB.init.run ops) =
      .ok (foldRows ((rowsInRange low high (SyncDB.init.run ops).events).take limit)) := by
  have hw := SyncDB.wf_run ops
  rw [selectStateInRange, hw.selectStateInRangeSQL_eq]
  refine foldlM_except_ok _ _ fun acc r hr => ?_
  have hr := hw.written r (List.mem_filter.mp (List.mem_of_mem_take hr)).1
  exact stateInRangeRow_ok acc (written_deltas hr).1 (written_deltas hr).2

theorem selectStateInRange_lastMention (ops : List SyncOp) (low high limit : Nat)
    (hlimit : (rowsInRange low high (SyncDB.init.run ops).events).length ≤ limit) :
    ∃ stateNeeded eventIDToEvent, selectStateInRange low high limit (SyncDB.init.run ops) =
        .ok (stateNeeded, eventIDToEvent) ∧
      (∀ R X b, (stateNeeded R).bind (· X) = some b ↔
        ∃ r, IsLastMention (rowsInRange low high (SyncDB.init.run ops).events) R X r ∧
          b = decide (X ∈ r.addIDs)) ∧
      (∀ R X, (stateNeeded R).bind (· X) = none ↔
        ∀ r ∈ rowsInRange low high (SyncDB.init.run ops).events, r.roomID = R → ¬ r.Mentions X) ∧
      ∀ r ∈ rowsInRange low high (SyncDB.init.run ops).events,
        eventIDToEvent r.eventID = some ⟨r.headeredEventJSON, r.id, none, r.excludeFromSync⟩ := by
  have hw := SyncDB.wf_run ops
  have hmem : ∀ r ∈ rowsInRange low high (SyncDB.init.run ops).events,
      r ∈ (SyncDB.init.run ops).events := fun r hr => (List.mem_filter.mp hr).1
  have hs := hw.sorted.filter (fun r => low < r.id && r.id ≤ high)
  have hroom := fun r hr => (written_headered (hw.written r (hmem r hr))).2
  refine ⟨(foldRows (rowsInRange low high (SyncDB.init.run ops).events)).1,
    (foldRows (rowsInRange low high (SyncDB.init.run ops).events)).2,
    by rw [selectStateInRange_eq, List.take_of_length_le hlimit],
    fun R X b => by rw [foldRows_lookup]; exact (lastMention_iff hs hroom R X).1 b,
    fun R X => by rw [foldRows_lookup]; exact (lastMention_iff hs hroom R X).2,
    foldRows_event ((hw.unique).sublist ((List.filter_sublist _).map _))
      fun r hr => (written_headered (hw.written r (hmem r hr))).1⟩

def stateEvent (eventID : String) (addState removeState : Option (List String)) :
    InsertEventArgs :=
  ⟨⟨eventID, "!r", "m.room.name", "@alice:localhost", .object ["name"]⟩, addState, removeState,
    none, false⟩

theorem selectStateInRange_lastMention_removed :
    ∃ stateNeeded eventIDToEvent, selectStateInRange 0 2 2 (SyncDB.init.run
        [.prepare, .insertEvent (stateEvent "$a" (some ["$a"]) none),
          .insertEvent (stateEvent "$b" (some ["$b"]) (some ["$a"]))]) =
        .ok (stateNeeded, eventIDToEvent) ∧ (stateNeeded "!r").bind (· "$a") = some false := by
  obtain ⟨sn, ev, h, hsome, -⟩ := selectStateInRange_lastMention
    [.prepare, .insertEvent (stateEvent "$a" (some ["$a"]) none),
      .insertEvent (stateEvent "$b" (some ["$b"]) (some ["$a"]))] 0 2 2 (by decide)
  exact ⟨sn, ev, h, (hsome "!r" "$a" false).2
    ⟨(stateEvent "$b" (some ["$b"]) (some ["$a"])).row 2, by unfold IsLastMention; decide, rfl⟩⟩

theorem selectStateInRange_reads_message :
    ∃ stateNeeded eventIDToEvent, selectStateInRange 0 2 1 (SyncDB.init.run
        [.prepare, .insertEvent (messageEvent "$m" false),
          .insertEvent (stateEvent "$s" (some ["$s"]) none)]) =
        .ok (stateNeeded, eventIDToEvent) ∧
      (eventIDToEvent "$m").isSome ∧ (stateNeeded "!r").isSome ∧
      (stateNeeded "!r").bind (· "$s") = none :=
  ⟨_, _, selectStateInRange_eq _ _ _ _, by decide, by decide, by decide⟩

end Dendrite.SyncAPI

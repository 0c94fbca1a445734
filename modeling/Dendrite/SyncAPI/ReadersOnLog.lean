import Dendrite.SyncAPI.Readers

/-! The readers on the output log as `InsertEvent` writes it. Each window reader returns a `take`
or a `drop` of the room's window of the log, and every reader reports an event as the
`InsertEvent` that wrote it. -/

namespace Dendrite.SyncAPI

def OutputRoomEvent.stored (r : OutputRoomEvent) : StoredEvent :=
  ⟨r.id, r.roomID, r.eventID, some r.headeredEventJSON, r.sessionID, r.transactionID,
    some r.excludeFromSync⟩

def OutputRoomEvent.streamEvent (r : OutputRoomEvent) : StreamEvent :=
  ⟨r.headeredEventJSON, r.id, transactionIDOf r.sessionID r.transactionID, r.excludeFromSync⟩

@[simp] theorem toStreamEvent_stored (r : OutputRoomEvent) :
    toStreamEvent r.stored = .ok r.streamEvent := rfl

theorem streamEvent_row (a : InsertEventArgs) (p : Nat) :
    (a.row p).streamEvent = ⟨a.event, p, a.transactionID, a.excludeFromSync⟩ := by
  obtain ⟨_, _, _, t, _⟩ := a
  cases t <;> rfl

def OutputLog.ofRun (ops : List SyncOp) : OutputLog where
  rows := (SyncDB.init.run ops).events.map OutputRoomEvent.stored
  id_nodup := by
    rw [List.map_map]
    exact List.pairwise_map.mpr ((SyncDB.wf_run ops).sorted.imp Nat.ne_of_lt)
  eventID_nodup := by
    rw [List.map_map]
    exact (SyncDB.wf_run ops).unique

def windowRows (db : SyncDB) (roomID : String) (low high : Nat) (onlySync : Bool) :
    List OutputRoomEvent :=
  ((rowsInRange low high db.events).filter (·.roomID == roomID)).filter
    fun r => !(onlySync && r.excludeFromSync)

def roomWindow (db : SyncDB) (roomID : String) (low high : Nat) (onlySync : Bool) :
    List StreamEvent :=
  (windowRows db roomID low high onlySync).map OutputRoomEvent.streamEvent

section Windows

variable {db : SyncDB} {roomID : String} {low high limit : Nat}

theorem rowsToStreamEvents_stored (rows : List OutputRoomEvent) :
    rowsToStreamEvents (rows.map OutputRoomEvent.stored) =
      .ok (rows.map OutputRoomEvent.streamEvent) := by
  induction rows with
  | nil => rfl
  | cons r rows ih => rw [List.map_cons, rowsToStreamEvents_cons, toStreamEvent_stored, ih]; rfl

theorem SyncDB.Wf.windowRows_sorted (hw : db.Wf) (onlySync : Bool) :
    (windowRows db roomID low high onlySync).Pairwise (·.id < ·.id) :=
  hw.sorted.sublist (((List.filter_sublist _).trans (List.filter_sublist _)).trans
    (List.filter_sublist _))

theorem SyncDB.Wf.roomWindow_sorted (hw : db.Wf) (onlySync : Bool) :
    (roomWindow db roomID low high onlySync).Pairwise (·.streamPosition < ·.streamPosition) :=
  List.pairwise_map.mpr (hw.windowRows_sorted onlySync)

theorem roomWindow_length_le (onlySync : Bool) :
    (roomWindow db roomID low high onlySync).length ≤
      (roomWindow db roomID low high false).length := by
  simp only [roomWindow, windowRows, List.length_map, Bool.false_and, Bool.not_false,
    List.filter_true]
  exact (List.filter_sublist _).length_le

theorem windowSQL_ofRun (ops : List SyncOp) (forSync descending : Bool) :
    windowSQL forSync descending roomID low high limit (OutputLog.ofRun ops).rows =
      ((if descending then (windowRows (SyncDB.init.run ops) roomID low high forSync).reverse
        else windowRows (SyncDB.init.run ops) roomID low high forSync).take limit).map
        OutputRoomEvent.stored := by
  have hw := SyncDB.wf_run ops
  have hf : (OutputLog.ofRun ops).rows.filter (fun r => r.roomID == roomID && low < r.id &&
      r.id ≤ high && (!forSync || r.excludeFromSync == some false)) =
      (windowRows (SyncDB.init.run ops) roomID low high forSync).map OutputRoomEvent.stored := by
    rw [OutputLog.ofRun, List.filter_map, windowRows, rowsInRange, List.filter_filter,
      List.filter_filter]
    congr 1
    refine List.filter_congr fun r _ => ?_
    simp only [Function.comp, OutputRoomEvent.stored]
    cases r.roomID == roomID <;> cases forSync <;> cases r.excludeFromSync <;> simp [Bool.and_comm]
  have hs : ((windowRows (SyncDB.init.run ops) roomID low high forSync).map
      OutputRoomEvent.stored).Pairwise (·.id < ·.id) :=
    List.pairwise_map.mpr (hw.windowRows_sorted forSync)
  rw [windowSQL, hf]
  cases descending
  · rw [mergeSort_orderByID_asc hs, if_neg Bool.false_ne_true, List.map_take]
  · rw [mergeSort_orderByID_desc hs, if_pos rfl, List.map_take, List.map_reverse]

theorem selectEarlyEvents_ofRun (ops : List SyncOp) :
    selectEarlyEvents roomID low high limit (OutputLog.ofRun ops) =
      .ok ((roomWindow (SyncDB.init.run ops) roomID low high false).take limit) := by
  simp only [selectEarlyEvents, selectEarlyEventsSQL, windowSQL_ofRun, if_neg Bool.false_ne_true,
    rowsToStreamEvents_stored, roomWindow, ← List.map_take]
  exact congrArg Except.ok (sortByStreamPosition_eq (List.Perm.refl _) (List.pairwise_map.mpr
    (((SyncDB.wf_run ops).windowRows_sorted false).sublist (List.take_sublist _ _))))

theorem selectRecentEvents_ofRun (ops : List SyncOp) (chronologicalOrder onlySync : Bool) :
    selectRecentEvents roomID low high limit chronologicalOrder onlySync (OutputLog.ofRun ops) =
      .ok (if chronologicalOrder then
        (roomWindow (SyncDB.init.run ops) roomID low high onlySync).drop
          ((roomWindow (SyncDB.init.run ops) roomID low high onlySync).length - limit)
      else ((roomWindow (SyncDB.init.run ops) roomID low high onlySync).drop
          ((roomWindow (SyncDB.init.run ops) roomID low high onlySync).length - limit)).reverse) := by
  have hstmt : (if onlySync then selectRecentEventsForSyncSQL else selectRecentEventsSQL) =
      windowSQL onlySync true := by cases onlySync <;> rfl
  have hread : rowsToStreamEvents ((if onlySync then selectRecentEventsForSyncSQL
      else selectRecentEventsSQL) roomID low high limit (OutputLog.ofRun ops).rows) =
      .ok ((roomWindow (SyncDB.init.run ops) roomID low high onlySync).drop
        ((roomWindow (SyncDB.init.run ops) roomID low high onlySync).length - limit)).reverse := by
    rw [hstmt, windowSQL_ofRun, if_pos rfl, rowsToStreamEvents_stored, List.map_take,
      List.map_reverse, List.take_reverse]
    rfl
  dsimp only [selectRecentEvents]
  rw [hread]
  cases chronologicalOrder
  · rfl
  · exact congrArg Except.ok (sortByStreamPosition_eq (List.reverse_perm _)
      (((SyncDB.wf_run ops).roomWindow_sorted onlySync).sublist (List.drop_sublist _ _)))

theorem rowsInRange_append {L : List OutputRoomEvent} (hs : L.Pairwise (·.id < ·.id))
    {mid : Nat} (h₁ : low ≤ mid) (h₂ : mid ≤ high) :
    rowsInRange low mid L ++ rowsInRange mid high L = rowsInRange low high L := by
  induction L with
  | nil => rfl
  | cons r L ih =>
    obtain ⟨hr, hs⟩ := List.pairwise_cons.mp hs
    have ih := ih hs
    simp only [rowsInRange, List.filter_cons] at ih ⊢
    by_cases hm : r.id ≤ mid
    · have h : ¬ (mid < r.id) := by omega
      by_cases hl : low < r.id <;> simp [hm, h, hl, ih, show r.id ≤ high by omega]
    · have hnil : L.filter (fun r => decide (low < r.id) && decide (r.id ≤ mid)) = [] :=
        List.filter_eq_nil_iff.mpr fun r' hr' => by have := hr r' hr'; simp; omega
      rw [hnil, List.nil_append] at ih
      by_cases hh : r.id ≤ high <;>
        simp [hm, hh, hnil, ih, show low < r.id by omega, show mid < r.id by omega]

theorem SyncDB.Wf.roomWindow_append (hw : db.Wf) (onlySync : Bool) {mid : Nat} (h₁ : low ≤ mid)
    (h₂ : mid ≤ high) :
    roomWindow db roomID low mid onlySync ++ roomWindow db roomID mid high onlySync =
      roomWindow db roomID low high onlySync := by
  simp only [roomWindow, windowRows, ← List.map_append, ← List.filter_append,
    rowsInRange_append hw.sorted h₁ h₂]

theorem SyncDB.Wf.roomWindow_fit (hw : db.Wf) (onlySync : Bool) {mid n : Nat} (h₁ : low ≤ mid)
    (h₂ : mid ≤ high) (hn : (roomWindow db roomID low high false).length ≤ n) :
    (roomWindow db roomID low mid onlySync).length ≤ n ∧
      (roomWindow db roomID mid high onlySync).length ≤ n ∧
      (roomWindow db roomID low high onlySync).length ≤ n := by
  have hle : (roomWindow db roomID low high onlySync).length ≤
      (roomWindow db roomID low high false).length := roomWindow_length_le onlySync
  rw [← hw.roomWindow_append onlySync h₁ h₂, List.length_append] at hle ⊢
  omega

end Windows

theorem selectWindows_roomWindow (ops : List SyncOp) (roomID : String) (low high n : Nat)
    (onlySync : Bool) :
    (roomWindow (SyncDB.init.run ops) roomID low high onlySync).Pairwise
        (·.streamPosition < ·.streamPosition) ∧
      selectEarlyEvents roomID low high n (.ofRun ops) =
        .ok ((roomWindow (SyncDB.init.run ops) roomID low high false).take n) ∧
      selectRecentEvents roomID low high n true onlySync (.ofRun ops) =
        .ok ((roomWindow (SyncDB.init.run ops) roomID low high onlySync).drop
          ((roomWindow (SyncDB.init.run ops) roomID low high onlySync).length - n)) ∧
      selectRecentEvents roomID low high n false onlySync (.ofRun ops) =
        .ok ((roomWindow (SyncDB.init.run ops) roomID low high onlySync).drop
          ((roomWindow (SyncDB.init.run ops) roomID low high onlySync).length - n)).reverse ∧
      ∀ mid, low ≤ mid → mid ≤ high →
        (roomWindow (SyncDB.init.run ops) roomID low high false).length ≤ n →
        (∃ e₁ e₂, selectEarlyEvents roomID low mid n (.ofRun ops) = .ok e₁ ∧
          selectEarlyEvents roomID mid high n (.ofRun ops) = .ok e₂ ∧
          selectEarlyEvents roomID low high n (.ofRun ops) = .ok (e₁ ++ e₂)) ∧
        ∀ chronologicalOrder, ∃ e₁ e₂,
          selectRecentEvents roomID low mid n chronologicalOrder onlySync (.ofRun ops) = .ok e₁ ∧
          selectRecentEvents roomID mid high n chronologicalOrder onlySync (.ofRun ops) = .ok e₂ ∧
          selectRecentEvents roomID low high n chronologicalOrder onlySync (.ofRun ops) =
            .ok (if chronologicalOrder then e₁ ++ e₂ else e₂ ++ e₁) := by
  have hw := SyncDB.wf_run ops
  refine ⟨hw.roomWindow_sorted onlySync, selectEarlyEvents_ofRun ops,
    selectRecentEvents_ofRun ops true onlySync, selectRecentEvents_ofRun ops false onlySync,
    fun mid h₁ h₂ hn => ?_⟩
  obtain ⟨f₁, f₂, f⟩ := hw.roomWindow_fit false h₁ h₂ hn
  obtain ⟨g₁, g₂, g⟩ := hw.roomWindow_fit onlySync h₁ h₂ hn
  refine ⟨⟨_, _, selectEarlyEvents_ofRun ops, selectEarlyEvents_ofRun ops, ?_⟩,
    fun chrono => ⟨_, _, selectRecentEvents_ofRun ops chrono onlySync,
      selectRecentEvents_ofRun ops chrono onlySync, ?_⟩⟩
  · rw [selectEarlyEvents_ofRun, List.take_of_length_le f₁, List.take_of_length_le f₂,
      List.take_of_length_le f, hw.roomWindow_append false h₁ h₂]
  · rw [selectRecentEvents_ofRun, Nat.sub_eq_zero_of_le g₁, Nat.sub_eq_zero_of_le g₂,
      Nat.sub_eq_zero_of_le g, ← hw.roomWindow_append onlySync h₁ h₂]
    cases chrono <;> simp

theorem selectWindows_roomWindow_split :
    ∃ e₁ e₂,
      selectEarlyEvents "!r" 0 1 2 (.ofRun [.prepare, .insertEvent (messageEvent "$a" false),
        .insertEvent (messageEvent "$b" true)]) = .ok e₁ ∧
      selectEarlyEvents "!r" 1 2 2 (.ofRun [.prepare, .insertEvent (messageEvent "$a" false),
        .insertEvent (messageEvent "$b" true)]) = .ok e₂ ∧
      selectEarlyEvents "!r" 0 2 2 (.ofRun [.prepare, .insertEvent (messageEvent "$a" false),
        .insertEvent (messageEvent "$b" true)]) = .ok (e₁ ++ e₂) :=
  ((selectWindows_roomWindow [.prepare, .insertEvent (messageEvent "$a" false),
    .insertEvent (messageEvent "$b" true)] "!r" 0 2 2 false).2.2.2.2 1 (by decide) (by decide)
    (by decide)).1

theorem lastExcludeFromSync_of_not_inserted {eventID : String} {b : Bool} {more : List SyncOp}
    (h : ∀ a : InsertEventArgs, .insertEvent a ∈ more → a.event.eventID ≠ eventID) :
    lastExcludeFromSync eventID b more = b := by
  induction more with
  | nil => rfl
  | cons op more ih =>
    have hop : op.excludeFromSync eventID b = b := by
      cases op with
      | prepare => rfl
      | insertEvent a => exact if_neg fun he => h a (List.mem_cons_self _ _) he.symm
    show lastExcludeFromSync eventID (op.excludeFromSync eventID b) more = b
    rw [hop]
    exact ih fun a ha => h a (List.mem_cons_of_mem _ ha)

theorem OutputRoomEvent.eq_of_eraseFlag {r r' : OutputRoomEvent} (h : r.eraseFlag = r'.eraseFlag)
    (hx : r.excludeFromSync = r'.excludeFromSync) : r = r' := by
  cases r
  cases r'
  simp only [OutputRoomEvent.eraseFlag, OutputRoomEvent.mk.injEq] at h hx ⊢
  simp_all

theorem row_of_insert {ops more : List SyncOp} {a : InsertEventArgs} {p : Nat}
    (hnew : a.event.eventID ∉ (SyncDB.init.run ops).events.map (·.eventID))
    (hp : (insertEvent a (SyncDB.init.run ops)).1 = .ok p)
    (hmore : ∀ a' : InsertEventArgs, .insertEvent a' ∈ more → a'.event.eventID ≠ a.event.eventID) :
    ∀ r ∈ (SyncDB.init.run (ops ++ .insertEvent a :: more)).events,
      r.headeredEventJSON.eventID = a.event.eventID → r = a.row p := by
  have hw₀ := SyncDB.wf_run ops
  have hmem : a.row p ∈ (insertEvent a (SyncDB.init.run ops)).2.events := by
    cases hg : (SyncDB.init.run ops).streamIDs "global" with
    | none => rw [insertEvent_of_none hg] at hp; cases hp
    | some n =>
      rw [hw₀.insertEvent_eq hg] at hp ⊢
      cases hp
      rw [if_neg hnew]
      exact List.mem_append_right _ (List.mem_singleton_self _)
  obtain ⟨r', hr', he, hx⟩ := hw₀.insertEvent.excludeFromSync_run hmem more
  rw [row_eventID, row_excludeFromSync, lastExcludeFromSync_of_not_inserted hmore] at hx
  have hr'row : r' = a.row p := OutputRoomEvent.eq_of_eraseFlag he hx
  have hrun : SyncDB.init.run (ops ++ .insertEvent a :: more) =
      (insertEvent a (SyncDB.init.run ops)).2.run more := by
    rw [SyncDB.run_append, SyncDB.run_cons]
    rfl
  have hw := SyncDB.wf_run (ops ++ .insertEvent a :: more)
  rw [hrun] at hw ⊢
  intro r hr hre
  have hid : r.eventID = r'.eventID := by
    rw [← (written_headered (hw.written r hr)).1, hre, hr'row]
    rfl
  exact (List.inj_on_of_nodup_map hw.unique hr hr' hid).trans hr'row

theorem readers_report_insert (ops more : List SyncOp) (a : InsertEventArgs) (p : Nat)
    (hnew : a.event.eventID ∉ (SyncDB.init.run ops).events.map (·.eventID))
    (hp : (insertEvent a (SyncDB.init.run ops)).1 = .ok p)
    (hmore : ∀ a' : InsertEventArgs, .insertEvent a' ∈ more → a'.event.eventID ≠ a.event.eventID) :
    (∀ roomID low high limit chronologicalOrder onlySyncEvents evs,
      selectRecentEvents roomID low high limit chronologicalOrder onlySyncEvents
        (.ofRun (ops ++ .insertEvent a :: more)) = .ok evs →
      ∀ ev ∈ evs, ev.headeredEvent.eventID = a.event.eventID →
        ev = ⟨a.event, p, a.transactionID, a.excludeFromSync⟩) ∧
    (∀ roomID low high limit evs,
      selectEarlyEvents roomID low high limit (.ofRun (ops ++ .insertEvent a :: more)) = .ok evs →
      ∀ ev ∈ evs, ev.headeredEvent.eventID = a.event.eventID →
        ev = ⟨a.event, p, a.transactionID, a.excludeFromSync⟩) ∧
    (∀ eventIDs evs, selectEvents eventIDs (.ofRun (ops ++ .insertEvent a :: more)) = .ok evs →
      ∀ ev ∈ evs, ev.headeredEvent.eventID = a.event.eventID →
        ev = ⟨a.event, p, a.transactionID, a.excludeFromSync⟩) ∧
    (∀ low high limit acc,
      selectStateInRange low high limit (SyncDB.init.run (ops ++ .insertEvent a :: more)) =
        .ok acc →
      ∀ ev, acc.2 a.event.eventID = some ev → ev = ⟨a.event, p, none, a.excludeFromSync⟩) := by
  have key := row_of_insert hnew hp hmore
  have hread : ∀ s ∈ (OutputLog.ofRun (ops ++ .insertEvent a :: more)).rows, ∀ ev,
      toStreamEvent s = .ok ev → ev.headeredEvent.eventID = a.event.eventID →
        ev = ⟨a.event, p, a.transactionID, a.excludeFromSync⟩ := by
    intro s hs ev he hev
    obtain ⟨r, hr, rfl⟩ := List.mem_map.mp hs
    rw [toStreamEvent_stored] at he
    cases he
    rw [key r hr hev, streamEvent_row]
  refine ⟨fun _ _ _ _ _ _ _ h ev hev he => ?_, fun _ _ _ _ _ h ev hev he => ?_,
    fun _ _ h ev hev he => ?_, fun _ _ _ _ h ev hev => ?_⟩
  · obtain ⟨s, hs, hse⟩ := mem_selectRecentEvents h ev hev
    exact hread s hs ev hse he
  · obtain ⟨s, hs, hse⟩ := mem_selectEarlyEvents h ev hev
    exact hread s hs ev hse he
  · obtain ⟨s, hs, hse⟩ := mem_selectEvents h ev hev
    exact hread s hs ev hse he
  · rw [selectStateInRange_eq] at h
    cases h
    obtain ⟨r, hr, hre, rfl⟩ := foldRows_event_mem hev
    rw [key r (List.mem_filter.mp (List.mem_of_mem_take hr)).1 hre]
    rfl

theorem readers_report_insert_txn :
    selectEvents ["$e"] (.ofRun ([.prepare] ++
        .insertEvent { messageEvent "$e" true with transactionID := some ⟨7, "txn"⟩ } :: [])) =
      .ok [⟨(messageEvent "$e" true).event, 1, some ⟨7, "txn"⟩, true⟩] := by
  obtain ⟨ev, hev, hid⟩ : ∃ ev : StreamEvent, selectEvents ["$e"] (OutputLog.ofRun
      ([SyncOp.prepare] ++ SyncOp.insertEvent
        { messageEvent "$e" true with transactionID := some ⟨7, "txn"⟩ } :: [])) =
        .ok [ev] ∧ ev.headeredEvent.eventID = "$e" := ⟨_, rfl, rfl⟩
  rw [hev, (readers_report_insert [.prepare] []
    { messageEvent "$e" true with transactionID := some ⟨7, "txn"⟩ } 1 (by decide) (by decide)
    (by simp)).2.2.1 ["$e"] [ev] hev ev (List.mem_singleton_self _) hid]
  rfl

end Dendrite.SyncAPI

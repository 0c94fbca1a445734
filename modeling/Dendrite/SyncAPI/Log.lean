import Dendrite.SyncAPI.OutputRoomEvents
import Mathlib.Data.List.Nodup

/-! Runs of the sync API's storage calls one after another, and what every run keeps: the output
log is append-only, its positions increase, and none exceeds the stream counter. -/

namespace Dendrite.SyncAPI

inductive SyncOp
  /-- A start of the server: `streamIDStatements.prepare` and the tables' schemas. -/
  | prepare
  | insertEvent (a : InsertEventArgs)
  deriving DecidableEq, Repr

def SyncOp.apply : SyncOp → SyncDB → SyncDB
  | .prepare, db => { db with streamIDs := db.streamIDs.prepare }
  | .insertEvent a, db => (SyncAPI.insertEvent a db).2

def SyncDB.run (db : SyncDB) (ops : List SyncOp) : SyncDB :=
  ops.foldl (fun db op => op.apply db) db

@[simp] theorem SyncDB.run_nil (db : SyncDB) : db.run [] = db := rfl

@[simp] theorem SyncDB.run_cons (db : SyncDB) (op : SyncOp) (ops : List SyncOp) :
    db.run (op :: ops) = (op.apply db).run ops := rfl

theorem SyncDB.run_append (db : SyncDB) (ops ops' : List SyncOp) :
    db.run (ops ++ ops') = (db.run ops).run ops' := by
  simp [SyncDB.run, List.foldl_append]

structure SyncDB.Wf (db : SyncDB) : Prop where
  sorted : db.events.Pairwise (fun r r' => r.id < r'.id)
  bounded : ∀ r ∈ db.events, ∃ n, db.streamIDs "global" = some n ∧ r.id ≤ n
  unique : (db.events.map (·.eventID)).Nodup
  written : ∀ r ∈ db.events, ∃ a : InsertEventArgs, a.row r.id = r

theorem SyncDB.wf_of_events_nil {db : SyncDB} (h : db.events = []) : db.Wf where
  sorted := h ▸ .nil
  bounded := by simp [h]
  unique := h ▸ .nil
  written := by simp [h]

theorem SyncDB.wf_init : SyncDB.init.Wf := wf_of_events_nil rfl

variable {db : SyncDB} {a : InsertEventArgs} {n : Nat}

theorem written_setExcludeFromSync {r : OutputRoomEvent} (h : ∃ a : InsertEventArgs, a.row r.id = r)
    (e : String) (b : Bool) :
    ∃ a : InsertEventArgs, a.row (setExcludeFromSync e b r).id = setExcludeFromSync e b r := by
  obtain ⟨a, ha⟩ := h
  unfold setExcludeFromSync
  split
  · exact ⟨{ a with excludeFromSync := b }, by rw [← ha]; rfl⟩
  · exact ⟨a, ha⟩

theorem SyncDB.Wf.insertEvent_eq (hw : db.Wf) (h : db.streamIDs "global" = some n) :
    insertEvent a db = (.ok (n + 1), ⟨Function.update db.streamIDs "global" (some (n + 1)),
      if a.event.eventID ∈ db.events.map (·.eventID) then
        db.events.map (setExcludeFromSync a.event.eventID a.excludeFromSync)
      else db.events ++ [a.row (n + 1)]⟩) := by
  have hid : a.event.eventID ∉ db.events.map (·.eventID) →
      (a.row (n + 1)).id ∉ db.events.map (·.id) := fun _ hid => by
    obtain ⟨r, hr, hrid⟩ := List.mem_map.mp hid
    obtain ⟨m, hm, hle⟩ := hw.bounded r hr
    simp only [h, Option.some.injEq] at hm
    simp only [row_id] at hrid
    omega
  rw [insertEvent_of_global h]
  by_cases he : a.event.eventID ∈ db.events.map (·.eventID)
  · simp only [insertEventSQL, row_eventID, if_pos he]
  · simp only [insertEventSQL, row_eventID, if_neg he, if_neg (hid he)]

theorem SyncDB.Wf.events_nil (hw : db.Wf) (h : db.streamIDs "global" = none) : db.events = [] :=
  List.eq_nil_iff_forall_not_mem.mpr fun r hr => by
    obtain ⟨m, hm, -⟩ := hw.bounded r hr
    simp [h] at hm

theorem SyncDB.Wf.insertEvent (hw : db.Wf) : (insertEvent a db).2.Wf := by
  cases h : db.streamIDs "global" with
  | none => rw [insertEvent_of_none h]; exact hw
  | some n =>
    rw [hw.insertEvent_eq h]
    have hb : ∀ r ∈ db.events, r.id ≤ n := fun r hr => by
      obtain ⟨m, hm, hle⟩ := hw.bounded r hr
      simp only [h, Option.some.injEq] at hm
      omega
    split_ifs with he
    · refine ⟨?_, ?_, ?_, ?_⟩
      · simpa [List.pairwise_map] using hw.sorted
      · simp only [List.mem_map, Function.update_same]
        rintro _ ⟨r, hr, rfl⟩
        exact ⟨n + 1, rfl, by simpa using Nat.le_succ_of_le (hb r hr)⟩
      · simpa [List.map_map, Function.comp_def] using hw.unique
      · simp only [List.mem_map]
        rintro _ ⟨r, hr, rfl⟩
        exact written_setExcludeFromSync (hw.written r hr) _ _
    · refine ⟨?_, ?_, ?_, ?_⟩
      · simp only [List.pairwise_append, List.pairwise_singleton, List.mem_singleton]
        exact ⟨hw.sorted, trivial, fun r hr _ h' => h' ▸ Nat.lt_succ_of_le (hb r hr)⟩
      · simp only [List.mem_append, List.mem_singleton, Function.update_same]
        rintro r (hr | rfl)
        · exact ⟨n + 1, rfl, Nat.le_succ_of_le (hb r hr)⟩
        · exact ⟨n + 1, rfl, Nat.le_refl _⟩
      · rw [List.map_append, List.nodup_append]
        exact ⟨hw.unique, List.nodup_singleton _, List.disjoint_singleton.mpr he⟩
      · simp only [List.mem_append, List.mem_singleton]
        rintro r (hr | rfl)
        · exact hw.written r hr
        · exact ⟨a, rfl⟩

theorem SyncDB.Wf.prepare (hw : db.Wf) : (SyncOp.prepare.apply db).Wf := by
  cases h : db.streamIDs "global" with
  | none => exact SyncDB.wf_of_events_nil (hw.events_nil h)
  | some n => simpa [SyncOp.apply, StreamIDTable.prepare_of_global h] using hw

theorem SyncDB.Wf.apply (hw : db.Wf) : ∀ op : SyncOp, (op.apply db).Wf
  | .prepare => hw.prepare
  | .insertEvent _ => hw.insertEvent

theorem SyncDB.Wf.run (hw : db.Wf) (ops : List SyncOp) : (db.run ops).Wf := by
  induction ops generalizing db with
  | nil => exact hw
  | cons op ops ih => exact ih (hw.apply op)

theorem SyncDB.wf_run (ops : List SyncOp) : (SyncDB.init.run ops).Wf := wf_init.run ops

theorem SyncDB.Wf.global_apply (hw : db.Wf) {m : Nat} (h : db.streamIDs "global" = some m) :
    ∀ op : SyncOp, ∃ n, (op.apply db).streamIDs "global" = some n ∧ m ≤ n
  | .prepare => ⟨m, by simp [SyncOp.apply, StreamIDTable.prepare_of_global h, h], Nat.le_refl m⟩
  | .insertEvent _ => ⟨m + 1, by
      show (SyncAPI.insertEvent _ db).2.streamIDs "global" = _
      simp [hw.insertEvent_eq h], Nat.le_succ m⟩

theorem SyncDB.Wf.global_run (hw : db.Wf) {m : Nat} (h : db.streamIDs "global" = some m)
    (ops : List SyncOp) : ∃ n, (db.run ops).streamIDs "global" = some n ∧ m ≤ n := by
  induction ops generalizing db m with
  | nil => exact ⟨m, h, Nat.le_refl m⟩
  | cons op ops ih =>
    obtain ⟨k, hk, hmk⟩ := hw.global_apply h op
    obtain ⟨n, hn, hkn⟩ := ih (hw.apply op) hk
    exact ⟨n, hn, Nat.le_trans hmk hkn⟩

structure Above (m : Nat) (db db' : SyncDB) : Prop where
  wf : db'.Wf
  global_ge : ∀ n, db'.streamIDs "global" = some n → m ≤ n
  global_none : db'.streamIDs "global" = none → m = 0
  rows : ∀ r ∈ db'.events, r.eventID ∈ db.events.map (·.eventID) ∨ m < r.id

theorem Above.apply {m : Nat} {db db' : SyncDB} (h : Above m db db') :
    ∀ op : SyncOp, Above m db (op.apply db')
  | .prepare => by
    cases hg : db'.streamIDs "global" with
    | none =>
      have h0 := h.global_none hg
      refine ⟨h.wf.prepare, fun n hn => by simp [h0], fun hn => h0, ?_⟩
      simpa [SyncOp.apply] using h.rows
    | some n => simpa [SyncOp.apply, StreamIDTable.prepare_of_global hg] using h
  | .insertEvent a => by
    show Above m db (SyncAPI.insertEvent a db').2
    cases hg : db'.streamIDs "global" with
    | none => rw [insertEvent_of_none hg]; exact h
    | some n =>
      have hmn := h.global_ge n hg
      refine ⟨h.wf.insertEvent, ?_, ?_, ?_⟩ <;> rw [h.wf.insertEvent_eq hg]
      · simp only [Function.update_same, Option.some.injEq]
        omega
      · simp
      · split_ifs
        · simp only [List.mem_map]
          rintro _ ⟨r, hr, rfl⟩
          simpa only [setExcludeFromSync_eventID, setExcludeFromSync_id, List.mem_map]
            using h.rows r hr
        · simp only [List.mem_append, List.mem_singleton]
          rintro r (hr | rfl)
          · exact h.rows r hr
          · exact .inr (by simp only [row_id]; omega)

theorem SyncDB.Wf.run_above (hw : db.Wf) (ops : List SyncOp) :
    ∀ r ∈ (db.run ops).events, r.eventID ∉ db.events.map (·.eventID) →
      selectMaxEventID db < r.id := by
  have h₀ : Above (selectMaxEventID db) db db := by
    refine ⟨hw, fun n hn => selectMaxEventID_le fun r hr => ?_, fun hn => ?_, fun r hr => .inl
      (List.mem_map_of_mem _ hr)⟩
    · obtain ⟨k, hk, hle⟩ := hw.bounded r hr
      rw [hn, Option.some.injEq] at hk
      exact hk ▸ hle
    · simp [selectMaxEventID, hw.events_nil hn]
  have : ∀ ops (db' : SyncDB), Above (selectMaxEventID db) db db' →
      Above (selectMaxEventID db) db (db'.run ops) := by
    intro ops
    induction ops with
    | nil => exact fun _ h => h
    | cons op ops ih => exact fun db' h => ih _ (h.apply op)
  exact fun r hr hn => ((this ops db h₀).rows r hr).resolve_left hn

def OutputRoomEvent.eraseFlag (r : OutputRoomEvent) : OutputRoomEvent :=
  { r with excludeFromSync := false }

@[simp] theorem eraseFlag_setExcludeFromSync (e : String) (b : Bool) (r : OutputRoomEvent) :
    (setExcludeFromSync e b r).eraseFlag = r.eraseFlag := by
  unfold setExcludeFromSync; split <;> rfl

def AppendOnly (db db' : SyncDB) : Prop :=
  db.events.map OutputRoomEvent.eraseFlag <+: db'.events.map OutputRoomEvent.eraseFlag

theorem AppendOnly.trans {db₁ db₂ db₃ : SyncDB} (h₁ : AppendOnly db₁ db₂)
    (h₂ : AppendOnly db₂ db₃) : AppendOnly db₁ db₃ :=
  List.IsPrefix.trans h₁ h₂

theorem SyncDB.Wf.appendOnly_apply (hw : db.Wf) : ∀ op : SyncOp, AppendOnly db (op.apply db)
  | .prepare => List.prefix_refl _
  | .insertEvent a => by
    show AppendOnly db (SyncAPI.insertEvent a db).2
    cases h : db.streamIDs "global" with
    | none => rw [insertEvent_of_none h]; exact List.prefix_refl _
    | some n =>
      rw [hw.insertEvent_eq h, AppendOnly]
      split_ifs
      · simp [List.map_map, Function.comp_def]
      · simp

theorem SyncDB.Wf.appendOnly_run (hw : db.Wf) (ops : List SyncOp) : AppendOnly db (db.run ops) := by
  induction ops generalizing db with
  | nil => exact List.prefix_refl _
  | cons op ops ih => exact (hw.appendOnly_apply op).trans (ih (hw.apply op))

theorem outputLog_appendOnly (ops more : List SyncOp) :
    ((SyncDB.init.run ops).events.map (·.eventID)).Nodup ∧
    AppendOnly (SyncDB.init.run ops) ((SyncDB.init.run ops).run more) ∧
    ∀ a : InsertEventArgs, a.event.eventID ∈ (SyncDB.init.run ops).events.map (·.eventID) →
      (insertEvent a (SyncDB.init.run ops)).2.events = (SyncDB.init.run ops).events.map fun r =>
        { r with excludeFromSync :=
            if r.eventID = a.event.eventID then a.excludeFromSync else r.excludeFromSync } := by
  have hw := SyncDB.wf_run ops
  refine ⟨hw.unique, hw.appendOnly_run more, fun a he => ?_⟩
  obtain ⟨r, hr, -⟩ := List.mem_map.mp he
  obtain ⟨n, hn, -⟩ := hw.bounded r hr
  rw [hw.insertEvent_eq hn, if_pos he]
  exact List.map_congr_left fun r _ => setExcludeFromSync_eq _ _ r

def messageEvent (eventID : String) (excludeFromSync : Bool) : InsertEventArgs :=
  ⟨⟨eventID, "!r", "m.room.message", "@alice:localhost", .other⟩, none, none, none, excludeFromSync⟩

theorem outputLog_appendOnly_upsert :
    ((SyncDB.init.run [.prepare, .insertEvent (messageEvent "$e" false)]).events.map
      (·.eventID)).Nodup ∧
    (insertEvent (messageEvent "$e" true)
        (SyncDB.init.run [.prepare, .insertEvent (messageEvent "$e" false)])).2.events =
      [{ (messageEvent "$e" false).row 1 with excludeFromSync := true }] :=
  ⟨(outputLog_appendOnly [.prepare, .insertEvent (messageEvent "$e" false)] []).1,
    ((outputLog_appendOnly [.prepare, .insertEvent (messageEvent "$e" false)] []).2.2
      (messageEvent "$e" true) (by decide)).trans (by decide)⟩

theorem insertEvent_stored_position (ops : List SyncOp) (a : InsertEventArgs)
    (r : OutputRoomEvent) (hr : r ∈ (SyncDB.init.run ops).events)
    (he : r.eventID = a.event.eventID) :
    ∃ p, (insertEvent a (SyncDB.init.run ops)).1 = .ok p ∧ r.id < p ∧
      p ∉ (insertEvent a (SyncDB.init.run ops)).2.events.map (·.id) := by
  have hw := SyncDB.wf_run ops
  obtain ⟨n, hn, hle⟩ := hw.bounded r hr
  have hmem : a.event.eventID ∈ (SyncDB.init.run ops).events.map (·.eventID) :=
    List.mem_map.mpr ⟨r, hr, he⟩
  refine ⟨n + 1, by rw [hw.insertEvent_eq hn], by omega, ?_⟩
  rw [hw.insertEvent_eq hn, if_pos hmem]
  simp only [List.map_map, Function.comp_def, setExcludeFromSync_id, List.mem_map, not_exists,
    not_and]
  intro r' hr' hid
  obtain ⟨m, hm, hle'⟩ := hw.bounded r' hr'
  simp only [hn, Option.some.injEq] at hm
  omega

theorem insertEvent_twice_position :
    ∃ p, (insertEvent (messageEvent "$e" false)
        (SyncDB.init.run [.prepare, .insertEvent (messageEvent "$e" false)])).1 = .ok p ∧ 1 < p ∧
      p ∉ (insertEvent (messageEvent "$e" false)
        (SyncDB.init.run [.prepare, .insertEvent (messageEvent "$e" false)])).2.events.map (·.id) :=
  insertEvent_stored_position [.prepare, .insertEvent (messageEvent "$e" false)]
    (messageEvent "$e" false) ((messageEvent "$e" false).row 1) (by decide) rfl

def SyncOp.excludeFromSync (eventID : String) (b : Bool) : SyncOp → Bool
  | .prepare => b
  | .insertEvent a => if eventID = a.event.eventID then a.excludeFromSync else b

def lastExcludeFromSync (eventID : String) (b : Bool) (ops : List SyncOp) : Bool :=
  ops.foldl (fun b op => op.excludeFromSync eventID b) b

theorem SyncDB.Wf.excludeFromSync_apply (hw : db.Wf) {r : OutputRoomEvent} (hr : r ∈ db.events) :
    ∀ op : SyncOp, ∃ r' ∈ (op.apply db).events, r'.eraseFlag = r.eraseFlag ∧
      r'.excludeFromSync = op.excludeFromSync r.eventID r.excludeFromSync
  | .prepare => ⟨r, hr, rfl, rfl⟩
  | .insertEvent a => by
    obtain ⟨n, hn, -⟩ := hw.bounded r hr
    show ∃ r' ∈ (SyncAPI.insertEvent a db).2.events, _
    rw [hw.insertEvent_eq hn]
    split_ifs with he
    · refine ⟨_, List.mem_map_of_mem _ hr, eraseFlag_setExcludeFromSync _ _ _, ?_⟩
      rw [setExcludeFromSync_eq]
      rfl
    · refine ⟨r, List.mem_append_left _ hr, rfl, ?_⟩
      have : r.eventID ≠ a.event.eventID := fun h => he (List.mem_map.mpr ⟨r, hr, h⟩)
      simp [SyncOp.excludeFromSync, this]

theorem SyncDB.Wf.excludeFromSync_run (hw : db.Wf) {r : OutputRoomEvent} (hr : r ∈ db.events)
    (ops : List SyncOp) : ∃ r' ∈ (db.run ops).events, r'.eraseFlag = r.eraseFlag ∧
      r'.excludeFromSync = lastExcludeFromSync r.eventID r.excludeFromSync ops := by
  induction ops generalizing db r with
  | nil => exact ⟨r, hr, rfl, rfl⟩
  | cons op ops ih =>
    obtain ⟨r₁, h₁, e₁, f₁⟩ := hw.excludeFromSync_apply hr op
    obtain ⟨r', h', e', f'⟩ := ih (hw.apply op) h₁
    have hid : r₁.eventID = r.eventID := (congrArg OutputRoomEvent.eventID e₁ :)
    refine ⟨r', h', e'.trans e₁, ?_⟩
    rw [f', hid, f₁]
    rfl

theorem excludeFromSync_last_insert (ops more : List SyncOp) (r : OutputRoomEvent)
    (hr : r ∈ (SyncDB.init.run ops).events) :
    ∃ r' ∈ ((SyncDB.init.run ops).run more).events, r'.eraseFlag = r.eraseFlag ∧
      r'.excludeFromSync = lastExcludeFromSync r.eventID r.excludeFromSync more :=
  (SyncDB.wf_run ops).excludeFromSync_run hr more

theorem excludeFromSync_set_back :
    (messageEvent "$e" false).row 1 ∈
        (SyncDB.init.run [.prepare, .insertEvent (messageEvent "$e" false)]).events ∧
      ((messageEvent "$e" false).row 1).excludeFromSync = false ∧
      ∃ r' ∈ ((SyncDB.init.run [.prepare, .insertEvent (messageEvent "$e" false)]).run
          [.insertEvent (messageEvent "$e" true)]).events,
        r'.eraseFlag = ((messageEvent "$e" false).row 1).eraseFlag ∧ r'.excludeFromSync = true :=
  have hr : (messageEvent "$e" false).row 1 ∈
      (SyncDB.init.run [.prepare, .insertEvent (messageEvent "$e" false)]).events := by decide
  ⟨hr, rfl, excludeFromSync_last_insert _ [.insertEvent (messageEvent "$e" true)] _ hr⟩

theorem containsURL_never_stored (ops : List SyncOp) :
    ∀ r ∈ (SyncDB.init.run ops).events,
      (unmarshalContent r.headeredEventJSON.content).1 = none → r.containsURL = false := by
  intro r hr hdec
  obtain ⟨a, ha⟩ := (SyncDB.wf_run ops).written r hr
  rw [← ha] at hdec ⊢
  exact containsURL_of_decoded hdec

example : containsURL (.objectTypeError ["url", "n"]
    "json: cannot unmarshal number 1e400 into Go value of type float64") = true := rfl

def urlMessageEvent : InsertEventArgs :=
  ⟨⟨"$m", "!r", "m.room.message", "@alice:localhost", .object ["body", "url"]⟩, none, none, none,
    false⟩

theorem containsURL_url_key :
    ∃ r ∈ (SyncDB.init.run [.prepare, .insertEvent urlMessageEvent]).events,
      r.headeredEventJSON.content = .object ["body", "url"] ∧ r.containsURL = false :=
  have hr : urlMessageEvent.row 1 ∈
      (SyncDB.init.run [.prepare, .insertEvent urlMessageEvent]).events := by decide
  ⟨_, hr, rfl, containsURL_never_stored _ _ hr rfl⟩

end Dendrite.SyncAPI

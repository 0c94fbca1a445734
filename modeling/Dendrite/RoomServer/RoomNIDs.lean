import Dendrite.RoomServer.Invariant

/-! A room ID is given one room NID for good: among committed transactions the NIDs returned for a
room ID agree and differ between room IDs, a stored row keeps its NID, room ID and version, and
`UpdateLatestEventNIDs` changes only the latest-event columns of the room it names. -/

namespace Dendrite.RoomServer

theorem update_mem_of_write_mem {n : Nat} {w : LatestEvents} {cs : List RoomCall}
    (h : RowOp.write w ∈ rowOps n cs) : RoomCall.updateLatestEventNIDs n w ∈ cs := by
  obtain ⟨c, hc, hw⟩ := List.mem_filterMap.mp h
  rcases c with _ | _ | ⟨m, _ | v⟩ | ⟨m, v⟩ | _ | _ <;> simp [RoomCall.rowOp] at hw
  · obtain ⟨rfl, rfl⟩ := hw; exact hc

namespace RoomSystem

variable {s : RoomSystem} {t : Nat}

theorem Inv.rooms_nid_nodup (hs : s.Inv) : (s.rooms.map (·.roomNID)).Nodup :=
  (hs.nid_nodup 0).sublist (List.Sublist.map _ (List.sublist_append_left _ _))

theorem Inv.rooms_id_nodup (hs : s.Inv) : (s.rooms.map (·.roomID)).Nodup :=
  (hs.id_nodup 0).sublist (List.Sublist.map _ (List.sublist_append_left _ _))

theorem Inv.roomNID_stored {i : String} {n : Nat} (hs : s.Inv)
    (h : RoomCall.selectRoomNID i (.ok n) ∈ s.historyCalls) :
    ∃ r ∈ s.rooms, r.roomID = i ∧ r.roomNID = n := by
  obtain ⟨v, hv⟩ := hs.history_seen _ h
  obtain ⟨r, hr, he⟩ := List.mem_map.mp hv
  simp only [RoomRow.ident, Prod.mk.injEq] at he
  exact ⟨r, hr, he.2.1, he.1⟩

theorem Inv.roomVersion_stored {i v : String} (hs : s.Inv)
    (h : RoomCall.selectRoomVersionForRoomID i (.ok v) ∈ s.historyCalls) :
    ∃ r ∈ s.rooms, r.roomID = i ∧ r.roomVersion = v := by
  obtain ⟨n, hn⟩ := hs.history_seen _ h
  obtain ⟨r, hr, he⟩ := List.mem_map.mp hn
  simp only [RoomRow.ident, Prod.mk.injEq] at he
  exact ⟨r, hr, he.2.1, he.2.2⟩

theorem step_keeps_rows {a : RoomAction} {s' : RoomSystem} (h : s.step a = some s') :
    ∀ r ∈ s.rooms, ∃ r' ∈ s'.rooms, r'.ident = r.ident := by
  intro r hr
  cases a <;> simp only [step] at h <;> (try split_ifs at h) <;> cases h <;>
    first
    | exact ⟨r, hr, rfl⟩
    | exact ⟨(s.txns _).apply r, List.mem_map_of_mem _ (List.mem_append_left _ hr),
        RoomTxn.apply_ident⟩

theorem run_keeps_rows (as : List RoomAction) :
    ∀ r ∈ s.rooms, ∃ r' ∈ (s.run as).rooms, r'.ident = r.ident := by
  induction as generalizing s with
  | nil => exact fun r hr => ⟨r, hr, rfl⟩
  | cons a as ih =>
    intro r hr
    obtain ⟨r₁, hr₁, he₁⟩ : ∃ r₁ ∈ ((s.step a).getD s).rooms, r₁.ident = r.ident := by
      cases h : s.step a with
      | none => exact ⟨r, hr, rfl⟩
      | some s' => exact step_keeps_rows h r hr
    obtain ⟨r', hr', he'⟩ := ih r₁ hr₁
    exact ⟨r', hr', he'.trans he₁⟩

theorem Inv.insertRoomNID_stored {r : RoomRow} {v : String} (hs : s.Inv) (hr : r ∈ s.rooms) :
    ((s.run (insertRoomNID t r.roomID v)).txns t).calls =
      (s.txns t).calls ++ [.selectRoomNID r.roomID (.ok r.roomNID)] := by
  have hkey : s.keyLocks r.roomID = none := by
    cases hk : s.keyLocks r.roomID with
    | none => rfl
    | some t' =>
      have hmem := hs.keyLock_inserted _ t' hk
      have hnd := hs.id_nodup t'
      rw [List.map_append] at hnd
      exact absurd hmem (List.disjoint_of_nodup_append hnd (List.mem_map_of_mem _ hr))
  have hview : r.roomID ∈ (s.view t).map (·.roomID) := by
    rw [view, RoomTxn.view_map_roomID]
    exact List.mem_map_of_mem _ (List.mem_append_left _ hr)
  have hsel : selectRoomNIDSQL r.roomID (s.view t) = .ok r.roomNID := by
    have h : (s.view t).find? (·.roomID == ((s.txns t).apply r).roomID) =
        some ((s.txns t).apply r) := find?_key
      (by rw [view, RoomTxn.view_map_roomID]; exact hs.id_nodup t)
      (List.mem_map_of_mem _ (List.mem_append_left _ hr))
    rw [RoomTxn.apply_roomID] at h
    simp [selectRoomNIDSQL, h, scanRow]
  have hins : s.step (.insertRoomNIDStmt t r.roomID v) =
      some { s with autoIncrement := s.autoIncrement + 1 } := by
    simp [RoomSystem.step, Free, hkey, insertConflicts, hview]
  have hsel' : selectRoomNIDSQL r.roomID
      (({ s with autoIncrement := s.autoIncrement + 1 } : RoomSystem).view t) = .ok r.roomNID := hsel
  simp only [insertRoomNID, RoomSystem.run, hins, Option.getD_some]
  simp only [RoomSystem.step, Option.getD_some, hsel', setTxn_txns_self, RoomTxn.record_calls]

theorem roomNIDs_stable (acts more : List RoomAction) :
    (∀ i n i' n', RoomCall.selectRoomNID i (.ok n) ∈ ((init.run acts).run more).historyCalls →
      RoomCall.selectRoomNID i' (.ok n') ∈ ((init.run acts).run more).historyCalls →
      (i = i' ↔ n = n')) ∧
    (∀ i n, RoomCall.selectRoomNID i (.ok n) ∈ ((init.run acts).run more).historyCalls →
      ∃ r ∈ ((init.run acts).run more).rooms, r.roomID = i ∧ r.roomNID = n) ∧
    (∀ i v, RoomCall.selectRoomVersionForRoomID i (.ok v) ∈ ((init.run acts).run more).historyCalls →
      ∃ r ∈ ((init.run acts).run more).rooms, r.roomID = i ∧ r.roomVersion = v) ∧
    (∀ r ∈ (init.run acts).rooms, ∃ r' ∈ ((init.run acts).run more).rooms, r'.ident = r.ident ∧
      (r'.latest = r.latest ∨ RoomCall.updateLatestEventNIDs r.roomNID r'.latest ∈
        (((init.run acts).run more).history.drop (init.run acts).history.length).flatMap (·.2))) ∧
    (∀ r ∈ (init.run acts).rooms, ∀ t v,
      (((init.run acts).run (insertRoomNID t r.roomID v)).txns t).calls =
        ((init.run acts).txns t).calls ++ [.selectRoomNID r.roomID (.ok r.roomNID)]) := by
  have hs := inv_run acts
  have hs' : ((init.run acts).run more).Inv := hs.run more
  refine ⟨fun i n i' n' h h' => ?_, fun i n h => hs'.roomNID_stored h,
    fun i v h => hs'.roomVersion_stored h, fun r hr => ?_,
    fun r hr t v => hs.insertRoomNID_stored hr⟩
  · obtain ⟨r, hr, rfl, rfl⟩ := hs'.roomNID_stored h
    obtain ⟨r', hr', rfl, rfl⟩ := hs'.roomNID_stored h'
    constructor
    · intro he; rw [List.inj_on_of_nodup_map hs'.rooms_id_nodup hr hr' he]
    · intro he; rw [List.inj_on_of_nodup_map hs'.rooms_nid_nodup hr hr' he]
  · obtain ⟨r', hr', he⟩ := run_keeps_rows more r hr
    have hn : r'.roomNID = r.roomNID := congrArg Prod.fst he
    obtain ⟨new, hnew⟩ := history_run (init.run acts) more
    have hrep := hs'.history r' hr'
    rw [historyCalls, hnew, List.flatMap_append, rowOps_append, RowOp.replay_append, hn,
      ← historyCalls, hs.history r hr] at hrep
    refine ⟨r', hr', he, (RowOp.eq_or_write_of_replay hrep).imp id fun hw => ?_⟩
    rw [hnew, List.drop_left]
    exact update_mem_of_write_mem hw

def twoInserts : List RoomAction :=
  insertRoomNID 1 "!r" "5" ++ [.insertRoomNIDStmt 2 "!r" "6", .commit 1] ++
    insertRoomNID 2 "!r" "6" ++ [.commit 2, .selectRoomVersionForRoomIDStmt 3 "!r", .commit 3]

theorem roomNIDs_stable_twoInserts :
    ((init.run twoInserts).historyCalls.filter fun c => c matches .selectRoomNID _ _) =
      [.selectRoomNID "!r" (.ok 1), .selectRoomNID "!r" (.ok 1)] ∧
    (∃ r ∈ (init.run twoInserts).rooms, r.roomID = "!r" ∧ r.roomVersion = "5") := by
  have h := (roomNIDs_stable twoInserts []).2.2.1 "!r" "5" (by decide)
  simp only [RoomSystem.run] at h
  exact ⟨by decide, h⟩

def Held (s : RoomSystem) (k : Nat × String × String) : Prop :=
  ∃ t, k ∈ (s.rooms ++ (s.txns t).inserted).map RoomRow.ident

theorem setTxn_inserted {u : Nat} {x : RoomTxn} (hx : x.inserted = (s.txns u).inserted) (t : Nat) :
    ((s.setTxn u x).txns t).inserted = (s.txns t).inserted := by
  rcases eq_or_ne t u with rfl | h
  · simpa using hx
  · rw [setTxn_txns_of_ne h]

theorem step_rows_held {a : RoomAction} {s' : RoomSystem} (h : s.step a = some s') (t : Nat) :
    ∀ r ∈ s'.rooms ++ (s'.txns t).inserted, s.Held r.ident ∨ s.autoIncrement ≤ r.roomNID := by
  have keep : ∀ r ∈ s.rooms ++ (s.txns t).inserted, s.Held r.ident ∨ s.autoIncrement ≤ r.roomNID :=
    fun r hr => .inl ⟨t, List.mem_map_of_mem _ hr⟩
  have same : ∀ {u : Nat} {x : RoomTxn}, x.inserted = (s.txns u).inserted →
      ∀ r ∈ (s.setTxn u x).rooms ++ ((s.setTxn u x).txns t).inserted,
        s.Held r.ident ∨ s.autoIncrement ≤ r.roomNID := fun hx r hr =>
    keep r (by rwa [setTxn_rooms, setTxn_inserted hx] at hr)
  cases a with
  | insertRoomNIDStmt u i v =>
    simp only [step] at h
    split_ifs at h <;> cases h
    · exact keep
    · intro r hr
      rcases eq_or_ne t u with rfl | hne
      · simp only [Function.update_same, List.mem_append, List.mem_singleton] at hr
        rcases hr with hr | hr | rfl
        · exact keep r (List.mem_append_left _ hr)
        · exact keep r (List.mem_append_right _ hr)
        · exact .inr (le_refl _)
      · simp only [Function.update_noteq hne] at hr
        exact keep r hr
  | selectRoomNIDStmt u i => cases h; exact same rfl
  | selectLatestEventNIDsStmt u n => cases h; exact same rfl
  | selectLatestEventNIDsForUpdateStmt u n =>
    simp only [step] at h
    split_ifs at h <;> cases h
    · exact same rfl
    · exact same rfl
  | updateLatestEventNIDsStmt u n v =>
    simp only [step] at h
    split_ifs at h <;> cases h
    · exact same rfl
    · exact keep
  | selectRoomVersionForRoomIDStmt u i => cases h; exact same rfl
  | selectRoomVersionForRoomNIDStmt c n => cases h; exact keep
  | commit u =>
    cases h
    intro r hr
    rcases List.mem_append.mp hr with hr | hr
    · obtain ⟨r₀, hr₀, rfl⟩ := List.mem_map.mp hr
      exact .inl ⟨u, by rw [RoomTxn.apply_ident]; exact List.mem_map_of_mem _ hr₀⟩
    · exact keep r (List.mem_append_right _ (endTxn_inserted_sublist.subset hr))
  | rollback u =>
    cases h
    exact fun r hr => keep r (List.mem_append.mpr ((List.mem_append.mp hr).imp id
      fun hr => endTxn_inserted_sublist.subset hr))

theorem step_autoIncrement_le {a : RoomAction} {s' : RoomSystem} (h : s.step a = some s') :
    s.autoIncrement ≤ s'.autoIncrement := by
  cases a <;> simp only [step] at h <;> (try split_ifs at h) <;> cases h <;>
    first | exact le_refl _ | exact Nat.le_succ _

theorem run_rows_held (s₀ : RoomSystem) (as : List RoomAction) :
    ∀ t, ∀ r ∈ (s₀.run as).rooms ++ ((s₀.run as).txns t).inserted,
      s₀.Held r.ident ∨ s₀.autoIncrement ≤ r.roomNID := by
  suffices ∀ s : RoomSystem, s₀.autoIncrement ≤ s.autoIncrement →
      (∀ t, ∀ r ∈ s.rooms ++ (s.txns t).inserted, s₀.Held r.ident ∨ s₀.autoIncrement ≤ r.roomNID) →
      ∀ t, ∀ r ∈ (s.run as).rooms ++ ((s.run as).txns t).inserted,
        s₀.Held r.ident ∨ s₀.autoIncrement ≤ r.roomNID from
    this s₀ (le_refl _) fun t r hr => .inl ⟨t, List.mem_map_of_mem _ hr⟩
  induction as with
  | nil => exact fun s _ h => h
  | cons a as ih =>
    intro s hle hs
    cases h : s.step a with
    | none => rw [run, h, Option.getD_none]; exact ih s hle hs
    | some s' =>
      rw [run, h, Option.getD_some]
      refine ih s' (hle.trans (step_autoIncrement_le h)) fun t r hr => ?_
      rcases step_rows_held h t r hr with ⟨t', hk⟩ | hn
      · obtain ⟨r', hr', he⟩ := List.mem_map.mp hk
        have hn : r.roomNID = r'.roomNID := (congrArg Prod.fst he).symm
        rw [← he, hn]
        exact hs t' r' hr'
      · exact .inr (hle.trans hn)

theorem roomNIDs_never_reused (acts more : List RoomAction) :
    (∀ t₀, ∀ r ∈ (init.run acts).rooms ++ ((init.run acts).txns t₀).inserted,
      r.roomNID < (init.run acts).autoIncrement) ∧
    ∀ t, ∀ r ∈ ((init.run acts).run more).rooms ++ (((init.run acts).run more).txns t).inserted,
      (init.run acts).Held r.ident ∨ (init.run acts).autoIncrement ≤ r.roomNID :=
  ⟨(inv_run acts).lt_autoIncrement, run_rows_held _ more⟩

end RoomSystem

end Dendrite.RoomServer

import Dendrite.RoomServer.Transactions
import Mathlib.Data.List.Nodup

/-! What holds in every state the transactions on `roomserver_rooms` reach: the keys stay unique,
a row is locked by the one transaction that touched it, and the committed reads and writes of a row
run one after another in commit order. -/

namespace Dendrite.RoomServer

theorem RoomCall.Seen.mono {rows rows' : List RoomRow} {c : RoomCall}
    (h : rows.map RoomRow.ident ⊆ rows'.map RoomRow.ident) (hc : c.Seen rows) : c.Seen rows' := by
  rcases c with ⟨i, _ | n⟩ | ⟨n, _ | _⟩ | ⟨n, _ | v⟩ | ⟨n, v⟩ | ⟨i, _ | v⟩ | ⟨n, _ | v⟩ <;>
    first | trivial | (obtain ⟨w, hw⟩ := hc; exact ⟨w, h hw⟩)

theorem nodup_map_append_singleton {β : Type} {key : RoomRow → β} {l : List RoomRow} {r : RoomRow}
    (h : (l.map key).Nodup) (hr : key r ∉ l.map key) : ((l ++ [r]).map key).Nodup := by
  rw [List.map_append]
  exact List.nodup_append.mpr ⟨h, List.nodup_singleton _, List.disjoint_singleton.mpr hr⟩

theorem nodup_map_append_append {β : Type} {key : RoomRow → β} {l A B : List RoomRow}
    (hA : ((l ++ A).map key).Nodup) (hB : ((l ++ B).map key).Nodup)
    (hAB : ∀ a ∈ A, ∀ b ∈ B, key a ≠ key b) : ((l ++ A ++ B).map key).Nodup := by
  rw [List.map_append] at hB ⊢
  rw [List.map_append] at hA
  obtain ⟨-, hB', hlB⟩ := List.nodup_append.mp hB
  refine List.nodup_append.mpr ⟨by rwa [List.map_append], hB', fun k hk hkB => ?_⟩
  rw [List.map_append, List.mem_append] at hk
  rcases hk with hk | hk
  · exact hlB hk hkB
  · obtain ⟨a, ha, rfl⟩ := List.mem_map.mp hk
    obtain ⟨b, hb, he⟩ := List.mem_map.mp hkB
    exact hAB a ha b hb he.symm

theorem map_append_subset {β : Type} {key : RoomRow → β} {l l' : List RoomRow} (A : List RoomRow)
    (h : l.map key ⊆ l'.map key) : (l ++ A).map key ⊆ (l' ++ A).map key := by
  rw [List.map_append, List.map_append]
  exact List.append_subset.mpr ⟨h.trans (List.subset_append_left _ _), List.subset_append_right _ _⟩

namespace RoomSystem

structure Inv (s : RoomSystem) : Prop where
  nid_nodup : ∀ t, ((s.rooms ++ (s.txns t).inserted).map (·.roomNID)).Nodup
  id_nodup : ∀ t, ((s.rooms ++ (s.txns t).inserted).map (·.roomID)).Nodup
  lt_autoIncrement : ∀ t, ∀ r ∈ s.rooms ++ (s.txns t).inserted, r.roomNID < s.autoIncrement
  inserted_rowLock : ∀ t, ∀ r ∈ (s.txns t).inserted, s.rowLocks r.roomNID = some t
  inserted_keyLock : ∀ t, ∀ r ∈ (s.txns t).inserted, s.keyLocks r.roomID = some t
  keyLock_inserted : ∀ i t, s.keyLocks i = some t → i ∈ (s.txns t).inserted.map (·.roomID)
  inserted_latest : ∀ t, ∀ r ∈ (s.txns t).inserted, r.latest = defaultLatest
  unlocked : ∀ t n, s.rowLocks n ≠ some t →
    rowOps n (s.txns t).calls = [] ∧ (s.txns t).updated n = none
  locked : ∀ t n, s.rowLocks n = some t →
    n ∈ (s.rooms ++ (s.txns t).inserted).map (·.roomNID) ∧
      (n ∈ (s.txns t).inserted.map (·.roomNID) ∨ rowOps n (s.txns t).calls ≠ [])
  replay : ∀ t, ∀ r ∈ s.rooms ++ (s.txns t).inserted,
    RowOp.replay r.latest (rowOps r.roomNID (s.txns t).calls) = some ((s.txns t).apply r).latest
  history : ∀ r ∈ s.rooms,
    RowOp.replay defaultLatest (rowOps r.roomNID s.historyCalls) = some r.latest
  history_nil : ∀ n, n ∉ s.rooms.map (·.roomNID) → rowOps n s.historyCalls = []
  calls_seen : ∀ t, ∀ c ∈ (s.txns t).calls, c.Seen (s.rooms ++ (s.txns t).inserted)
  history_seen : ∀ c ∈ s.historyCalls, c.Seen s.rooms

variable {s : RoomSystem} {t : Nat}

theorem inv_init : init.Inv where
  nid_nodup _ := List.nodup_nil
  id_nodup _ := List.nodup_nil
  lt_autoIncrement _ _ h := nomatch h
  inserted_rowLock _ _ h := nomatch h
  inserted_keyLock _ _ h := nomatch h
  keyLock_inserted _ _ h := nomatch h
  inserted_latest _ _ h := nomatch h
  unlocked _ _ _ := ⟨rfl, rfl⟩
  locked _ _ h := nomatch h
  replay _ _ h := nomatch h
  history _ h := nomatch h
  history_nil _ _ := rfl
  calls_seen _ _ h := nomatch h
  history_seen _ h := nomatch h

theorem Inv.inserted_ne {t' : Nat} {r r' : RoomRow} (hs : s.Inv) (h : t ≠ t')
    (hr : r ∈ (s.txns t).inserted) (hr' : r' ∈ (s.txns t').inserted) :
    r.roomNID ≠ r'.roomNID ∧ r.roomID ≠ r'.roomID := by
  constructor <;> intro he
  · have := hs.inserted_rowLock t' r' hr'
    rw [← he, hs.inserted_rowLock t r hr] at this
    exact h (Option.some.inj this)
  · have := hs.inserted_keyLock t' r' hr'
    rw [← he, hs.inserted_keyLock t r hr] at this
    exact h (Option.some.inj this)

theorem Inv.setTxn {x : RoomTxn} (hs : s.Inv) (hi : x.inserted = (s.txns t).inserted)
    (hu : x.updated = (s.txns t).updated) (ho : ∀ n, rowOps n x.calls = rowOps n (s.txns t).calls)
    (hc : ∀ c ∈ x.calls, c.Seen (s.rooms ++ x.inserted)) : (s.setTxn t x).Inv := by
  have hI : ∀ t', ((s.setTxn t x).txns t').inserted = (s.txns t').inserted := fun t' => by
    rcases eq_or_ne t' t with rfl | h <;> simp [setTxn_txns_of_ne, *]
  have hU : ∀ t', ((s.setTxn t x).txns t').updated = (s.txns t').updated := fun t' => by
    rcases eq_or_ne t' t with rfl | h <;> simp [setTxn_txns_of_ne, *]
  have hA : ∀ t', ((s.setTxn t x).txns t').apply = (s.txns t').apply := fun t' => by
    funext r; simp only [RoomTxn.apply, hU]
  have hO : ∀ t' n, rowOps n ((s.setTxn t x).txns t').calls = rowOps n (s.txns t').calls :=
    fun t' n => by rcases eq_or_ne t' t with rfl | h <;> simp [setTxn_txns_of_ne, *]
  exact {
    nid_nodup := fun t' => by simpa only [hI] using hs.nid_nodup t'
    id_nodup := fun t' => by simpa only [hI] using hs.id_nodup t'
    lt_autoIncrement := fun t' => by simpa only [hI] using hs.lt_autoIncrement t'
    inserted_rowLock := fun t' => by simpa only [hI] using hs.inserted_rowLock t'
    inserted_keyLock := fun t' => by simpa only [hI] using hs.inserted_keyLock t'
    keyLock_inserted := fun i t' => by simpa only [hI] using hs.keyLock_inserted i t'
    inserted_latest := fun t' => by simpa only [hI] using hs.inserted_latest t'
    unlocked := fun t' n => by simpa only [hO, hU] using hs.unlocked t' n
    locked := fun t' n => by simpa only [hI, hO] using hs.locked t' n
    replay := fun t' => by simpa only [hI, hO, hA] using hs.replay t'
    history := hs.history
    history_nil := hs.history_nil
    calls_seen := fun t' c hc' => by
      rcases eq_or_ne t' t with rfl | h
      · simpa [hi] using hc c (by simpa using hc')
      · simpa [setTxn_txns_of_ne h] using hs.calls_seen t' c (by simpa [setTxn_txns_of_ne h] using hc')
    history_seen := hs.history_seen }

theorem Inv.record {c : RoomCall} (hs : s.Inv) (ho : ∀ n, c.rowOp n = none)
    (hc : c.Seen (s.rooms ++ (s.txns t).inserted)) : (s.setTxn t ((s.txns t).record c)).Inv :=
  hs.setTxn rfl rfl (fun n => by simp [ho]) fun c' hc' => by
    rcases List.mem_append.mp hc' with h | h
    · exact hs.calls_seen t c' h
    · rw [List.mem_singleton.mp h]; exact hc

theorem Inv.bump (hs : s.Inv) : ({ s with autoIncrement := s.autoIncrement + 1 } : RoomSystem).Inv :=
  { hs with lt_autoIncrement := fun t r hr => Nat.lt_succ_of_lt (hs.lt_autoIncrement t r hr) }

theorem Inv.lockOp {n : Nat} {x : RoomTxn} (hs : s.Inv) (hf : Free (s.rowLocks n) t)
    (hn : n ∈ (s.rooms ++ (s.txns t).inserted).map (·.roomNID)) (hi : x.inserted = (s.txns t).inserted)
    (hu : ∀ m, m ≠ n → x.updated m = (s.txns t).updated m)
    (ho : ∀ m, m ≠ n → rowOps m x.calls = rowOps m (s.txns t).calls) (hne : rowOps n x.calls ≠ [])
    (hr : ∀ r ∈ s.rooms ++ x.inserted, r.roomNID = n →
      RowOp.replay r.latest (rowOps n x.calls) = some (x.apply r).latest)
    (hc : ∀ c ∈ x.calls, c.Seen (s.rooms ++ x.inserted)) : ((s.lockRow t n).setTxn t x).Inv := by
  have hI : ∀ t', (((s.lockRow t n).setTxn t x).txns t').inserted = (s.txns t').inserted := fun t' => by
    rcases eq_or_ne t' t with rfl | h <;> simp [setTxn_txns_of_ne, *]
  have hfree : ∀ t', t' ≠ t → s.rowLocks n ≠ some t' := fun t' h he => h (hf.eq_of_eq_some he)
  exact {
    nid_nodup := fun t' => by simpa only [hI] using hs.nid_nodup t'
    id_nodup := fun t' => by simpa only [hI] using hs.id_nodup t'
    lt_autoIncrement := fun t' => by simpa only [hI] using hs.lt_autoIncrement t'
    inserted_rowLock := fun t' r hr' => by
      rw [hI] at hr'
      have hold := hs.inserted_rowLock t' r hr'
      show Function.update s.rowLocks n (some t) r.roomNID = some t'
      rcases eq_or_ne r.roomNID n with he | he
      · rw [he] at hold
        rw [he, Function.update_same, hf.eq_of_eq_some hold]
      · rwa [Function.update_noteq he]
    inserted_keyLock := fun t' => by simpa only [hI] using hs.inserted_keyLock t'
    keyLock_inserted := fun i t' => by simpa only [hI] using hs.keyLock_inserted i t'
    inserted_latest := fun t' => by simpa only [hI] using hs.inserted_latest t'
    unlocked := fun t' m h => by
      change Function.update s.rowLocks n (some t) m ≠ some t' at h
      rcases eq_or_ne m n with rfl | hm
      · rw [Function.update_same] at h
        have ht : t' ≠ t := fun he => h (he ▸ rfl)
        rw [setTxn_txns_of_ne ht]
        exact hs.unlocked t' m (hfree t' ht)
      · rw [Function.update_noteq hm] at h
        rcases eq_or_ne t' t with rfl | ht
        · rw [setTxn_txns_self, ho m hm, hu m hm]
          exact hs.unlocked t' m h
        · rw [setTxn_txns_of_ne ht]
          exact hs.unlocked t' m h
    locked := fun t' m h => by
      change Function.update s.rowLocks n (some t) m = some t' at h
      rw [hI]
      rcases eq_or_ne m n with rfl | hm
      · rw [Function.update_same] at h
        cases h
        exact ⟨hn, .inr (by rwa [setTxn_txns_self])⟩
      · rw [Function.update_noteq hm] at h
        rcases eq_or_ne t' t with rfl | ht
        · rw [setTxn_txns_self, ho m hm]
          exact hs.locked t' m h
        · rw [setTxn_txns_of_ne ht]
          exact hs.locked t' m h
    replay := fun t' r hr' => by
      rcases eq_or_ne t' t with rfl | ht
      · rw [setTxn_txns_self]
        rw [setTxn_txns_self] at hr'
        rcases eq_or_ne r.roomNID n with he | he
        · rw [he]; exact hr r hr' he
        · have hap : x.apply r = (s.txns t').apply r := by
            simp only [RoomTxn.apply, hu _ he]
          rw [ho _ he, hap]
          exact hs.replay t' r (by rwa [← hi])
      · rw [setTxn_txns_of_ne ht] at hr' ⊢
        exact hs.replay t' r hr'
    history := hs.history
    history_nil := hs.history_nil
    calls_seen := fun t' c hc' => by
      rcases eq_or_ne t' t with rfl | h
      · rw [setTxn_txns_self] at hc' ⊢
        exact hc c hc'
      · rw [setTxn_txns_of_ne h] at hc' ⊢
        exact hs.calls_seen t' c hc'
    history_seen := hs.history_seen }

theorem Inv.insert {i v : String} (hs : s.Inv) (hk : Free (s.keyLocks i) t)
    (hc : ¬ insertConflicts s.autoIncrement i (s.view t)) :
    ({ s with
        autoIncrement := s.autoIncrement + 1
        rowLocks := Function.update s.rowLocks s.autoIncrement (some t)
        keyLocks := Function.update s.keyLocks i (some t)
        txns := Function.update s.txns t { s.txns t with
          inserted := (s.txns t).inserted ++ [newRoom s.autoIncrement i v] } } : RoomSystem).Inv := by
  have hfresh : ∀ t', s.autoIncrement ∉ (s.rooms ++ (s.txns t').inserted).map (·.roomNID) :=
    fun t' h => by
      obtain ⟨r, hr, he⟩ := List.mem_map.mp h
      exact absurd (hs.lt_autoIncrement t' r hr) (by omega)
  have hlock : ∀ t', s.rowLocks s.autoIncrement ≠ some t' := fun t' h =>
    hfresh t' (hs.locked t' _ h).1
  have hid : i ∉ (s.rooms ++ (s.txns t).inserted).map (·.roomID) := fun h =>
    hc (.inl (by rwa [view, RoomTxn.view_map_roomID]))
  set ρ := newRoom s.autoIncrement i v with hρ
  set T := Function.update s.txns t { s.txns t with inserted := (s.txns t).inserted ++ [ρ] } with hT
  have hTt : (T t).inserted = (s.txns t).inserted ++ [ρ] := by rw [hT, Function.update_same]
  have hcalls : ∀ t', (T t').calls = (s.txns t').calls := fun t' => by
    rcases eq_or_ne t' t with rfl | h <;> simp [hT, Function.update_noteq, *]
  have hupd : ∀ t', (T t').updated = (s.txns t').updated := fun t' => by
    rcases eq_or_ne t' t with rfl | h <;> simp [hT, Function.update_noteq, *]
  have happ : ∀ t', (T t').apply = (s.txns t').apply := fun t' => by
    funext r; simp only [RoomTxn.apply, hupd]
  have hmem : ∀ t' r, r ∈ (T t').inserted ↔ r ∈ (s.txns t').inserted ∨ (t' = t ∧ r = ρ) :=
    fun t' r => by rcases eq_or_ne t' t with rfl | h <;> simp [hT, Function.update_noteq, *]
  have hsub : ∀ t', (s.txns t').inserted ⊆ (T t').inserted := fun t' r hr => (hmem t' r).mpr (.inl hr)
  have hmem' : ∀ t' r, r ∈ s.rooms ++ (T t').inserted →
      r ∈ s.rooms ++ (s.txns t').inserted ∨ (t' = t ∧ r = ρ) := fun t' r hr => by
    rcases List.mem_append.mp hr with hr | hr
    · exact .inl (List.mem_append_left _ hr)
    · exact ((hmem t' r).mp hr).imp (List.mem_append_right _) id
  have hsub' : ∀ t', s.rooms ++ (s.txns t').inserted ⊆ s.rooms ++ (T t').inserted := fun t' =>
    List.append_subset.mpr ⟨List.subset_append_left _ _, (hsub t').trans (List.subset_append_right _ _)⟩
  exact {
    nid_nodup := fun t' => by
      show ((s.rooms ++ (T t').inserted).map _).Nodup
      rcases eq_or_ne t' t with rfl | h
      · rw [hTt, ← List.append_assoc]
        exact nodup_map_append_singleton (hs.nid_nodup t') (hfresh t')
      · rw [hT, Function.update_noteq h]; exact hs.nid_nodup t'
    id_nodup := fun t' => by
      show ((s.rooms ++ (T t').inserted).map _).Nodup
      rcases eq_or_ne t' t with rfl | h
      · rw [hTt, ← List.append_assoc]
        exact nodup_map_append_singleton (hs.id_nodup t') hid
      · rw [hT, Function.update_noteq h]; exact hs.id_nodup t'
    lt_autoIncrement := fun t' r hr => by
      rcases hmem' t' r hr with hr | ⟨-, rfl⟩
      · exact Nat.lt_succ_of_lt (hs.lt_autoIncrement t' r hr)
      · exact Nat.lt_succ_self _
    inserted_rowLock := fun t' r hr => by
      show Function.update s.rowLocks s.autoIncrement (some t) r.roomNID = some t'
      rcases (hmem t' r).mp hr with hr | ⟨rfl, rfl⟩
      · rw [Function.update_noteq fun he => hfresh t' (List.mem_map.mpr
          ⟨r, List.mem_append_right _ hr, he⟩)]
        exact hs.inserted_rowLock t' r hr
      · exact Function.update_same _ _ _
    inserted_keyLock := fun t' r hr => by
      show Function.update s.keyLocks i (some t) r.roomID = some t'
      rcases (hmem t' r).mp hr with hr | ⟨rfl, rfl⟩
      · have hold := hs.inserted_keyLock t' r hr
        rcases eq_or_ne r.roomID i with he | he
        · rw [he] at hold
          rw [he, Function.update_same, hk.eq_of_eq_some hold]
        · rwa [Function.update_noteq he]
      · exact Function.update_same _ _ _
    keyLock_inserted := fun k t' h => by
      change Function.update s.keyLocks i (some t) k = some t' at h
      rcases eq_or_ne k i with rfl | hk'
      · rw [Function.update_same] at h
        cases h
        exact List.mem_map.mpr ⟨ρ, (hmem t ρ).mpr (.inr ⟨rfl, rfl⟩), rfl⟩
      · rw [Function.update_noteq hk'] at h
        exact List.map_subset _ (hsub t') (hs.keyLock_inserted k t' h)
    inserted_latest := fun t' r hr => by
      rcases (hmem t' r).mp hr with hr | ⟨-, rfl⟩
      · exact hs.inserted_latest t' r hr
      · rfl
    unlocked := fun t' n h => by
      change Function.update s.rowLocks s.autoIncrement (some t) n ≠ some t' at h
      have hold : s.rowLocks n ≠ some t' := by
        rcases eq_or_ne n s.autoIncrement with rfl | hn
        · exact hlock t'
        · rwa [Function.update_noteq hn] at h
      rw [hcalls, hupd]
      exact hs.unlocked t' n hold
    locked := fun t' n h => by
      change Function.update s.rowLocks s.autoIncrement (some t) n = some t' at h
      rw [hcalls]
      rcases eq_or_ne n s.autoIncrement with rfl | hn
      · rw [Function.update_same] at h
        cases h
        have hρT : ρ ∈ (T t).inserted := (hmem t ρ).mpr (.inr ⟨rfl, rfl⟩)
        exact ⟨List.mem_map.mpr ⟨ρ, List.mem_append_right _ hρT, rfl⟩,
          .inl (List.mem_map.mpr ⟨ρ, hρT, rfl⟩)⟩
      · rw [Function.update_noteq hn] at h
        obtain ⟨h1, h2⟩ := hs.locked t' n h
        exact ⟨List.map_subset _ (hsub' t') h1, h2.imp (List.map_subset _ (hsub t') ·) id⟩
    replay := fun t' r hr => by
      rw [hcalls, happ]
      rcases hmem' t' r hr with hr | ⟨rfl, rfl⟩
      · exact hs.replay t' r hr
      · obtain ⟨ho, hu⟩ := hs.unlocked t' s.autoIncrement (hlock t')
        rw [RoomTxn.apply_of_updated_none hu]
        exact ho ▸ rfl
    history := hs.history
    history_nil := hs.history_nil
    calls_seen := fun t' c hc' => by
      rw [hcalls] at hc'
      exact (hs.calls_seen t' c hc').mono (List.map_subset _ (hsub' t'))
    history_seen := hs.history_seen }

theorem Inv.rollback (hs : s.Inv) : (s.endTxn t).Inv := by
  have hsub : ∀ t', List.Sublist (s.rooms ++ ((s.endTxn t).txns t').inserted)
      (s.rooms ++ (s.txns t').inserted) := fun t' => endTxn_inserted_sublist.append_left _
  exact {
    nid_nodup := fun t' => (hs.nid_nodup t').sublist ((hsub t').map _)
    id_nodup := fun t' => (hs.id_nodup t').sublist ((hsub t').map _)
    lt_autoIncrement := fun t' r hr => hs.lt_autoIncrement t' r ((hsub t').subset hr)
    inserted_rowLock := fun t' r hr =>
      have ⟨ht, hr⟩ := mem_endTxn_inserted.mp hr
      release_eq_some.mpr ⟨hs.inserted_rowLock t' r hr, ht⟩
    inserted_keyLock := fun t' r hr =>
      have ⟨ht, hr⟩ := mem_endTxn_inserted.mp hr
      release_eq_some.mpr ⟨hs.inserted_keyLock t' r hr, ht⟩
    keyLock_inserted := fun k t' h => by
      obtain ⟨hk, ht⟩ := release_eq_some.mp h
      rw [endTxn_txns_of_ne ht]; exact hs.keyLock_inserted k t' hk
    inserted_latest := fun t' r hr => hs.inserted_latest t' r (mem_endTxn_inserted.mp hr).2
    unlocked := fun t' n h => by
      rcases eq_or_ne t' t with rfl | ht
      · simp [RoomTxn.fresh]
      · rw [endTxn_txns_of_ne ht]
        exact hs.unlocked t' n fun hn => h (release_eq_some.mpr ⟨hn, ht⟩)
    locked := fun t' n h => by
      obtain ⟨hn, ht⟩ := release_eq_some.mp h
      rw [endTxn_rooms, endTxn_txns_of_ne ht]; exact hs.locked t' n hn
    replay := fun t' r hr => by
      rcases eq_or_ne t' t with rfl | ht
      · simp [rowOps, RowOp.replay]
      · rw [endTxn_txns_of_ne ht] at hr ⊢; exact hs.replay t' r hr
    history := hs.history
    history_nil := hs.history_nil
    calls_seen := fun t' c hc => by
      rcases eq_or_ne t' t with rfl | ht
      · simp at hc
      · rw [endTxn_txns_of_ne ht] at hc ⊢; exact hs.calls_seen t' c hc
    history_seen := hs.history_seen }

theorem Inv.replay_view {t' : Nat} {r : RoomRow} (hs : s.Inv) (ht : t' ≠ t)
    (hr : r ∈ s.rooms ++ (s.txns t).inserted) :
    RowOp.replay ((s.txns t).apply r).latest (rowOps r.roomNID (s.txns t').calls) =
      some ((s.txns t').apply ((s.txns t).apply r)).latest := by
  by_cases hl : s.rowLocks r.roomNID = some t'
  · have hno : s.rowLocks r.roomNID ≠ some t := fun he => ht (Option.some.inj (hl.symm.trans he))
    rw [RoomTxn.apply_of_updated_none (hs.unlocked t _ hno).2]
    refine hs.replay t' r (List.mem_append_left _ ?_)
    rcases List.mem_append.mp hr with h | h
    · exact h
    · exact absurd (hs.inserted_rowLock t r h) hno
  · obtain ⟨ho, hu⟩ := hs.unlocked t' _ hl
    rw [ho, @RoomTxn.apply_of_updated_none (s.txns t') ((s.txns t).apply r) (by simpa using hu)]
    rfl

theorem Inv.commit (hs : s.Inv) : (s.commitTxn t).Inv := by
  have hend : (s.endTxn t).Inv := hs.rollback
  have hVn : ((s.txns t).view s.rooms).map (·.roomNID) =
      (s.rooms ++ (s.txns t).inserted).map (·.roomNID) := RoomTxn.view_map_roomNID
  have hVi : ((s.txns t).view s.rooms).map (·.roomID) =
      (s.rooms ++ (s.txns t).inserted).map (·.roomID) := RoomTxn.view_map_roomID
  have hnids : s.rooms.map (·.roomNID) ⊆ (s.view t).map (·.roomNID) := by
    rw [view, hVn]; exact List.map_subset _ (List.subset_append_left _ _)
  have hidents : s.rooms.map RoomRow.ident ⊆ (s.view t).map RoomRow.ident := by
    rw [view, RoomTxn.view_map_ident]; exact List.map_subset _ (List.subset_append_left _ _)
  have hmemV : ∀ r ∈ s.view t, ∃ r₀ ∈ s.rooms ++ (s.txns t).inserted, (s.txns t).apply r₀ = r :=
    fun r hr => List.mem_map.mp hr
  exact { hend with
    nid_nodup := fun t' => by
      rw [commitTxn_rooms, commitTxn_txns, view, List.map_append, hVn, ← List.map_append]
      exact nodup_map_append_append (hs.nid_nodup t) (hend.nid_nodup t') fun a ha b hb =>
        have ⟨ht, hb⟩ := mem_endTxn_inserted.mp hb
        (hs.inserted_ne (Ne.symm ht) ha hb).1
    id_nodup := fun t' => by
      rw [commitTxn_rooms, commitTxn_txns, view, List.map_append, hVi, ← List.map_append]
      exact nodup_map_append_append (hs.id_nodup t) (hend.id_nodup t') fun a ha b hb =>
        have ⟨ht, hb⟩ := mem_endTxn_inserted.mp hb
        (hs.inserted_ne (Ne.symm ht) ha hb).2
    lt_autoIncrement := fun t' r hr => by
      rcases List.mem_append.mp hr with hr | hr
      · obtain ⟨r₀, hr₀, rfl⟩ := hmemV r hr
        rw [RoomTxn.apply_roomNID]; exact hs.lt_autoIncrement t r₀ hr₀
      · exact hend.lt_autoIncrement t' r (List.mem_append_right _ hr)
    locked := fun t' n h => (hend.locked t' n h).imp_left (map_append_subset _ hnids ·)
    replay := fun t' r hr => by
      rcases List.mem_append.mp hr with hr | hr
      · obtain ⟨r₀, hr₀, rfl⟩ := hmemV r hr
        rcases eq_or_ne t' t with rfl | ht
        · simp [rowOps, RowOp.replay]
        · rw [commitTxn_txns, endTxn_txns_of_ne ht, RoomTxn.apply_roomNID]
          exact hs.replay_view ht hr₀
      · exact hend.replay t' r (List.mem_append_right _ hr)
    history := fun r hr => by
      obtain ⟨r₀, hr₀, rfl⟩ := hmemV r hr
      rw [commitTxn_historyCalls, RoomTxn.apply_roomNID, rowOps_append, RowOp.replay_append]
      rcases List.mem_append.mp hr₀ with h | h
      · rw [hs.history r₀ h]
        exact hs.replay t r₀ hr₀
      · have hn : r₀.roomNID ∉ s.rooms.map (·.roomNID) := fun hn =>
          (List.nodup_append.mp (by simpa only [List.map_append] using hs.nid_nodup t)).2.2 hn
            (List.mem_map_of_mem _ h)
        rw [hs.history_nil _ hn, ← hs.inserted_latest t r₀ h]
        exact hs.replay t r₀ hr₀
    history_nil := fun n hn => by
      rw [commitTxn_rooms, view, hVn] at hn
      rw [commitTxn_historyCalls, rowOps_append,
        hs.history_nil n fun h => hn (List.map_subset _ (List.subset_append_left _ _) h)]
      by_cases hl : s.rowLocks n = some t
      · exact absurd (hs.locked t n hl).1 hn
      · exact (hs.unlocked t n hl).1
    calls_seen := fun t' c hc => (hend.calls_seen t' c hc).mono (map_append_subset _ hidents)
    history_seen := fun c hc => by
      rw [commitTxn_historyCalls, List.mem_append] at hc
      rw [commitTxn_rooms]
      rcases hc with hc | hc
      · exact (hs.history_seen c hc).mono hidents
      · exact (hs.calls_seen t c hc).mono
          (by rw [view, RoomTxn.view_map_ident]; exact List.Subset.refl _) }

theorem Inv.versionByNID {c n : Nat} (hs : s.Inv) :
    ({ s with history := s.history ++
      [(c, [.selectRoomVersionForRoomNID n (selectRoomVersionForRoomNID n s.rooms)])] } :
      RoomSystem).Inv := by
  have hops : ∀ m, rowOps m (({ s with history := s.history ++
      [(c, [.selectRoomVersionForRoomNID n (selectRoomVersionForRoomNID n s.rooms)])] } :
      RoomSystem).historyCalls) = rowOps m s.historyCalls := fun m => by
    simp [historyCalls, RoomCall.rowOp]
  refine { hs with
    history := fun r hr => by rw [hops]; exact hs.history r hr
    history_nil := fun m hm => by rw [hops]; exact hs.history_nil m hm
    history_seen := fun c' hc => ?_ }
  simp only [historyCalls, List.flatMap_append, List.flatMap_cons, List.flatMap_nil,
    List.append_nil, List.mem_append, List.mem_singleton] at hc
  rcases hc with hc | rfl
  · exact hs.history_seen c' hc
  · rcases h : selectRoomVersionForRoomNID n s.rooms with e | v
    · trivial
    · obtain ⟨r, hr, hn, rfl⟩ := scanRow_find?_ok (roomNotFound_eq_ok.mp h)
      exact ⟨r.roomID, List.mem_map.mpr ⟨r, hr, by simp [RoomRow.ident, beq_iff_eq.mp hn]⟩⟩

theorem seen_selectRoomNID (x : RoomTxn) (rooms : List RoomRow) (i : String) :
    (RoomCall.selectRoomNID i (selectRoomNIDSQL i (x.view rooms))).Seen (rooms ++ x.inserted) := by
  rcases h : selectRoomNIDSQL i (x.view rooms) with e | n
  · trivial
  · obtain ⟨r, hr, hi, rfl⟩ := scanRow_find?_ok h
    refine ⟨r.roomVersion, ?_⟩
    rw [← RoomTxn.view_map_ident]
    exact List.mem_map.mpr ⟨r, hr, by simp [RoomRow.ident, beq_iff_eq.mp hi]⟩

theorem seen_selectRoomVersionForRoomID (x : RoomTxn) (rooms : List RoomRow) (i : String) :
    (RoomCall.selectRoomVersionForRoomID i (selectRoomVersionForRoomID i (x.view rooms))).Seen
      (rooms ++ x.inserted) := by
  rcases h : selectRoomVersionForRoomID i (x.view rooms) with e | v
  · trivial
  · obtain ⟨r, hr, hi, rfl⟩ := scanRow_find?_ok (roomNotFound_eq_ok.mp h)
    refine ⟨r.roomNID, ?_⟩
    rw [← RoomTxn.view_map_ident]
    exact List.mem_map.mpr ⟨r, hr, by simp [RoomRow.ident, beq_iff_eq.mp hi]⟩

theorem find?_view {n : Nat} {r : RoomRow} (hs : s.Inv) (hr : r ∈ s.rooms ++ (s.txns t).inserted)
    (hn : r.roomNID = n) : (s.view t).find? (·.roomNID == n) = some ((s.txns t).apply r) := by
  subst hn
  have h : (s.view t).find? (·.roomNID == ((s.txns t).apply r).roomNID) =
      some ((s.txns t).apply r) :=
    find?_key (by rw [view, RoomTxn.view_map_roomNID]; exact hs.nid_nodup t) (List.mem_map_of_mem _ hr)
  rwa [RoomTxn.apply_roomNID] at h

theorem Inv.forUpdate {n : Nat} (hs : s.Inv) (hf : Free (s.rowLocks n) t)
    (hn : n ∈ (s.view t).map (·.roomNID)) :
    ((s.lockRow t n).setTxn t ((s.txns t).record (.selectLatestEventsNIDsForUpdate n
      (selectLatestEventNIDsForUpdateSQL n (s.view t))))).Inv := by
  rw [view, RoomTxn.view_map_roomNID] at hn
  obtain ⟨ρ, hρ, rfl⟩ := List.mem_map.mp hn
  have hres : selectLatestEventNIDsForUpdateSQL ρ.roomNID (s.view t) =
      .ok ((s.txns t).apply ρ).latest := by
    simp [selectLatestEventNIDsForUpdateSQL, find?_view hs hρ rfl, scanRow]
  rw [hres]
  refine hs.lockOp hf hn rfl (fun _ _ => rfl) (fun m hm => by simp [RoomCall.rowOp, Ne.symm hm])
    (by simp [RoomCall.rowOp]) (fun r hr he => ?_) (fun c hc => ?_)
  · have := (List.inj_on_of_nodup_map (hs.nid_nodup t)) hr hρ he
    subst this
    simp [RoomCall.rowOp, RowOp.replay_append, hs.replay t r hr, RowOp.replay]
  · rcases List.mem_append.mp hc with hc | hc
    · exact hs.calls_seen t c hc
    · rw [List.mem_singleton.mp hc]; trivial

theorem Inv.update {n : Nat} {v : LatestEvents} (hs : s.Inv) (hf : Free (s.rowLocks n) t)
    (hn : n ∈ (s.view t).map (·.roomNID)) :
    ((s.lockRow t n).setTxn t { (s.txns t).record (.updateLatestEventNIDs n v) with
      updated := Function.update (s.txns t).updated n (some v) }).Inv := by
  rw [view, RoomTxn.view_map_roomNID] at hn
  refine hs.lockOp hf hn rfl (fun m hm => Function.update_noteq hm _ _)
    (fun m hm => by simp [RoomCall.rowOp, Ne.symm hm]) (by simp [RoomCall.rowOp])
    (fun r hr he => ?_) (fun c hc => ?_)
  · subst he
    simp [RoomCall.rowOp, RowOp.replay_append, hs.replay t r hr, RowOp.replay, RoomTxn.apply]
  · rcases List.mem_append.mp hc with hc | hc
    · exact hs.calls_seen t c hc
    · rw [List.mem_singleton.mp hc]; trivial

theorem Inv.step {a : RoomAction} {s' : RoomSystem} (hs : s.Inv) (h : s.step a = some s') :
    s'.Inv := by
  cases a with
  | insertRoomNIDStmt t i v =>
    simp only [RoomSystem.step] at h
    split_ifs at h with hk hc <;> cases h
    · exact hs.bump
    · exact hs.insert hk hc
  | selectRoomNIDStmt t i =>
    cases h; exact hs.record (fun _ => rfl) (seen_selectRoomNID _ _ _)
  | selectLatestEventNIDsStmt t n => cases h; exact hs.record (fun _ => rfl) trivial
  | selectLatestEventNIDsForUpdateStmt t n =>
    simp only [RoomSystem.step] at h
    split_ifs at h with hf hn <;> cases h
    · exact hs.forUpdate hf hn
    · refine hs.record (fun m => ?_) trivial
      rw [view, RoomTxn.view_map_roomNID] at hn
      have : selectLatestEventNIDsForUpdateSQL n (s.view t) = .error .errNoRows := by
        rw [selectLatestEventNIDsForUpdateSQL, List.find?_eq_none.mpr fun r hr he => hn ?_]
        · rfl
        · rw [← beq_iff_eq.mp he, ← RoomTxn.view_map_roomNID]; exact List.mem_map_of_mem _ hr
      rw [this]; rfl
  | updateLatestEventNIDsStmt t n v =>
    simp only [RoomSystem.step] at h
    split_ifs at h with hf hn <;> cases h
    · exact hs.update hf hn
    · exact hs
  | selectRoomVersionForRoomIDStmt t i =>
    cases h; exact hs.record (fun _ => rfl) (seen_selectRoomVersionForRoomID _ _ _)
  | selectRoomVersionForRoomNIDStmt c n => cases h; exact hs.versionByNID
  | commit t => cases h; exact hs.commit
  | rollback t => cases h; exact hs.rollback

theorem Inv.run (hs : s.Inv) (as : List RoomAction) : (s.run as).Inv := by
  induction as generalizing s with
  | nil => exact hs
  | cons a as ih =>
    apply ih
    cases h : s.step a with
    | none => exact hs
    | some s' => exact hs.step h

theorem Inv.view_step_insert {i v : String} {s' : RoomSystem} (hs : s.Inv)
    (h : s.step (.insertRoomNIDStmt t i v) = some s') :
    s'.view t = insertRoomNIDSQL s.autoIncrement i v (s.view t) := by
  simp only [RoomSystem.step] at h
  split_ifs at h with hk hc <;> cases h
  · exact (if_pos hc).symm
  · rw [insertRoomNIDSQL, if_neg hc]
    have hfree : s.rowLocks s.autoIncrement ≠ some t := fun hl => by
      obtain ⟨r, hr, he⟩ := List.mem_map.mp (hs.locked t _ hl).1
      exact absurd (hs.lt_autoIncrement t r hr) (by omega)
    simp only [view, Function.update_same]
    show (s.rooms ++ ((s.txns t).inserted ++ [newRoom s.autoIncrement i v])).map (s.txns t).apply = _
    rw [← List.append_assoc, List.map_append, List.map_singleton,
      @RoomTxn.apply_of_updated_none (s.txns t) (newRoom s.autoIncrement i v)
        (hs.unlocked t _ hfree).2]
    rfl

theorem inv_run (as : List RoomAction) : (init.run as).Inv := inv_init.run as

theorem view_setTxn {x : RoomTxn} (hi : x.inserted = (s.txns t).inserted)
    (hu : x.updated = (s.txns t).updated) (t' : Nat) : (s.setTxn t x).view t' = s.view t' := by
  rcases eq_or_ne t' t with rfl | h
  · simp only [view, setTxn_txns_self, setTxn_rooms, RoomTxn.view, hi]
    exact List.map_congr_left fun r _ => by simp only [RoomTxn.apply, hu]
  · simp only [view, setTxn_txns_of_ne h, setTxn_rooms]

theorem statements_act_on_view (acts : List RoomAction) (a : RoomAction) (t : Nat)
    (s' : RoomSystem) (ht : a.stmtTxn = some t) (h : (init.run acts).step a = some s') :
    s'.view t = a.onRows (init.run acts).autoIncrement ((init.run acts).view t) ∧
      ∀ t', t' ≠ t → s'.view t' = (init.run acts).view t' := by
  have hs := inv_run acts
  cases a <;> simp only [RoomAction.stmtTxn, Option.some.injEq, reduceCtorEq] at ht <;> subst ht
  case insertRoomNIDStmt i v =>
    refine ⟨hs.view_step_insert h, fun t' ht' => ?_⟩
    simp only [step] at h
    split_ifs at h <;> cases h
    · rfl
    · simp only [view, Function.update_noteq ht']
  case updateLatestEventNIDsStmt n v =>
    refine ⟨view_step_update h, fun t' ht' => ?_⟩
    simp only [step] at h
    split_ifs at h <;> cases h
    · simp only [view, setTxn_txns_of_ne ht', setTxn_rooms, lockRow_txns, lockRow_rooms]
    · rfl
  all_goals
    simp only [step] at h
    (try split_ifs at h) <;> cases h <;>
      exact ⟨by apply view_setTxn <;> rfl, fun t' _ => by apply view_setTxn <;> rfl⟩

theorem statements_act_on_view_insert :
    ∃ s', init.step (.insertRoomNIDStmt 1 "!r" "5") = some s' ∧
      s'.view 1 = [newRoom 1 "!r" "5"] ∧ s'.view 2 = [] := by
  obtain ⟨h1, h2⟩ := statements_act_on_view [] (.insertRoomNIDStmt 1 "!r" "5") 1 _ rfl rfl
  exact ⟨_, rfl, h1.trans (by decide), (h2 2 (by decide)).trans rfl⟩

theorem uncommitted_changes_disjoint (acts : List RoomAction) :
    (∀ t t', t ≠ t' →
      (∀ r ∈ ((init.run acts).txns t).inserted, ∀ r' ∈ ((init.run acts).txns t').inserted,
        r.roomNID ≠ r'.roomNID ∧ r.roomID ≠ r'.roomID) ∧
      ∀ n, (rowOps n ((init.run acts).txns t).calls = [] ∧ ((init.run acts).txns t).updated n = none) ∨
        (rowOps n ((init.run acts).txns t').calls = [] ∧ ((init.run acts).txns t').updated n = none)) ∧
    ∀ t, (((init.run acts).view t).map (·.roomNID)).Nodup ∧
      (((init.run acts).view t).map (·.roomID)).Nodup ∧
      ∀ r ∈ (init.run acts).view t, r.roomNID < (init.run acts).autoIncrement := by
  have hs := inv_run acts
  refine ⟨fun t t' h => ⟨fun r hr r' hr' => hs.inserted_ne h hr hr', fun n => ?_⟩,
    fun t => ⟨?_, ?_, fun r hr => ?_⟩⟩
  · by_cases hl : (init.run acts).rowLocks n = some t
    · exact .inr (hs.unlocked t' n fun hl' => h (Option.some.inj (hl.symm.trans hl')))
    · exact .inl (hs.unlocked t n hl)
  · rw [view, RoomTxn.view_map_roomNID]
    exact hs.nid_nodup t
  · rw [view, RoomTxn.view_map_roomID]
    exact hs.id_nodup t
  · obtain ⟨r₀, hr₀, rfl⟩ := List.mem_map.mp hr
    rw [RoomTxn.apply_roomNID]
    exact hs.lt_autoIncrement t r₀ hr₀

end RoomSystem

end Dendrite.RoomServer

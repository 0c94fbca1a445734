import Dendrite.SQL
import Mathlib.Data.List.Basic

/-! `GetEvent`, the handler of `GET /rooms/{roomID}/event/{eventID}`
(`clientapi/routing/getevent.go`), over any answers the room server gives. -/

namespace Dendrite.ClientAPI

structure Event where
  eventID : String
  roomID : String
  type : String
  stateKey : Option String
  prevEventIDs : List String
  /-- The content's `membership` key as `Membership()` decodes it into a `*string`: `none` when it
  is absent, an error when the content does not decode. -/
  contentMembership : Except String (Option String)
  deriving DecidableEq, Repr

def Event.stateKeyEquals (e : Event) (stateKey : String) : Bool :=
  e.stateKey == some stateKey

def Event.membership (e : Event) : Except String String :=
  if e.type = "m.room.member" then
    match e.contentMembership with
    | .ok (some membership) => .ok membership
    | .ok none => .error "gomatrixserverlib: missing membership key"
    | .error err => .error err
  else .error "gomatrixserverlib: not an m.room.member event"

structure Device where
  userID : String

structure QueryStateAfterEventsRequest where
  roomID : String
  prevEventIDs : List String
  stateToFetch : List (String × String)

structure QueryStateAfterEventsResponse where
  roomExists : Bool
  prevEventsExist : Bool
  stateEvents : List Event

/-- The two queries of `api.RoomserverInternalAPI` the handler makes, answered as the room server
answers them; `.error` is the `error` a query returns. -/
structure RoomserverAPI where
  queryEventsByID : List String → Except String (List Event)
  queryStateAfterEvents :
    QueryStateAfterEventsRequest → Except String QueryStateAfterEventsResponse

inductive Response
  | ok (event : Event)
  | notFound (message : String)
  | internalServerError
  deriving DecidableEq, Repr

def Response.code : Response → Nat
  | .ok _ => 200
  | .notFound _ => 404
  | .internalServerError => 500

def notFoundMessage : String :=
  "The event was not found or you do not have permission to read this event"

def membershipLoop (userID : String) (requestedEvent : Event) : List Event → Response
  | [] => .notFound notFoundMessage
  | stateEvent :: stateEvents =>
    if stateEvent.stateKeyEquals userID then
      match stateEvent.membership with
      | .error _ => .internalServerError
      | .ok membership =>
        if membership = "join" then .ok requestedEvent
        else membershipLoop userID requestedEvent stateEvents
    else membershipLoop userID requestedEvent stateEvents

/-- `GetEvent`. The body never reads the path's `roomID`. -/
def getEvent (device : Device) (roomID eventID : String) (rsAPI : RoomserverAPI) : Response :=
  match rsAPI.queryEventsByID [eventID] with
  | .error _ => .internalServerError
  | .ok [] => .notFound notFoundMessage
  | .ok (requestedEvent :: _) =>
    match rsAPI.queryStateAfterEvents
        ⟨requestedEvent.roomID, requestedEvent.prevEventIDs, [("m.room.member", device.userID)]⟩ with
    | .error _ => .internalServerError
    | .ok stateResp =>
      if !stateResp.roomExists then .internalServerError
      else if !stateResp.prevEventsExist then .notFound notFoundMessage
      else membershipLoop device.userID requestedEvent stateResp.stateEvents

def JoinedIn (userID : String) (stateEvents : List Event) : Prop :=
  ∃ e ∈ stateEvents, e.stateKey = some userID ∧ e.type = "m.room.member" ∧
    e.contentMembership = .ok (some "join")

theorem Event.membership_eq_ok {e : Event} {m : String} :
    e.membership = .ok m ↔ e.type = "m.room.member" ∧ e.contentMembership = .ok (some m) := by
  unfold Event.membership
  split_ifs with ht
  · split <;> simp_all
  · simp [ht]

theorem membershipLoop_ok {userID : String} {requestedEvent ev : Event} :
    ∀ {stateEvents : List Event}, membershipLoop userID requestedEvent stateEvents = .ok ev →
      ev = requestedEvent ∧ JoinedIn userID stateEvents
  | [], h => by cases h
  | e :: stateEvents, h => by
    have step : ev = requestedEvent ∧ JoinedIn userID stateEvents →
        ev = requestedEvent ∧ JoinedIn userID (e :: stateEvents) :=
      fun ⟨hev, e', he', hj⟩ => ⟨hev, e', List.mem_cons_of_mem _ he', hj⟩
    rw [membershipLoop] at h
    by_cases hk : e.stateKeyEquals userID
    · rw [if_pos hk] at h
      cases hm : e.membership with
      | error _ => simp [hm] at h
      | ok m =>
        simp only [hm] at h
        by_cases hj : m = "join"
        · rw [if_pos hj] at h
          cases h
          exact ⟨rfl, e, List.mem_cons_self _ _, by simpa [Event.stateKeyEquals] using hk,
            Event.membership_eq_ok.mp (hj ▸ hm)⟩
        · rw [if_neg hj] at h
          exact step (membershipLoop_ok h)
    · rw [if_neg hk] at h
      exact step (membershipLoop_ok h)

theorem getEvent_ok {device : Device} {roomID eventID : String} {rsAPI : RoomserverAPI}
    {ev : Event} (h : getEvent device roomID eventID rsAPI = .ok ev) :
    ∃ rest stateResp, rsAPI.queryEventsByID [eventID] = .ok (ev :: rest) ∧
      rsAPI.queryStateAfterEvents ⟨ev.roomID, ev.prevEventIDs, [("m.room.member", device.userID)]⟩ =
        .ok stateResp ∧
      stateResp.roomExists ∧ stateResp.prevEventsExist ∧ JoinedIn device.userID stateResp.stateEvents := by
  unfold getEvent at h
  split at h
  · cases h
  · cases h
  · rename_i requestedEvent rest hq
    split at h
    · cases h
    · rename_i stateResp hs
      split_ifs at h with he hp
      obtain ⟨rfl, hj⟩ := membershipLoop_ok h
      exact ⟨rest, stateResp, hq, hs, by simpa using he, by simpa using hp, hj⟩

theorem getEvent_room_unchecked (device : Device) (roomID eventID : String) :
    (∀ rsAPI ev, getEvent device roomID eventID rsAPI = .ok ev →
      ∃ rest stateResp, rsAPI.queryEventsByID [eventID] = .ok (ev :: rest) ∧
        rsAPI.queryStateAfterEvents ⟨ev.roomID, ev.prevEventIDs, [("m.room.member", device.userID)]⟩ =
          .ok stateResp ∧
        stateResp.roomExists ∧ stateResp.prevEventsExist ∧
        JoinedIn device.userID stateResp.stateEvents) ∧
    ∃ rsAPI ev, getEvent device roomID eventID rsAPI = .ok ev ∧ ev.roomID ≠ roomID := by
  refine ⟨fun _ _ => getEvent_ok, ?_⟩
  let other := if roomID = "!b" then "!c" else "!b"
  have hother : other ≠ roomID := by
    by_cases h : roomID = "!b"
    · simp only [other, if_pos h, h]
      decide
    · simp only [other, if_neg h]
      exact fun e => h e.symm
  let ev : Event := ⟨eventID, other, "m.room.message", none, [], .ok none⟩
  let member : Event := ⟨"$m", other, "m.room.member", some device.userID, [], .ok (some "join")⟩
  refine ⟨⟨fun _ => .ok [ev], fun _ => .ok ⟨true, true, [member]⟩⟩, ev, ?_, hother⟩
  simp [getEvent, membershipLoop, Event.stateKeyEquals, Event.membership, member]

theorem membershipLoop_of_joined {userID : String} {requestedEvent : Event} :
    ∀ {stateEvents : List Event},
      (∀ e ∈ stateEvents, e.stateKey = some userID → ∃ m, e.membership = .ok m) →
      JoinedIn userID stateEvents →
      membershipLoop userID requestedEvent stateEvents = .ok requestedEvent
  | [], _, ⟨_, he, _⟩ => absurd he (List.not_mem_nil _)
  | e :: stateEvents, hwf, ⟨e', he', hk, ht, hm⟩ => by
    have hwf' := fun e'' h => hwf e'' (List.mem_cons_of_mem _ h)
    have hjoin : e'.membership = .ok "join" := Event.membership_eq_ok.mpr ⟨ht, hm⟩
    rw [membershipLoop]
    by_cases hk' : e.stateKeyEquals userID
    · obtain ⟨m, hmem⟩ := hwf e (List.mem_cons_self _ _) (by simpa [Event.stateKeyEquals] using hk')
      simp only [if_pos hk', hmem]
      by_cases hj : m = "join"
      · rw [if_pos hj]
      · rw [if_neg hj]
        refine membershipLoop_of_joined hwf' ⟨e', ?_, hk, ht, hm⟩
        rcases List.mem_cons.mp he' with rfl | h
        · exact absurd (Except.ok.inj (hmem.symm.trans hjoin)) hj
        · exact h
    · rw [if_neg hk']
      refine membershipLoop_of_joined hwf' ⟨e', ?_, hk, ht, hm⟩
      rcases List.mem_cons.mp he' with rfl | h
      · exact absurd (by simp [Event.stateKeyEquals, hk]) hk'
      · exact h

theorem getEvent_joined {device : Device} {roomID eventID : String} {rsAPI : RoomserverAPI}
    {ev : Event} {rest : List Event} {stateResp : QueryStateAfterEventsResponse}
    (hq : rsAPI.queryEventsByID [eventID] = .ok (ev :: rest))
    (hs : rsAPI.queryStateAfterEvents
      ⟨ev.roomID, ev.prevEventIDs, [("m.room.member", device.userID)]⟩ = .ok stateResp)
    (hr : stateResp.roomExists) (hp : stateResp.prevEventsExist)
    (hwf : ∀ e ∈ stateResp.stateEvents, e.stateKey = some device.userID →
      ∃ m, e.membership = .ok m)
    (hj : JoinedIn device.userID stateResp.stateEvents) :
    getEvent device roomID eventID rsAPI = .ok ev := by
  simp only [getEvent, hq, hs, hr, hp, Bool.not_true, Bool.false_eq_true, if_false]
  exact membershipLoop_of_joined hwf hj

theorem getEvent_joined_alice :
    getEvent ⟨"@alice:localhost"⟩ "!a" "$e"
      ⟨fun _ => .ok [⟨"$e", "!a", "m.room.message", none, [], .ok none⟩],
        fun _ => .ok ⟨true, true,
          [⟨"$m", "!a", "m.room.member", some "@alice:localhost", [], .ok (some "join")⟩]⟩⟩ =
      .ok ⟨"$e", "!a", "m.room.message", none, [], .ok none⟩ :=
  getEvent_joined rfl rfl rfl rfl
    (fun e he _ => ⟨"join", by rw [List.mem_singleton.mp he]; rfl⟩)
    ⟨_, List.mem_singleton_self _, rfl, rfl, rfl⟩

end Dendrite.ClientAPI

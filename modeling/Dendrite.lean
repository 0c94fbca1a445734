import Dendrite.SQL
import Dendrite.SyncAPI.StreamID
import Dendrite.SyncAPI.OutputRoomEvents
import Dendrite.SyncAPI.Log
import Dendrite.SyncAPI.StateInRange
import Dendrite.SyncAPI.Readers
import Dendrite.SyncAPI.ReadersOnLog
import Dendrite.SyncAPI.Transactions
import Dendrite.AppService.TxnIDCounter
import Dendrite.RoomServer.Rooms
import Dendrite.RoomServer.Transactions
import Dendrite.RoomServer.Invariant
import Dendrite.RoomServer.LatestEvents
import Dendrite.RoomServer.RoomNIDs
import Dendrite.RoomServer.Int64Array
import Dendrite.RoomServer.StateSnapshots
import Dendrite.ClientAPI.GetEvent
import Dendrite.Storage

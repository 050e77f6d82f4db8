import Aquic.Backend.Directions
import Aquic.Backend.OpenSend
import Aquic.Backend.Order
import Aquic.Backend.Quiche.Admission
import Aquic.Backend.Quiche.Attended
import Aquic.Backend.Quiche.Drained
import Aquic.Backend.Quiche.Exhausted
import Aquic.Backend.Quiche.Routing
import Aquic.Backend.Quiche.Timers
import Aquic.Backend.Quinn.Attended
import Aquic.Backend.Quinn.Cid
import Aquic.Backend.Quinn.Exchange
import Aquic.Backend.Quinn.Pending
import Aquic.Backend.Quinn.Responses
import Aquic.Backend.Quinn.Stale
import Aquic.Backend.Quinn.Transmits
import Aquic.Backend.Quinn.Writing
import Aquic.Backend.Token.ResetBuffer
import Aquic.Backend.Token.Verify
import Aquic.Backend.WakeUps
import Aquic.Dgram.Incoming
import Aquic.Dgram.Outgoing
import Aquic.Direction.Cancel
import Aquic.Direction.Closing
import Aquic.Net.Flatten
import Aquic.Stream.EndToEnd
import Aquic.Sync.Finish
import Aquic.Sync.Guards
import Aquic.Sync.Listeners
import Aquic.Sync.Oneshot.Mt
import Aquic.Sync.Rpc.Mt
import Aquic.Sync.Rpc.St
import Aquic.Sync.Unbounded
import Aquic.Sync.Watch.Mt
import Aquic.Sync.Weighted.Closing
import Aquic.Sync.Weighted.Exact
import Aquic.Sync.Weighted.Waking
import Aquic.Util.BipBuffer.Checked
import Aquic.Util.BipBuffer.Contents
import Aquic.Util.BipBuffer.Release
import Aquic.Util.Rotation
import Aquic.Util.Timer.Delivery
import Aquic.Util.Timer.NeverEarly
import Aquic.Util.Timer.Revolution

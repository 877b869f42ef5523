import Mothra.Types
import Mothra.Rpc
import Mothra.Behaviour
import Mothra.Dispatch
import Mothra.Poll
import Mothra.Run
import Mothra.Steps
import Mothra.Sends
import Mothra.Disconnect
import Mothra.Events
import Mothra.Work
import Mothra.Drain
import Mothra.RpcLoop
import Mothra.Subscriptions
import Mothra.Lru
import Mothra.Wrapper

import PeekLock.Main
import PeekLock.Pool.Drill
import PeekLock.Proofs.AcceptedSends
import PeekLock.Proofs.Amqp
import PeekLock.Proofs.Batches
import PeekLock.Proofs.Bodies
import PeekLock.Proofs.Broker.Closing
import PeekLock.Proofs.Broker.Deliveries
import PeekLock.Proofs.Broker.Fanout
import PeekLock.Proofs.Broker.Lapses
import PeekLock.Proofs.Broker.SingleUse
import PeekLock.Proofs.Broker.Waking
import PeekLock.Proofs.Consumer.Acknowledgements
import PeekLock.Proofs.Consumer.Draining
import PeekLock.Proofs.Consumer.Headcount
import PeekLock.Proofs.Consumer.Interruptions
import PeekLock.Proofs.Consumer.Lifecycle
import PeekLock.Proofs.Consumer.Receives
import PeekLock.Proofs.Consumer.Shifts
import PeekLock.Proofs.EntityPath
import PeekLock.Proofs.FailedSettlements
import PeekLock.Proofs.Pool.Shutdowns
import PeekLock.Proofs.Remote.Closings
import PeekLock.Proofs.Remote.LaneCount
import PeekLock.Proofs.Remote.Queues
import PeekLock.Proofs.Remote.Routing
import PeekLock.Proofs.Retry.Conduct
import PeekLock.Proofs.Service.EndToEnd
import PeekLock.Proofs.Service.Tallies
import PeekLock.Proofs.Settings.Limits
import PeekLock.Proofs.Settings.Precedence
import PeekLock.Settings.FromJson

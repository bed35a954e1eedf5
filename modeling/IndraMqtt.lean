import IndraMqtt.Connectors.BatchQueue
import IndraMqtt.Kernel.SubackCodes
import IndraMqtt.Session.OtherKeys
import IndraMqtt.Session.Aliases
import IndraMqtt.Kernel.PublishGuard
import IndraMqtt.Kernel.ExactlyOnce
import IndraMqtt.Kernel.Takeover
import IndraMqtt.Kernel.LastWill
import IndraMqtt.Kernel.Survival
import IndraMqtt.Kernel.ReceiveMaximum
import IndraMqtt.Kernel.TenantAssignment
import IndraMqtt.Link.BindDecoding
import IndraMqtt.Kernel.ConnectionSlots
import IndraMqtt.Storage.QueueHistory
import IndraMqtt.Kernel.TenantIsolation
import IndraMqtt.Edge.Rebinding
import IndraMqtt.Edge.Holding
import IndraMqtt.Kernel.SubscriptionEntries
import IndraMqtt.Native.Inbound
import IndraMqtt.Storage.StreamSeek
import IndraMqtt.Delayed.Ids
import IndraMqtt.Cluster.Ceiling
import IndraMqtt.Cluster.Probes
import IndraMqtt.Cluster.Routes
import IndraMqtt.Rules.SqlText
import IndraMqtt.Rules.Windows
import IndraMqtt.Router.ConnTable
import IndraMqtt.Delayed.Fired
import IndraMqtt.Transport.Order
import IndraMqtt.Session.Unacked
import IndraMqtt.Router.Count
import IndraMqtt.Router.Fairness

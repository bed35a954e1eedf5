import IndraMqtt.Auth.Tenants
import IndraMqtt.Router.Prefixes
import IndraMqtt.Router.Trie
import IndraMqtt.Session.Manager

/-! The state that the broker node shares between connections, the frames it
sends, and what it reads from outside while it handles one frame. -/
namespace IndraMqtt.Kernel

open Protocol Sessions Routing

/-- The version 5 publish properties that travel with a delivery. User properties
are valid UTF-8 from the decoder on. -/
structure PublishV5Props where
  format : Nat
  expiry : Nat
  users : List (Str × Str)
  deriving DecidableEq

namespace PublishV5Props

def empty : PublishV5Props := ⟨0, 0, []⟩

def isEmpty (props : PublishV5Props) : Bool :=
  props.format == 0 && props.expiry == 0 && props.users.isEmpty

end PublishV5Props

structure PublishOut where
  topic : Topic
  packetId : UInt16
  qos : QoS
  retain : Bool
  dup : Bool
  topicAlias : Nat
  subscriptionId : Nat
  props : PublishV5Props
  payload : Payload
  deriving DecidableEq

structure SessionBindingV5 where
  grantedExpiry : Nat
  serverRecvMax : Nat
  serverMaxPkt : Nat
  reason : String
  userProperties : List (Str × Str)
  deriving DecidableEq

/-- What the kernel puts into a mailbox or answers on the same transport. -/
inductive OutFrame where
  | publishOut (message : PublishOut)
  | pubAckOut (packetId : UInt16) (returnCode : UInt8)
  | pubRecOut (packetId : UInt16) (reasonCode : UInt8)
  | pubRelOut (packetId : UInt16)
  | pubCompOut (packetId : UInt16)
  | subAckOut (packetId : UInt16) (codes : List UInt8)
  | sessionBinding (sessionId : Nat) (present : Bool) (returnCode : UInt8)
      (topicAliasMaximum : Nat) (v5 : Option SessionBindingV5)
  | connClose (reasonCode : UInt8)
  deriving DecidableEq

/-- `BrokerFrame::new`: the length field of the metadata has 16 bits and that of
the payload 32. -/
def newFrame (metaLength payloadLength : Nat) (frame : OutFrame) : Option OutFrame :=
  if metaLength ≤ 65535 ∧ payloadLength ≤ 4294967295 then some frame else none

/-- The metadata length of a `PublishOut` frame in its first form, which the
replays write: topic, packet id, QoS, retain and dup. -/
def plainMetaLength (topic : Topic) : Nat := Str.len topic.text + 7

def aliasMetaLength (topic : Topic) : Nat := Str.len topic.text + 9

def maxPublishV5Users : Nat := 16
def maxPublishV5String : Nat := 1024

/-- The checks of `encode_publish_out_full_with_props` on the properties; one
that fails sends the message without any. -/
def PublishV5Props.encodable (props : PublishV5Props) : Bool :=
  props.format ≤ 1 && props.users.length ≤ maxPublishV5Users &&
    props.users.all fun user =>
      !user.1.isEmpty && user.1.len ≤ maxPublishV5String && user.2.len ≤ maxPublishV5String

def userBytes : List (Str × Str) → Nat
  | [] => 0
  | user :: users => user.1.len + user.2.len + 4 + userBytes users

def encodePublishOut (message : PublishOut) : Option OutFrame :=
  let subscriptionId :=
    if maxSubscriptionId < message.subscriptionId then 0 else message.subscriptionId
  let props := if message.props.encodable then message.props else .empty
  let metaLength :=
    if props.isEmpty then
      aliasMetaLength message.topic + if subscriptionId == 0 then 0 else 4
    else aliasMetaLength message.topic + 4 + 7 + userBytes props.users
  newFrame metaLength message.payload.length
    (.publishOut { message with subscriptionId, props })

def isQos0PublishOut : OutFrame → Bool
  | .publishOut message => message.qos == .atMostOnce
  | _ => false

/-- One entry of the connection table: whether the receiving end of the mailbox
is still there. -/
structure Slot where
  isOpen : Bool
  deriving DecidableEq

structure RetainedMessage where
  topic : Topic
  qos : QoS
  payload : Payload
  deriving DecidableEq

structure DelayedEntry where
  deliverAtMs : Nat
  topic : Topic
  qos : QoS
  retain : Bool
  payload : Payload
  publisher : Option Str
  publisherTenant : Str
  deriving DecidableEq

/-- The parts of the source's `Shared` that handling a frame can change. Metrics,
statistics and the observers of the management plane are left out. -/
structure Shared where
  sessions : SessionManager
  router : Router
  conns : Dict Nat Slot
  retained : Dict (Str × Topic) RetainedMessage
  delayed : List DelayedEntry

structure ConnectContext where
  clientId : Str
  username : Option Str
  peerHost : Option Str
  listener : Str
  certCn : Option Str
  certSubject : Option Str
  certSans : List Str
  userProperties : Option (List (Str × Str))

structure DbAuth where
  authenticate : Str → Str → Option Str → Option Payload → Bool
  authorizePublish : Str → Str → Topic → Bool
  authorizeSubscribe : Str → Str → TopicFilter → Bool

structure WebhookAuth where
  authenticate : Str → Str → Option Str → Option Payload → Bool
  authorizePublish : Str → Str → Topic → Bool

structure RuleOutput where
  topic : Topic
  qos : QoS
  retain : Bool
  payload : Payload

structure AutoSubscription where
  filter : Str
  qos : UInt8
  nl : Nat
  rap : Nat
  rh : Nat

/-- What the kernel reads while it handles one frame and does not change itself:
the clock, the answers of the file system, the configured users, rules and bans,
and the verdicts of the configured backends. Every frame is handled with its own
value, so all of it may change between two frames. -/
structure Env where
  now : Nat
  disk : List DiskAnswer
  tenants : Auth.Tenants
  verifyPassword : Auth.PasswordVerifier → Payload → Bool
  isBanned : Str → Option Str → Option Str → Bool
  assignTenant : ConnectContext → Str
  builtInAvailable : Bool
  kerberos : Option (Str → Str → Payload → Option Str)
  jwks : Option (Str → Str → Payload → Option Str)
  looksLikeJwt : Payload → Bool
  ldap : Option (Str → Str → Option Str → Option Payload → Bool)
  dbAuth : Option DbAuth
  webhook : Option WebhookAuth
  rewritePublish : Str → Option Str
  rewriteSubscribe : Str → Option Str
  balance : Topic → Option Str → SubscriptionSet → SubscriptionSet
  rules : Topic → Payload → QoS → List RuleOutput
  maxRetainedPayload : Nat
  maxRetainedMessages : Nat
  scheduleDelayed : DelayedEntry → Nat → Bool
  autoSubscribe : Str → Option Str → List AutoSubscription

def Env.plain : Env where
  now := 0
  disk := []
  tenants := ∅
  verifyPassword _ _ := false
  isBanned _ _ _ := false
  assignTenant _ := Sessions.defaultTenantId
  builtInAvailable := true
  kerberos := none
  jwks := none
  looksLikeJwt _ := false
  ldap := none
  dbAuth := none
  webhook := none
  rewritePublish _ := none
  rewriteSubscribe _ := none
  balance _ _ matched := matched
  rules _ _ _ := []
  maxRetainedPayload := 1048576
  maxRetainedMessages := 0
  scheduleDelayed _ _ := true
  autoSubscribe _ _ := []

def bannedEnv : Env := { Env.plain with isBanned := fun _ _ _ => true }

namespace Shared

def start (sessions : SessionManager) : Shared :=
  { sessions, router := Router.empty, conns := ∅, retained := ∅, delayed := [] }

def withEnv (shared : Shared) (env : Env) : Shared :=
  { shared with
    sessions :=
      { shared.sessions with store := { shared.sessions.store with disk := env.disk } } }

def putSession (shared : Shared) (session : Session) : Shared :=
  { shared with sessions := shared.sessions.putSession session }

/-- `ConnTable::route`. A closed mailbox loses its slot, except that a QoS 0
publication only enters the slot's backlog. -/
def route (shared : Shared) (connId : Nat) (frame : OutFrame) : Shared × Bool :=
  match shared.conns.get? connId with
  | none => (shared, false)
  | some slot =>
    if isQos0PublishOut frame || slot.isOpen then (shared, true)
    else ({ shared with conns := shared.conns.remove connId }, false)

def register (shared : Shared) (connId : Nat) : Shared :=
  { shared with conns := shared.conns.set connId ⟨true⟩ }

def unregister (shared : Shared) (connId : Nat) : Shared :=
  { shared with conns := shared.conns.remove connId }

end Shared

end IndraMqtt.Kernel

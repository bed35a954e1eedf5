import IndraMqtt.Lib.Dict
import IndraMqtt.Protocol.Topic

/-! The state of one session and the operations of the session crate on it.
Every operation of the source runs under the locks of the fields it touches and
is a function on the whole record here. -/
namespace IndraMqtt.Sessions

open Protocol

abbrev Payload := List UInt8

/-- A message buffered for a detached session. The publication time is stamped
where the message enters the queue. -/
structure QueuedMessage where
  topic : Topic
  qos : QoS
  retain : Bool
  payload : Payload
  publishAtMs : Option Nat
  deriving DecidableEq

/-- One line of an offline queue file has the same fields. -/
abbrev OfflineRecord := QueuedMessage

/-- A QoS 1 downlink from the moment it is written until its PUBACK. -/
structure InflightMessage where
  packetId : UInt16
  topic : Topic
  qos : QoS
  retain : Bool
  payload : Payload
  deriving DecidableEq

structure Qos2InboundEntry where
  topic : Topic
  retain : Bool
  payload : Payload
  deriving DecidableEq

/-- A QoS 2 downlink. After PUBREC only its packet id matters. -/
structure Qos2OutboundEntry where
  packetId : UInt16
  topic : Topic
  retain : Bool
  payload : Payload
  recReceived : Bool
  deriving DecidableEq

structure StoredWill where
  tenant : Str
  topic : Topic
  qos : QoS
  retain : Bool
  payload : Payload
  deriving DecidableEq

structure SubscriptionOptions where
  qos : QoS
  nl : Nat
  rap : Nat
  rh : Nat
  deriving DecidableEq

inductive InflightTrackOutcome where
  | tracked
  | spilled
  | dropped
  deriving DecidableEq, Repr

def defaultMaxQos1Inflight : Nat := 100
def defaultMaxQos1Spill : Nat := 1000
def defaultTopicAliasMaximum : Nat := 10
def defaultSessionExpirySecs : Nat := 0
def sessionExpiryNever : Nat := 0xFFFFFFFF
def defaultClientReceiveMaximum : Nat := 65535
def defaultClientMaxPacketSize : Nat := 0
def maxQos2Inbound : Nat := 100
def maxQos2Inflight : Nat := 100
def defaultTenantId : Str := "default".toList

/-- The fields of the source's `Session` that the kernel reads. The cached
authorization decisions are left out: only the management plane reads them. -/
structure Session where
  id : Nat
  clientId : Str
  cleanStart : Bool
  connected : Bool
  connId : Option Nat
  subscriptions : Dict TopicFilter SubscriptionOptions
  offlineQueue : List QueuedMessage
  offlineStore : Bool
  inflight : List InflightMessage
  inflightSpill : List InflightMessage
  spillCount : Nat
  maxInflight : Nat
  maxSpill : Nat
  qos2Inbound : Dict UInt16 Qos2InboundEntry
  qos2Outbound : List Qos2OutboundEntry
  inboundAliases : Dict Nat Topic
  inboundAliasMax : Nat
  outboundAliases : Dict Nat Topic
  outboundAliasMax : Nat
  keepaliveSecs : Nat
  lastWill : Option StoredWill
  tenantId : Str
  username : Option Str
  peerhost : Option Str
  connectedAtMs : Option Nat
  endedAtMs : Option Nat
  nextPacketId : UInt16
  protocolVersion : Nat
  sessionExpiry : Nat
  clientReceiveMax : Nat
  clientMaxPacketSize : Nat

namespace Session

def new (id : Nat) (clientId : Str) (cleanStart : Bool) (now : Nat) : Session where
  id := id
  clientId := clientId
  cleanStart := cleanStart
  connected := true
  connId := none
  subscriptions := ∅
  offlineQueue := []
  offlineStore := false
  inflight := []
  inflightSpill := []
  spillCount := 0
  maxInflight := defaultMaxQos1Inflight
  maxSpill := defaultMaxQos1Spill
  qos2Inbound := ∅
  qos2Outbound := []
  inboundAliases := ∅
  inboundAliasMax := defaultTopicAliasMaximum
  outboundAliases := ∅
  outboundAliasMax := 0
  keepaliveSecs := 0
  lastWill := none
  tenantId := defaultTenantId
  username := none
  peerhost := none
  connectedAtMs := some now
  endedAtMs := none
  nextPacketId := 1
  protocolVersion := 4
  sessionExpiry := defaultSessionExpirySecs
  clientReceiveMax := defaultClientReceiveMaximum
  clientMaxPacketSize := defaultClientMaxPacketSize

variable (session : Session) (packetId : UInt16)

def setMaxInflight (limit : Nat) : Session :=
  { session with maxInflight := max limit 1 }

def setMaxSpill (limit : Nat) : Session :=
  { session with maxSpill := max limit 1 }

def applyQos1Limits (maxQos1Inflight maxQos1Spill : Nat) : Session :=
  (session.setMaxInflight (max maxQos1Inflight 1)).setMaxSpill (max maxQos1Spill 1)

/-- The three store lookups of `next_packet_id`. The spill is scanned only
while its counter is nonzero. -/
def idHeld : Bool :=
  session.inflight.any (·.packetId == packetId) ||
    (session.spillCount != 0 && session.inflightSpill.any (·.packetId == packetId)) ||
    session.qos2Outbound.any (·.packetId == packetId)

/-- The loop of `Session::next_packet_id`, cut off after `fuel` rounds. Each
round moves the wrapping counter before it looks at the id. -/
def nextPacketIdLoop : Nat → Session → Option (UInt16 × Session)
  | 0, _ => none
  | fuel + 1, session =>
    let packetId := session.nextPacketId
    let session := { session with nextPacketId := packetId + 1 }
    if packetId == 0 then nextPacketIdLoop fuel session
    else if session.idHeld packetId then nextPacketIdLoop fuel session
    else some (packetId, session)

/-- `Session::next_packet_id`. One round for each value of the counter decides
the loop, and `none` is a scan that never ends. -/
def allocatePacketId : Option (UInt16 × Session) :=
  nextPacketIdLoop 65536 session

def trackInflightOrSpill (message : InflightMessage) : Session × InflightTrackOutcome :=
  if session.inflight.length < max session.maxInflight 1 then
    ({ session with inflight := session.inflight ++ [message] }, .tracked)
  else if max session.maxSpill 1 ≤ session.inflightSpill.length then (session, .dropped)
  else
    ({ session with
        inflightSpill := session.inflightSpill ++ [message]
        spillCount := session.spillCount + 1 }, .spilled)

/-- `Session::ack_inflight_timed`. An entry that leaves the window makes room
for the oldest spilled one. -/
def ackInflightTimed : Session × Option InflightMessage :=
  match session.inflight.find? (·.packetId == packetId) with
  | some entry =>
    let window := session.inflight.eraseP (·.packetId == packetId)
    if session.spillCount == 0 then ({ session with inflight := window }, some entry)
    else
      match session.inflightSpill with
      | [] => ({ session with inflight := window }, some entry)
      | promoted :: spill =>
        ({ session with
            inflight := window ++ [promoted]
            inflightSpill := spill
            spillCount := session.spillCount - 1 }, some entry)
  | none =>
    match session.inflightSpill.find? (·.packetId == packetId) with
    | some entry =>
      ({ session with
          inflightSpill := session.inflightSpill.eraseP (·.packetId == packetId)
          spillCount := session.spillCount - 1 }, some entry)
    | none => (session, none)

def clearInflight : Session :=
  { session with inflight := [], inflightSpill := [], spillCount := 0 }

def hasQos2Inbound : Bool :=
  (session.qos2Inbound.get? packetId).isSome

/-- `Session::store_qos2_inbound`. A held id and a full table both answer
`false`. -/
def storeQos2Inbound (entry : Qos2InboundEntry) : Session × Bool :=
  if session.hasQos2Inbound packetId then (session, false)
  else if maxQos2Inbound ≤ session.qos2Inbound.entries.length then (session, false)
  else ({ session with qos2Inbound := session.qos2Inbound.set packetId entry }, true)

def takeQos2Inbound : Session × Option Qos2InboundEntry :=
  ({ session with qos2Inbound := session.qos2Inbound.remove packetId },
    session.qos2Inbound.get? packetId)

def clearQos2Inbound : Session :=
  { session with qos2Inbound := ∅ }

def trackQos2Outbound (entry : Qos2OutboundEntry) : Session × Bool :=
  if maxQos2Inflight ≤ session.qos2Outbound.length then (session, false)
  else ({ session with qos2Outbound := session.qos2Outbound ++ [entry] }, true)

/-- The in-place update of `complete_qos2_pubrec`: the first entry with the id
is marked and loses its payload. -/
def markRecReceived (packetId : UInt16) : List Qos2OutboundEntry → List Qos2OutboundEntry
  | [] => []
  | entry :: rest =>
    if entry.packetId == packetId then
      (if entry.recReceived then entry
        else { entry with recReceived := true, payload := [] }) :: rest
    else entry :: markRecReceived packetId rest

def completeQos2Pubrec : Session × Bool :=
  ({ session with qos2Outbound := markRecReceived packetId session.qos2Outbound },
    (session.qos2Outbound.find? (·.packetId == packetId)).elim false (!·.recReceived))

def ackQos2Pubcomp : Session × Bool :=
  ({ session with qos2Outbound := session.qos2Outbound.eraseP (·.packetId == packetId) },
    session.qos2Outbound.any (·.packetId == packetId))

def clearQos2Outbound : Session :=
  { session with qos2Outbound := [] }

end Session

end IndraMqtt.Sessions

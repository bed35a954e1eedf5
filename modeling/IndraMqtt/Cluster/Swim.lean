import IndraMqtt.Cluster.Licence
import IndraMqtt.Cluster.RouteTable

/-! The SWIM membership of one node: the gossip merge, the answers to messages and the parts of
a probe. A handler reads the clocks and the transport through its environment, and it runs as
one step. Gossip about a route can panic in the filter's validation, and a handler that panics
has no result. -/
namespace IndraMqtt.Cluster

open Protocol Kernel

/-! ### Data -/

inductive ClusterError where
  | nodeUnreachable (text : Str)
  | transport (text : Str)
  deriving DecidableEq, Repr

inductive NodeStatus where
  | alive
  | suspect
  | dead
  | left
  deriving DecidableEq, Repr

def NodeStatus.isActive : NodeStatus → Bool
  | alive => true
  | suspect => true
  | dead => false
  | left => false

structure MemberState where
  nodeId : NodeId
  status : NodeStatus
  incarnation : UInt64
  address : Option Str
  lastUpdatedEpoch : UInt64
  deriving DecidableEq, Repr

structure MemberUpdate where
  nodeId : NodeId
  status : NodeStatus
  incarnation : UInt64
  address : Option Str
  deriving DecidableEq, Repr

inductive GossipItem where
  | memberUpdate (update : MemberUpdate)
  | routeUpdate (nodeId : NodeId) (filter : Str) (isAdd : Bool)
  | licenceUpdate (token : Str)
  | clusterIdentity (identity : Str) (trialStartedAt : UInt64)
  deriving DecidableEq, Repr

inductive SwimMessage where
  | ping (seq : UInt64) (sender : NodeId) (gossip : List GossipItem)
  | ack (seq : UInt64) (sender : NodeId) (gossip : List GossipItem)
  | pingReq (seq : UInt64) (sender target : NodeId) (gossip : List GossipItem)
  | join (sender : NodeId) (address : Option Str) (gossip : List GossipItem)
  | joinAck (sender : NodeId) (members : List MemberState) (gossip : List GossipItem)
  | leave (sender : NodeId) (incarnation : UInt64)
  deriving DecidableEq, Repr

/-- `SwimConfig`. The intervals and the timeouts of a probe are not read here: a probe that
times out is a step of its own. -/
structure SwimConfig where
  pingReqMembers : Nat
  suspicionTimeout : Nat
  gossipFanout : Nat
  maxGossipTransmissions : Nat
  deriving DecidableEq, Repr

def SwimConfig.default : SwimConfig := ⟨3, 500, 8, 3⟩

structure InternalMemberRecord where
  state : MemberState
  suspectSince : Option Nat
  deriving DecidableEq, Repr

structure GossipRecord where
  item : GossipItem
  transmissionsLeft : Nat
  deriving DecidableEq, Repr

/-- What a handler sees of the outside: `SystemTime::now` in seconds, `Instant::now` in
milliseconds, and the errors of `send_to`. -/
structure Env where
  epoch : UInt64
  instant : Nat
  failure : NodeId → Option ClusterError

abbrev Members := KeyedMap fun record : InternalMemberRecord => record.state.nodeId

/-- `SwimMembership` without its transport. A pending acknowledgement is the number of its probe
with the permit that `notify_one` stores. -/
structure SwimMembership where
  localId : NodeId
  address : Option Str
  config : SwimConfig
  incarnation : UInt64
  seq : UInt64
  members : Members
  gossipQueue : List GossipRecord
  routeTable : Option ClusterRouteTable
  pendingAcks : List (UInt64 × Bool)
  licenseKey : Option Str
  trustedKeys : TrustedKeys
  clusterIdentity : Str
  clusterTrialStartedAt : Option UInt64

/-- What a handler leaves: the new state, the messages it sent and what it returns. -/
structure Outcome where
  state : SwimMembership
  sends : List (NodeId × SwimMessage)
  result : Except ClusterError Unit

def Env.send (env : Env) (target : NodeId) (message : SwimMessage) :
    List (NodeId × SwimMessage) × Except ClusterError Unit :=
  match env.failure target with
  | none => ([(target, message)], .ok ())
  | some e => ([], .error e)

def Env.sendAll (env : Env) (targets : List NodeId) (message : SwimMessage) :
    List (NodeId × SwimMessage) :=
  targets.flatMap fun target => (env.send target message).1

/-- What the merge compares of a member: its status at an incarnation. -/
structure Standing where
  status : NodeStatus
  incarnation : UInt64
  deriving DecidableEq, Repr

def MemberState.standing (state : MemberState) : Standing := ⟨state.status, state.incarnation⟩

def MemberUpdate.standing (update : MemberUpdate) : Standing :=
  ⟨update.status, update.incarnation⟩

def Standing.shouldUpdate (recorded heard : Standing) : Bool :=
  if recorded.incarnation < heard.incarnation then true
  else if heard.incarnation < recorded.incarnation then false
  else
    match recorded.status, heard.status with
    | .alive, .suspect => true
    | .alive, .dead => true
    | .suspect, .dead => true
    | _, _ => false

def discovered (env : Env) (update : MemberUpdate) : InternalMemberRecord :=
  ⟨⟨update.nodeId, .alive, 0, update.address, env.epoch⟩, none⟩

def InternalMemberRecord.heard (record : InternalMemberRecord) (env : Env)
    (update : MemberUpdate) : InternalMemberRecord :=
  if record.state.standing.shouldUpdate update.standing then {
    state := {
      record.state with
      status := update.status
      incarnation := update.incarnation
      lastUpdatedEpoch := env.epoch
      address := update.address.or record.state.address }
    suspectSince := if update.status = .suspect then some env.instant else none }
  else record

namespace SwimMembership

def new (localId : NodeId) (address : Option Str) (config : SwimConfig) (nowEpoch : UInt64) :
    SwimMembership where
  localId := localId
  address := address
  config := config
  incarnation := 0
  seq := 1
  members := KeyedMap.empty.put ⟨⟨localId, .alive, 0, address, nowEpoch⟩, none⟩
  gossipQueue := []
  routeTable := none
  pendingAcks := []
  licenseKey := none
  trustedKeys := ⟨[]⟩
  clusterIdentity := localId
  clusterTrialStartedAt := none

variable (crypto : Crypto) (node : SwimMembership) (env : Env) (target : NodeId)

/-! ### Gossip -/

def broadcastGossip (item : GossipItem) : SwimMembership :=
  { node with
    gossipQueue := node.gossipQueue ++ [⟨item, node.config.maxGossipTransmissions⟩] }

/-- The loop of `harvest_gossip` with the room that is left: the items that were selected and
the records that stay. -/
def harvestLoop : Nat → List GossipRecord → List GossipItem × List GossipRecord
  | _, [] => ([], [])
  | 0, queue => ([], queue)
  | room + 1, record :: queue =>
    let rest := harvestLoop room queue
    (record.item :: rest.1,
      if 1 < record.transmissionsLeft then
        { record with transmissionsLeft := record.transmissionsLeft - 1 } :: rest.2
      else rest.2)

def harvestGossip : List GossipItem × SwimMembership :=
  let harvest := harvestLoop node.config.gossipFanout node.gossipQueue
  (harvest.1, { node with gossipQueue := harvest.2 })

def adoptClusterState (identity : Str) (trialStartedAt : Option UInt64)
    (licence : Option Str) : SwimMembership :=
  { node with
    clusterIdentity := identity
    clusterTrialStartedAt := trialStartedAt
    licenseKey := licence.or node.licenseKey }

def recordFor (update : MemberUpdate) : InternalMemberRecord :=
  (node.members.get? update.nodeId).getD (discovered env update)

/-- The end of `apply_member_update`, for another node. An update that is taken purges the routes
of a node that is gone. -/
def updateRecord (update : MemberUpdate) : SwimMembership :=
  let record := node.recordFor env update
  { node with
    members := node.members.put (record.heard env update)
    routeTable :=
      if record.state.standing.shouldUpdate update.standing ∧
          (update.status = .dead ∨ update.status = .left) then
        node.routeTable.map (·.removeAllForNode update.nodeId)
      else node.routeTable }

/-- `apply_member_update`. The incarnation of a refutation wraps, as it does without overflow
checks. -/
def applyMemberUpdate (update : MemberUpdate) : SwimMembership :=
  if update.nodeId = node.localId then
    if (update.status = .suspect ∨ update.status = .dead) ∧
        node.incarnation ≤ update.incarnation then
      { node with incarnation := update.incarnation + 1 }.broadcastGossip
        (.memberUpdate ⟨node.localId, .alive, update.incarnation + 1, node.address⟩)
    else node
  else node.updateRecord env update

def applyRouteUpdate (nodeId : NodeId) (filter : Str) (isAdd : Bool) : Option SwimMembership :=
  match node.routeTable with
  | none => some node
  | some table =>
    match TopicFilter.new filter with
    | none => none
    | some (.error _) => some node
    | some (.ok filter) =>
      some {
        node with
        routeTable :=
          some (if isAdd then table.addRoute filter nodeId
            else table.removeRoute filter nodeId) }

def applyGossipItem : GossipItem → Option SwimMembership
  | .memberUpdate update => some (node.applyMemberUpdate env update)
  | .routeUpdate nodeId filter isAdd => node.applyRouteUpdate nodeId filter isAdd
  | .licenceUpdate token =>
    some (if (trim token).isEmpty then node else { node with licenseKey := some token })
  | .clusterIdentity identity trialStartedAt =>
    some (if (trim identity).isEmpty then node
      else node.adoptClusterState identity (some trialStartedAt) none)

def applyGossipBatch (node : SwimMembership) (env : Env) : List GossipItem → Option SwimMembership
  | [] => some node
  | item :: items =>
    (node.applyGossipItem env item).bind fun next => next.applyGossipBatch env items

def applyMemberStates (states : List MemberState) : SwimMembership :=
  states.foldl
    (fun node state =>
      node.applyMemberUpdate env ⟨state.nodeId, state.status, state.incarnation, state.address⟩)
    node

/-! ### Members -/

def getActiveMembers : List NodeId :=
  (node.members.values.filter fun record => record.state.status.isActive).map (·.state.nodeId)

def peers : List NodeId := node.getActiveMembers.filter (· ≠ node.localId)

def intermediaries : List NodeId :=
  node.peers.filter (· ≠ target)

def joinSeed (seed : NodeId) : Outcome :=
  let harvest := node.harvestGossip
  let sent := env.send seed (.join node.localId node.address harvest.1)
  ⟨harvest.2, sent.1, sent.2⟩

def leave (node : SwimMembership) (env : Env) : Outcome where
  state := {
    node with
    members :=
      match node.members.get? node.localId with
      | none => node.members
      | some record =>
        node.members.put { record with state := { record.state with status := .left } } }
  sends := env.sendAll node.peers (.leave node.localId node.incarnation)
  result := .ok ()

def markNodeSuspect : SwimMembership :=
  match node.members.get? target with
  | none => node
  | some record =>
    (node.applyMemberUpdate env
      ⟨target, .suspect, record.state.incarnation, record.state.address⟩).broadcastGossip
        (.memberUpdate ⟨target, .suspect, record.state.incarnation, none⟩)

def timedOut (record : InternalMemberRecord) : Bool :=
  record.state.status == .suspect &&
    record.suspectSince.any fun since => node.config.suspicionTimeout ≤ env.instant - since

def sweepSuspects : SwimMembership :=
  (node.members.values.filter (node.timedOut env)).foldl
    (fun node record =>
      (node.applyMemberUpdate env
        ⟨record.state.nodeId, .dead, record.state.incarnation, record.state.address⟩)
        |>.broadcastGossip
          (.memberUpdate ⟨record.state.nodeId, .dead, record.state.incarnation, none⟩))
    node

/-! ### Messages -/

def joinAdmission : Except ClusterError Unit :=
  match ClusterLicense.evaluate crypto node.trustedKeys node.licenseKey
      (node.getActiveMembers.length + 1) env.epoch node.clusterIdentity with
  | .quotaExceeded _ currentNodes maxNodes =>
    .error (.transport ("node beyond licensed ceiling: ceiling ".toList ++
      Nat.toDigits 10 maxNodes ++ " nodes, cluster would have ".toList ++
      Nat.toDigits 10 currentNodes ++ " nodes".toList))
  | .invalidSignature reason => .error (.transport ("licence invalid: ".toList ++ reason))
  | _ => .ok ()

/-- The gossip of a `JoinAck` behind what was harvested. -/
def handover : List GossipItem :=
  .clusterIdentity node.clusterIdentity (node.clusterTrialStartedAt.getD env.epoch) ::
    (node.licenseKey.map GossipItem.licenceUpdate).toList

def admitSender (sender : NodeId) (address : Option Str) : Outcome :=
  let node := node.applyMemberUpdate env ⟨sender, .alive, 0, address⟩
  let harvest := node.harvestGossip
  let sent := env.send sender
    (.joinAck node.localId (node.members.values.map (·.state)) (harvest.1 ++ node.handover env))
  ⟨harvest.2, sent.1, sent.2⟩

def believesAlive : Bool :=
  (node.members.get? target).any fun record => record.state.status == .alive

def notifyOne (seq : UInt64) : SwimMembership :=
  { node with
    pendingAcks :=
      node.pendingAcks.map fun entry => if entry.1 = seq then (entry.1, true) else entry }

/-- `handle_message`, with `none` for a panic. -/
def handleMessage : SwimMessage → Option Outcome
  | .ping seq sender gossip =>
    (node.applyGossipBatch env gossip).map fun node =>
      let harvest := node.harvestGossip
      let sent := env.send sender (.ack seq node.localId harvest.1)
      ⟨harvest.2, sent.1, sent.2⟩
  | .ack seq _ gossip =>
    (node.applyGossipBatch env gossip).map fun node => ⟨node.notifyOne seq, [], .ok ()⟩
  | .pingReq seq sender target gossip =>
    (node.applyGossipBatch env gossip).map fun node =>
      ⟨node,
        (env.send target (.ping seq node.localId [])).1 ++
          (if node.believesAlive target then (env.send sender (.ack seq target [])).1 else []),
        .ok ()⟩
  | .join sender address gossip =>
    (node.applyGossipBatch env gossip).map fun node =>
      match node.joinAdmission crypto env with
      | .error e => ⟨node, [], .error e⟩
      | .ok () => node.admitSender env sender address
  | .joinAck _ members gossip =>
    (node.applyGossipBatch env gossip).map fun node =>
      ⟨node.applyMemberStates env members, [], .ok ()⟩
  | .leave sender incarnation =>
    some ⟨node.applyMemberUpdate env ⟨sender, .left, incarnation, none⟩, [], .ok ()⟩

/-! ### Probes -/

/-- The start of `step_probe`, up to the wait for an answer: the number of the probe and whether
the ping was sent. -/
def startProbe : SwimMembership × UInt64 × List (NodeId × SwimMessage) × Bool :=
  let seq := node.seq
  let harvest := { node with
    seq := seq + 1
    pendingAcks := AssocList.put node.pendingAcks seq false }.harvestGossip
  let sent := env.send target (.ping seq node.localId harvest.1)
  (harvest.2, seq, sent.1, sent.2.isOk)

def sendPingReqs (seq : UInt64) (target : NodeId)
    (chosen : List NodeId) : List (NodeId × SwimMessage) :=
  env.sendAll chosen (.pingReq seq node.localId target [])

def forgetProbe (seq : UInt64) : SwimMembership :=
  { node with pendingAcks := AssocList.del node.pendingAcks seq }

def notified (seq : UInt64) : Bool :=
  (AssocList.get node.pendingAcks seq).getD false

end SwimMembership

end IndraMqtt.Cluster

import IndraMqtt.Edge.Handshake
import IndraMqtt.Edge.LinkMeta

/-! The process of one client connection at the edge. It waits for a CONNECT and binds the
session at the kernel, forwards the packets of the connected client over the link, and holds the
client while its shard of the core is away. The frames that it hands to the link and the writes
to the socket are kept in order. The death notices of a stopped process, the counters, the
WebSocket layer and the lengths of the timers are left out. -/
namespace IndraMqtt.Edge

open Bytes

deriving instance DecidableEq for WillInfo, CertInfo, V5Info, BindInfo

/-! ### State -/

/-- Why `send` did not succeed: the link refused the frame, or the call ended in an exit. -/
inductive SendError where
  | overloaded
  | error
  | timedOut
  | exited
  deriving DecidableEq

inductive StopCause where
  | protocolError
  | sendFailed
  | kernelClose
  | peerClosed
  | tcpError
  | connectTimeout
  | keepaliveTimeout
  | holdOverflow
  | clientDisconnect
  | ingressOverloaded
  | callTimeout
  | callFailed
  deriving DecidableEq

def classifySendError : SendError → StopCause
  | .overloaded => .ingressOverloaded
  | .timedOut => .callTimeout
  | .exited => .callFailed
  | .error => .callFailed

inductive Opcode where
  | unbindConnection
  | publishIn
  | pubackIn
  | pubrecIn
  | pubrelIn
  | pubcompIn
  | subscribeIn
  | credit
  deriving DecidableEq

inductive BindKind where
  | first
  | resend
  | rebind
  deriving DecidableEq

/-- A bind is kept with the arguments of `encode_bind_meta`, any other frame with its
metadata. -/
inductive LinkBody where
  | bind (kind : BindKind) (info : BindInfo (List UInt8))
  | request (opcode : Opcode) (metadata payload : List UInt8)
  deriving DecidableEq

structure LinkFrame where
  broker : Nat
  seq : Nat
  body : LinkBody
  deriving DecidableEq

/-- What the process finds around it. The answers of the link and of the socket and the peer of
the socket depend on how many frames or writes there were before. -/
structure Env where
  isPeerIp : List UInt8 → Bool
  link : Nat → Option SendError
  socket : Nat → Bool
  peer : Nat → Option (List UInt8)
  cert : Nat → Option (CertInfo (List UInt8))

structure Pending where
  clientId : List UInt8
  keepalive : Nat
  will : Option (WillInfo (List UInt8))
  protoLevel : ProtoLevel
  clientAliasMax : Nat
  v5Info : Option (V5Info (List UInt8))
  username : Option (List UInt8)
  password : Option (List UInt8)
  deriving DecidableEq

structure Tracked where
  opts : Nat
  packetId : Nat
  subId : Nat
  deriving DecidableEq

/-- What a bound session adds. -/
structure Session where
  sessionId : Nat
  clientId : List UInt8
  keepalive : Nat
  will : Option (WillInfo (List UInt8))
  protoLevel : ProtoLevel
  v5Info : Option (V5Info (List UInt8))
  clientAliasMax : Nat
  subs : List (List UInt8 × Tracked)
  subsPending : List Nat
  pubsPending : List Nat
  qos2Pending : List Nat
  quietSubs : List Nat
  rebinding : Bool
  qos0Dropped : Nat
  deriving DecidableEq

/-- The data of the process, with what its state adds. -/
structure Conn (σ : Type) where
  broker : Nat
  brokers : List Nat
  shard : Nat
  seq : Nat
  buffer : List UInt8
  pskIdentity : Option (List UInt8)
  state : σ
  frames : List LinkFrame
  writes : List (List UInt8)

/-- The process: one of the three states, or ended with its cause. A raised exception has no
cause. -/
inductive Process where
  | awaitConnect (conn : Conn (Option Pending))
  | connected (conn : Conn Session)
  | awaitCore (conn : Conn Session)
  | ended (cause : Option StopCause) (frames : List LinkFrame) (writes : List (List UInt8))

inductive Outcome where
  | ok (conn : Conn Session)
  | stop (cause : StopCause) (conn : Conn Session)
  | raise (conn : Conn Session)

def Outcome.conn : Outcome → Conn Session
  | .ok conn => conn
  | .stop _ conn => conn
  | .raise conn => conn

section Primitives

variable {σ : Type} (env : Env)

def Conn.stop (cause : StopCause) (conn : Conn σ) : Process :=
  .ended (some cause) conn.frames conn.writes

variable (conn : Conn σ)

def Conn.crash : Process := .ended none conn.frames conn.writes

def Conn.send (body : LinkBody) : Conn σ :=
  { conn with frames := conn.frames ++ [{ broker := conn.broker, seq := conn.seq + 1, body }] }

def Conn.sendAnswer : Option SendError := env.link conn.frames.length

def Conn.write (bytes : List UInt8) : Conn σ :=
  { conn with writes := conn.writes ++ [bytes] }

def Conn.writeAnswer : Bool := env.socket conn.writes.length

def Conn.advance : Conn σ := { conn with seq := conn.seq + 1 }

end Primitives

def mark (id : Nat) (ids : List Nat) : List Nat := if id ∈ ids then ids else id :: ids

/-! ### Packets of a connected client -/

section Connected

variable (env : Env)

def track (filter : List UInt8) (tracked : Tracked) :
    List (List UInt8 × Tracked) → List (List UInt8 × Tracked)
  | [] => [(filter, tracked)]
  | entry :: rest =>
    if entry.1 = filter then (filter, tracked) :: rest else entry :: track filter tracked rest

/-- `handle_subscribe_packet`. The encoder runs outside of the `catch` around `send`. -/
def handleSubscribePacket (payload : List UInt8) (conn : Conn Session) : Outcome :=
  match decodeSubscribe payload conn.state.protoLevel with
  | .error _ => .stop .protocolError conn
  | .ok sub =>
    match subscribeMeta conn.state.protoLevel conn.state.clientId sub with
    | none => .raise conn
    | some metadata =>
      let sent := conn.send (.request .subscribeIn metadata [])
      match conn.sendAnswer env with
      | none =>
        .ok { sent.advance with
          state := { conn.state with
            subsPending := mark sub.packetId conn.state.subsPending
            subs := sub.subscriptions.foldl
              (fun subs entry => track entry.1 ⟨entry.2, sub.packetId, sub.subId⟩ subs)
              conn.state.subs } }
      | some reason => .stop (classifySendError reason) sent

/-- `handle_publish_packet`. Only a publication of QoS 0 is shed when the shard is
overloaded. -/
def handlePublishPacket (payload : List UInt8) (flags : Nat) (conn : Conn Session) : Outcome :=
  match decodePublish payload flags conn.state.protoLevel with
  | .error _ => .stop .protocolError conn
  | .ok pub =>
    match publishMeta conn.state.protoLevel pub with
    | none => .raise conn
    | some metadata =>
      let sent := conn.send (.request .publishIn metadata pub.payload)
      match conn.sendAnswer env with
      | none =>
        .ok { sent.advance with
          state := { conn.state with
            pubsPending :=
              if pub.qos = 1 then mark pub.packetId conn.state.pubsPending
              else conn.state.pubsPending
            qos2Pending :=
              if pub.qos = 2 then mark pub.packetId conn.state.qos2Pending
              else conn.state.qos2Pending } }
      | some reason =>
        if reason = .overloaded ∧ pub.qos = 0 then
          .ok { sent with
            state := { conn.state with qos0Dropped := conn.state.qos0Dropped + 1 } }
        else .stop (classifySendError reason) sent

def handlePingreq (conn : Conn Session) : Outcome :=
  let written := conn.write [0xD0, 0x00]
  if conn.writeAnswer env then .ok written else .stop .sendFailed written

/-- `handle_disconnect`. The answer to the unbind frame does not matter. -/
def handleDisconnect (payload : List UInt8) (conn : Conn Session) : Outcome :=
  match conn.state.protoLevel with
  | .v5 =>
    match decodeDisconnectV5 payload with
    | .error _ => .stop .protocolError conn
    | .ok reason =>
      .stop .clientDisconnect (conn.send (.request .unbindConnection
        (encodeUnbindReasonMeta conn.state.clientId reason) []))
  | .v4 =>
    .stop .clientDisconnect (conn.send (.request .unbindConnection
      (encodeUnbindMeta conn.state.clientId) []))

/-- The four handlers of acknowledgements, which differ in the opcode and the metadata. A body
that is not a nonzero packet identifier alone is ignored. -/
def handleAck (opcode : Opcode) (encode : Nat → Option (List UInt8)) (payload : List UInt8)
    (conn : Conn Session) : Outcome :=
  match exactly (takeUInt 2 payload) with
  | none => .ok conn
  | some packetId =>
    if packetId = 0 then .ok conn
    else
      match encode packetId with
      | none => .raise conn
      | some metadata =>
        let sent := conn.send (.request opcode metadata [])
        match conn.sendAnswer env with
        | none => .ok sent.advance
        | some reason =>
          if reason = .overloaded then .ok sent else .stop (classifySendError reason) sent

def handlePubackIn : List UInt8 → Conn Session → Outcome :=
  handleAck env .pubackIn fun packetId => encodePubackMeta packetId 0

def handlePubrecIn : List UInt8 → Conn Session → Outcome := handleAck env .pubrecIn encodePubrecMeta

def handlePubrelIn : List UInt8 → Conn Session → Outcome := handleAck env .pubrelIn encodePubrelMeta

def handlePubcompIn : List UInt8 → Conn Session → Outcome :=
  handleAck env .pubcompIn encodePubcompMeta

def handleMqttPacket (packet : Packet) (conn : Conn Session) : Outcome :=
  if packet.type = 8 then handleSubscribePacket env packet.payload conn
  else if packet.type = 3 then handlePublishPacket env packet.payload packet.flags conn
  else if packet.type = 12 then handlePingreq env conn
  else if packet.type = 14 then handleDisconnect packet.payload conn
  else if packet.type = 4 then handlePubackIn env packet.payload conn
  else if packet.type = 5 then handlePubrecIn env packet.payload conn
  else if packet.type = 6 then handlePubrelIn env packet.payload conn
  else if packet.type = 7 then handlePubcompIn env packet.payload conn
  else .stop .protocolError conn

/-- `handle_connected_bytes`. On no bytes `decode_packet` asks for more and the buffer stays
empty, as in the first clause. -/
def handleConnectedBytes (buf : List UInt8) (conn : Conn Session) : Process :=
  match _hFramed : decodePacket buf with
  | .ok packet rest =>
    match handleMqttPacket env packet conn with
    | .ok next => handleConnectedBytes rest next
    | .stop cause next => next.stop cause
    | .raise next => next.crash
  | .more _ => .connected { conn with buffer := buf }
  | .error _ => conn.stop .protocolError
termination_by buf.length
decreasing_by exact decodePacket_rest_lt _hFramed

/-- The bytes that were kept are handled first: `drain_buffer`, and new bytes behind them. -/
def drainBuffer (bytes : List UInt8) (conn : Conn Session) : Process :=
  handleConnectedBytes env (conn.buffer ++ bytes) { conn with buffer := [] }

end Connected

/-! ### The handshake -/

section Handshake

variable (env : Env)

def makeV5Info (connect : Connect) : Option (V5Info (List UInt8)) :=
  match connect.level with
  | .v5 =>
    some { version := 5, sessionExpiry := connect.props.sessionExpiry
           receiveMax := connect.props.receiveMax
           maxPacketSize := connect.props.maxPacketSize
           userProperties := connect.props.userProperties }
  | .v4 => none

/-- `psk_username`, where the outer `none` is an identity that does not match. -/
def pskUsername (identity username : Option (List UInt8)) : Option (Option (List UInt8)) :=
  match identity, username with
  | none, username => some username
  | some identity, none => some (some identity)
  | some identity, some username => if identity = username then some (some identity) else none

/-- `make_will`, where the outer `none` is a topic that cannot be routed. -/
def makeWill (connect : Connect) : Option (Option (WillInfo (List UInt8))) :=
  if connect.willFlag then
    match connect.willTopic, connect.willPayload with
    | some topic, some payload =>
      if connect.willQos ≤ 2 ∧ topic ≠ [] ∧ hasWildcard topic = false then
        some (some { topic, payload, qos := connect.willQos, retain := connect.willRetain })
      else none
    | _, _ => none
  else some none

/-- What a CONNECT makes pending, unless its identity or its will is refused. -/
def makePending (identity : Option (List UInt8)) (connect : Connect) : Option Pending :=
  (pskUsername identity connect.username).bind fun username =>
    (makeWill connect).map fun will =>
      { clientId := connect.clientId, keepalive := connect.keepalive, will
        protoLevel := connect.level, clientAliasMax := connect.props.aliasMax
        v5Info := makeV5Info connect, username, password := connect.password }

def Pending.bindInfo (pending : Pending) (cleanStart : Bool) (peer : Option (List UInt8))
    (cert : Option (CertInfo (List UInt8))) : BindInfo (List UInt8) :=
  { clientId := pending.clientId, cleanStart, keepalive := pending.keepalive
    username := pending.username, password := pending.password, peer
    aliasMax := pending.clientAliasMax, cert, will := pending.will, v5 := pending.v5Info }

/-- `handle_connect_packet`. The bytes behind the CONNECT are stashed. -/
def handleConnectPacket (payload rest : List UInt8) (conn : Conn (Option Pending)) : Process :=
  match decodeConnect payload with
  | .error _ => conn.stop .protocolError
  | .ok connect =>
    match makePending conn.pskIdentity connect with
    | none => conn.stop .protocolError
    | some pending =>
      let info := pending.bindInfo connect.cleanStart (env.peer conn.frames.length)
        (env.cert conn.frames.length)
      if (encodeBindMeta env.isPeerIp info).isNone then conn.stop .protocolError
      else
        let sent := conn.send (.bind .first info)
        match conn.sendAnswer env with
        | none => .awaitConnect { sent.advance with state := some pending, buffer := rest }
        | some reason => sent.stop (classifySendError reason)

def handleConnectBytes (buf : List UInt8) (conn : Conn (Option Pending)) : Process :=
  match decodePacket buf with
  | .ok packet rest =>
    if packet.type = 1 then handleConnectPacket env packet.payload rest conn
    else conn.stop .protocolError
  | .more _ => .awaitConnect { conn with buffer := buf }
  | .error _ => conn.stop .protocolError

/-- `resend_bind`, which is non-clean. Without an answer of the link it keeps waiting. -/
def resendBind (pending : Pending) (conn : Conn (Option Pending)) : Conn (Option Pending) :=
  let info := pending.bindInfo false (env.peer conn.frames.length) (env.cert conn.frames.length)
  if (encodeBindMeta env.isPeerIp info).isNone then conn
  else
    let sent := conn.send (.bind .resend info)
    match conn.sendAnswer env with
    | none => sent.advance
    | some _ => sent

def Pending.session (pending : Pending) (sessionId : Nat) : Session :=
  { sessionId, clientId := pending.clientId, keepalive := pending.keepalive, will := pending.will
    protoLevel := pending.protoLevel, v5Info := pending.v5Info
    clientAliasMax := pending.clientAliasMax, subs := [], subsPending := [], pubsPending := []
    qos2Pending := [], quietSubs := [], rebinding := false, qos0Dropped := 0 }

/-- `handle_session_binding`. Without a pending bind the lookup of the level raises. -/
def handleSessionBinding (metadata : List UInt8) (conn : Conn (Option Pending)) : Process :=
  match decodeSessionBindingMeta metadata with
  | none => conn.stop .protocolError
  | some binding =>
    match conn.state with
    | none => conn.crash
    | some pending =>
      match connack pending.protoLevel binding with
      | none => conn.crash
      | some bytes =>
        let written := conn.write bytes
        if !conn.writeAnswer env then written.stop .sendFailed
        else if binding.returnCode = 0 then
          drainBuffer env [] { written with state := pending.session binding.sessionId }
        else written.stop .kernelClose

end Handshake

/-! ### Holding and rebinding -/

section Core

variable (env : Env)

def maxHoldBufferBytes : Nat := 1048576

/-- `hold_scan`, with the bytes held so far. A PINGREQ is answered, every other packet is
held. -/
def holdScan (buf : List UInt8) (conn : Conn Session) (held : List UInt8) : Process :=
  match _hFramed : decodePacket buf with
  | .ok packet rest =>
    if packet.type = 12 then
      let written := conn.write [0xD0, 0x00]
      if conn.writeAnswer env then holdScan rest written held else written.stop .sendFailed
    else holdScan rest conn (held ++ buf.take (buf.length - rest.length))
  | .more _ => .awaitCore { conn with buffer := held ++ buf }
  | .error _ => conn.stop .protocolError
termination_by buf.length
decreasing_by
  all_goals exact decodePacket_rest_lt _hFramed

/-- `hold_bytes`, behind the check of the buffer. -/
def holdBytes (bytes : List UInt8) (conn : Conn Session) : Process :=
  if maxHoldBufferBytes < (conn.buffer ++ bytes).length then conn.stop .holdOverflow
  else holdScan env (conn.buffer ++ bytes) { conn with buffer := [] } []

/-- The arguments of the bind frame of `start_rebind`, which has no credentials. -/
def Session.bindInfo (session : Session) (peer : Option (List UInt8))
    (cert : Option (CertInfo (List UInt8))) : BindInfo (List UInt8) :=
  { clientId := session.clientId, cleanStart := false, keepalive := session.keepalive
    username := none, password := none, peer, aliasMax := session.clientAliasMax, cert
    will := session.will, v5 := session.v5Info }

def startRebind (conn : Conn Session) : Conn Session :=
  let info := conn.state.bindInfo (env.peer conn.frames.length) (env.cert conn.frames.length)
  if (encodeBindMeta env.isPeerIp info).isNone then
    { conn with state := { conn.state with rebinding := false } }
  else
    let sent := conn.send (.bind .rebind info)
    match conn.sendAnswer env with
    | none =>
      { sent.advance with
        state := { conn.state with
          subsPending := [], pubsPending := [], qos2Pending := [], quietSubs := []
          rebinding := true } }
    | some _ => { sent with state := { conn.state with rebinding := false } }

/-- The SUBSCRIBE metadata with which a tracked subscription is registered again. At level 4
only the QoS bits ride along. -/
def resubscribeMeta (session : Session) (filter : List UInt8) (tracked : Tracked) :
    Option (List UInt8) :=
  match session.protoLevel with
  | .v5 =>
    encodeSubscribeMetaV5 tracked.packetId session.clientId [(filter, tracked.opts)]
      tracked.subId
  | .v4 => encodeSubscribeMeta tracked.packetId session.clientId [(filter, tracked.opts % 4)]

/-- The fold of `resubscribe_all`, which ends at the first frame that fails. -/
def resubscribe : List (List UInt8 × Tracked) → Conn Session → Conn Session × Bool
  | [], conn => (conn, true)
  | (filter, tracked) :: rest, conn =>
    match resubscribeMeta conn.state filter tracked with
    | none => (conn, false)
    | some metadata =>
      let sent := conn.send (.request .subscribeIn metadata [])
      match conn.sendAnswer env with
      | none => resubscribe rest sent.advance
      | some _ => (sent, false)

/-- `resubscribe_all`. After a failure the sequence number is the one before. -/
def resubscribeAll (conn : Conn Session) : Conn Session × Bool :=
  let (last, all) := resubscribe env conn.state.subs conn
  if all then
    ({ last with
      state := { conn.state with
        quietSubs := conn.state.subs.foldl (fun quiet entry => mark entry.2.packetId quiet) [] } },
      true)
  else
    ({ conn with frames := last.frames, state := { conn.state with rebinding := false } }, false)

def handleRebindBinding (metadata : List UInt8) (conn : Conn Session) : Process :=
  match decodeSessionBindingMeta metadata with
  | none => conn.stop .kernelClose
  | some binding =>
    if binding.returnCode ≠ 0 then conn.stop .kernelClose
    else
      let bound : Conn Session :=
        { conn with
          state := { conn.state with sessionId := binding.sessionId, rebinding := false } }
      if binding.sessionPresent then drainBuffer env [] bound
      else
        let (next, all) := resubscribeAll env bound
        if all then drainBuffer env [] next else .awaitCore next

end Core

/-! ### Frames of the kernel -/

section Egress

variable (env : Env)

def writeThen (bytes : List UInt8) (next : Session → Session) (conn : Conn Session) : Process :=
  let written := conn.write bytes
  if conn.writeAnswer env then .connected { written with state := next conn.state }
  else written.stop .sendFailed

variable (metadata : List UInt8) (conn : Conn Session)

/-- A nonzero packet identifier, with what stands behind it. -/
def decodeIdMeta : Option (Nat × List UInt8) :=
  (takeUInt 2 metadata).bind fun taken => if taken.1 = 0 then none else some taken

/-- `handle_suback`. An echo of a subscription that was registered again is swallowed. -/
def handleSuback : Process :=
  match decodeIdMeta metadata with
  | none => conn.stop .protocolError
  | some (packetId, codes) =>
    if packetId ∈ conn.state.quietSubs then
      .connected { conn with
        state := { conn.state with quietSubs := conn.state.quietSubs.erase packetId } }
    else if packetId ∈ conn.state.subsPending then
      let suback :=
        match conn.state.protoLevel with
        | .v5 => encodeSubackV5 (UInt16.ofNat packetId) codes
        | .v4 => encodeSuback (UInt16.ofNat packetId) codes
      match suback with
      | none => conn.crash
      | some bytes =>
        writeThen env bytes (fun session =>
          { session with subsPending := session.subsPending.erase packetId }) conn
    else .connected conn

def handlePubackOut : Process :=
  match decodeIdMeta metadata with
  | some (packetId, [_]) =>
    if packetId ∈ conn.state.pubsPending then
      writeThen env (0x40 :: 0x02 :: bigEndian 2 packetId) (fun session =>
        { session with pubsPending := session.pubsPending.erase packetId }) conn
    else .connected conn
  | _ => conn.stop .protocolError

/-- `handle_pubrec_out`. A reason other than zero follows the identifier. -/
def handlePubrecOut : Process :=
  match decodeIdMeta metadata with
  | some (packetId, []) => writeThen env (0x50 :: 0x02 :: bigEndian 2 packetId) id conn
  | some (packetId, [reason]) =>
    if reason = 0 then writeThen env (0x50 :: 0x02 :: bigEndian 2 packetId) id conn
    else writeThen env (0x50 :: 0x03 :: (bigEndian 2 packetId ++ [reason])) id conn
  | _ => conn.stop .protocolError

def handlePubrelOut : Process :=
  match decodeIdMeta metadata with
  | some (packetId, []) => writeThen env (0x62 :: 0x02 :: bigEndian 2 packetId) id conn
  | _ => conn.stop .protocolError

def handlePubcompOut : Process :=
  match decodeIdMeta metadata with
  | some (packetId, []) =>
    writeThen env (0x70 :: 0x02 :: bigEndian 2 packetId) (fun session =>
      { session with qos2Pending := session.qos2Pending.erase packetId }) conn
  | _ => conn.stop .protocolError

/-- A close that the kernel orders. A version 5 client is told the reason, if there is one. -/
def handleConnClose : Process :=
  match conn.state.protoLevel, metadata with
  | .v5, [reason] =>
    let packet := if reason = 0 then [0xE0, 0x00] else [0xE0, 0x02, reason, 0x00]
    (conn.write packet).stop .kernelClose
  | _, _ => conn.stop .kernelClose

/-- `flush_pending` of one run of deliveries, which are given as the packets of the client, and
the credit frame that may follow it. -/
def handleRun (packets : List (List UInt8)) (credit : Option (List UInt8)) (conn : Conn Session) :
    Process :=
  if packets.isEmpty then .connected conn
  else
    let written := conn.write packets.flatten
    if !conn.writeAnswer env then written.stop .sendFailed
    else
      match credit with
      | none => .connected written
      | some metadata =>
        let sent := written.send (.request .credit metadata [])
        match written.sendAnswer env with
        | none => .connected sent.advance
        | some _ => .connected sent

end Egress

/-! ### Events -/

inductive KernelOpcode where
  | sessionBinding
  | subackOut
  | pubackOut
  | pubrecOut
  | pubrelOut
  | pubcompOut
  | connClose
  | other
  deriving DecidableEq

inductive Event where
  | tcp (bytes : List UInt8)
  | tcpClosed
  | tcpError
  | brokerUp (pid : Nat) (pinnedAlive : Bool) (own : Option Nat)
  | brokerDown (pid : Option Nat)
  | brokerFrame (opcode : KernelOpcode) (metadata : List UInt8)
  | publishRun (packets : List (List UInt8)) (credit : Option (List UInt8))
  | connectTimeout
  | keepaliveTimeout
  deriving DecidableEq

section Events

variable {σ : Type} (env : Env)

def Conn.isOtherShard (conn : Conn σ) (pid : Nat) : Bool :=
  pid ≠ conn.broker ∧ pid ∈ conn.brokers

/-- The data with the replacement of the pinned shard: `adopt_broker` where there is one shard,
and `classify_unknown` with `replace_shard` where there are several. -/
def Conn.adopt (conn : Conn σ) (pid : Nat) (pinnedAlive : Bool) (own : Option Nat) :
    Option (Conn σ) :=
  if conn.brokers.length = 1 then some { conn with broker := pid, brokers := [pid] }
  else if pinnedAlive then none
  else
    own.map fun own => { conn with broker := own, brokers := conn.brokers.set conn.shard own }

/-- What the announcement of a core does while the connection waits for its CONNECT. -/
def brokerUpAwaitConnect (pid : Nat) (pinnedAlive : Bool) (own : Option Nat)
    (conn : Conn (Option Pending)) : Conn (Option Pending) :=
  if conn.isOtherShard pid ∨ pid = conn.broker then conn
  else
    match conn.adopt pid pinnedAlive own with
    | none => conn
    | some adopted =>
      match adopted.state with
      | none => adopted
      | some pending => resendBind env pending adopted

def brokerUpConnected (pid : Nat) (pinnedAlive : Bool) (own : Option Nat) (conn : Conn Session) :
    Process :=
  if conn.isOtherShard pid ∨ pid = conn.broker then .connected conn
  else
    match conn.adopt pid pinnedAlive own with
    | none => .connected conn
    | some adopted => .awaitCore (startRebind env adopted)

def rebindOnce (conn : Conn Session) : Conn Session :=
  if conn.state.rebinding then conn else startRebind env conn

def brokerUpAwaitCore (pid : Nat) (pinnedAlive : Bool) (own : Option Nat) (conn : Conn Session) :
    Conn Session :=
  if conn.isOtherShard pid then conn
  else if pid = conn.broker then rebindOnce env conn
  else
    match conn.adopt pid pinnedAlive own with
    | none => conn
    | some adopted => rebindOnce env adopted

def stepAwaitConnect (event : Event) (conn : Conn (Option Pending)) : Process :=
  match event with
  | .tcp bytes => handleConnectBytes env (conn.buffer ++ bytes) { conn with buffer := [] }
  | .tcpClosed => conn.stop .peerClosed
  | .tcpError => conn.stop .tcpError
  | .brokerUp pid pinnedAlive own => .awaitConnect (brokerUpAwaitConnect env pid pinnedAlive own conn)
  | .brokerFrame .sessionBinding metadata => handleSessionBinding env metadata conn
  | .connectTimeout => conn.stop .connectTimeout
  | _ => .awaitConnect conn

def stepConnected (event : Event) (conn : Conn Session) : Process :=
  match event with
  | .tcp bytes => drainBuffer env bytes conn
  | .tcpClosed => conn.stop .peerClosed
  | .tcpError => conn.stop .tcpError
  | .brokerUp pid pinnedAlive own => brokerUpConnected env pid pinnedAlive own conn
  | .brokerDown none => .awaitCore conn
  | .brokerDown (some pid) => if pid = conn.broker then .awaitCore conn else .connected conn
  | .brokerFrame .subackOut metadata => handleSuback env metadata conn
  | .brokerFrame .pubackOut metadata => handlePubackOut env metadata conn
  | .brokerFrame .pubrecOut metadata => handlePubrecOut env metadata conn
  | .brokerFrame .pubrelOut metadata => handlePubrelOut env metadata conn
  | .brokerFrame .pubcompOut metadata => handlePubcompOut env metadata conn
  | .brokerFrame .connClose metadata => handleConnClose metadata conn
  | .publishRun packets credit => handleRun env packets credit conn
  | .keepaliveTimeout => conn.stop .keepaliveTimeout
  | _ => .connected conn

def stepAwaitCore (event : Event) (conn : Conn Session) : Process :=
  match event with
  | .tcp bytes => holdBytes env bytes conn
  | .tcpClosed => conn.stop .peerClosed
  | .tcpError => conn.stop .tcpError
  | .brokerUp pid pinnedAlive own => .awaitCore (brokerUpAwaitCore env pid pinnedAlive own conn)
  | .brokerFrame .sessionBinding metadata => handleRebindBinding env metadata conn
  | _ => .awaitCore conn

def handleEvent (process : Process) (event : Event) : Process :=
  match process with
  | .awaitConnect conn => stepAwaitConnect env event conn
  | .connected conn => stepConnected env event conn
  | .awaitCore conn => stepAwaitCore env event conn
  | .ended cause frames writes => .ended cause frames writes

def run (events : List Event) (process : Process) : Process := events.foldl (handleEvent env) process

def Conn.init (connId : Nat) (shards : List Nat) (pskIdentity : Option (List UInt8)) :
    Conn (Option Pending) :=
  { broker := shards.getD (connId % shards.length) 0, brokers := shards
    shard := connId % shards.length, seq := 0, buffer := [], pskIdentity, state := none
    frames := [], writes := [] }

end Events

end IndraMqtt.Edge

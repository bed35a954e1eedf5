import IndraMqtt.Kernel.Step
import IndraMqtt.Lib.ReadBuffer
import IndraMqtt.Link.BindMeta
import IndraMqtt.Link.PublishMeta
import IndraMqtt.Wire.Connect
import IndraMqtt.Wire.PublishOut

/-! The ingress side of one native connection. Each read of the socket grows a buffer, every
complete packet in it becomes a frame for the kernel, and the rest waits for the next read.
The packets that a stream gives do not depend on its reads, as long as the kernel does not
order the connection closed between two of them. -/

namespace IndraMqtt.Wire

variable {buf : List UInt8}

/-- A number that is there, or too long, stays so when more bytes come. -/
theorem decodeVarintLoop_append {left index value : Nat}
    (hEnough : left ≤ buf.length ∨ (decodeVarintLoop left index value buf).isSome)
    (more : List UInt8) :
    decodeVarintLoop left index value (buf ++ more) = decodeVarintLoop left index value buf := by
  induction left generalizing index value buf with
  | zero => rfl
  | succ left ih =>
    cases buf with
    | nil =>
      rcases hEnough with hLength | hSome
      · exact absurd hLength (Nat.not_succ_le_zero left)
      · cases hSome
    | cons byte buf => grind [decodeVarintLoop]

/-- What the fixed header says does not depend on the bytes behind it. -/
theorem fixedHeader_more (hThere : fixedHeader buf ≠ .ok none) (more : List UInt8) :
    fixedHeader (buf ++ more) = fixedHeader buf := by
  cases buf with
  | nil => exact absurd rfl hThere
  | cons first buf =>
    grind [fixedHeader, decodeVarint, decodeVarintLoop_append]

theorem FixedHeader.packetLen_pos {header : FixedHeader}
    (hHeader : fixedHeader buf = .ok (some header)) : 0 < header.packetLen := by
  cases buf with
  | nil => cases hHeader
  | cons first buf =>
    rw [fixedHeader] at hHeader
    split at hHeader
    · cases hHeader
    · cases hHeader
    · dsimp only at hHeader
      split at hHeader
      · cases hHeader
      · split at hHeader
        · cases hHeader
        · cases hHeader
          exact Nat.add_pos_left (Nat.add_pos_left Nat.one_pos _) _

end IndraMqtt.Wire

namespace IndraMqtt.Native

open Bytes Protocol Kernel ReadBuffer
open Wire (WireError FixedHeader fixedHeader)

/-! ### The frames of a connection -/

inductive OpCode where
  | bindConnection
  | unbindConnection
  | publishIn
  | pubAckIn
  | pubRecIn
  | pubRelIn
  | pubCompIn
  | subscribeIn
  deriving DecidableEq

structure InboundFrame extends BrokerFrame where
  opcode : OpCode
  deriving DecidableEq

inductive Stop where
  | clean
  | abnormal
  deriving DecidableEq

structure Conn where
  connId : Nat
  seq : Nat
  level : Nat
  clientId : Str
  connected : Bool
  keepalive : Option Nat
  peer : Str
  deriving DecidableEq

namespace Conn

def frame (conn : Conn) (opcode : OpCode) (metadata payload : List UInt8) :
    Conn × Option InboundFrame :=
  let seq := conn.seq + 1
  ({ conn with seq },
    if metadata.length ≤ maxMetaLen ∧ payload.length ≤ 4294967295 then
      some { opcode, connId := conn.connId, sequenceNo := seq, metadata, payload }
    else none)

def idMeta (conn : Conn) : List UInt8 :=
  bigEndian 2 (asBytes conn.clientId).length ++ asBytes conn.clientId

def maxConnectPacketBytes : Nat := 64 * 1024
def maxPacketBytes : Nat := 1024 * 1024

def limit (conn : Conn) : Nat :=
  if conn.connected then min maxPacketBytes serverV5MaxPacketSize else maxConnectPacketBytes

end Conn

def bindRequest (connect : Wire.Connect) (peer : Str) : BindRequest :=
  let props := connect.properties
  { clientId := connect.clientId
    cleanStart := connect.cleanStart
    keepaliveSecs := connect.keepalive.toNat
    username := connect.username
    password := connect.password
    peerhost := some peer
    clientAliasMax := ((props.bind (·.topicAliasMaximum)).getD 0).toNat
    will := connect.will.map fun will =>
      { topic := will.topic, payload := will.payload, qos := will.qos, retain := will.retain }
    certCn := none
    certSubject := none
    certSans := []
    protocolVersion := if connect.level = 5 then 5 else 4
    sessionExpiry := ((props.bind (·.sessionExpiry)).getD 0).toNat
    receiveMaximum := ((props.bind (·.receiveMaximum)).getD 65535).toNat
    maxPacketSize := ((props.bind (·.maximumPacketSize)).getD 0).toNat
    userProperties := props.map fun props =>
      props.userProperties.foldl (fun map pair => Link.insertProperty pair.1 pair.2 map) [] }

/-! ### The loop over the buffer -/

/-- What the frames of one answer do to the sink, and whether the kernel took the frame. -/
structure Answer where
  ok : Bool
  accepted : Bool
  close : Bool

/-- The kernel as one connection sees it. `waiting` says that the frames that wait for the
connection tell it to close, which the egress pass behind a read finds. -/
structure Node (σ : Type) where
  handle : σ → InboundFrame → Option BindRequest → σ × Answer
  waiting : σ → Bool

structure ConnTask (σ : Type) where
  conn : Conn
  accepted : Bool
  close : Bool
  kernel : σ

inductive Ending where
  | stopped (stop : Stop)
  | failed (reason : WireError)
  deriving DecidableEq

inductive Handled (σ : Type) where
  | goOn (next : ConnTask σ)
  | ended (last : ConnTask σ) (ending : Ending)

section

variable {σ : Type} (node : Node σ)

namespace ConnTask

def new (connId : Nat) (peer : Str) (kernel : σ) : ConnTask σ where
  conn := { connId, seq := 0, level := 4, clientId := [], connected := false, keepalive := none,
            peer }
  accepted := false
  close := false
  kernel := kernel

def handle (task : ConnTask σ) (frame : InboundFrame) (request : Option BindRequest) :
    ConnTask σ × Bool :=
  let (kernel, answer) := node.handle task.kernel frame request
  ({ task with
      accepted := task.accepted || answer.accepted
      close := task.close || answer.close
      kernel },
    answer.ok)

variable (task : ConnTask σ)

def forward (opcode : OpCode) (metadata payload : List UInt8) : Handled σ :=
  let (conn, frame) := task.conn.frame opcode metadata payload
  let task := { task with conn }
  match frame with
  | none => .ended task (.failed (.malformed "frame"))
  | some frame =>
    let (task, ok) := task.handle node frame none
    if ok then .goOn task else .ended task (.stopped .abnormal)

def onConnect (body : List UInt8) : Handled σ :=
  if task.conn.connected ∨ task.conn.clientId ≠ [] then
    .ended task (.failed (.malformed "second CONNECT"))
  else
    match Wire.decodeConnect body with
    | .error reason => .ended task (.failed reason)
    | .ok connect =>
      let request := bindRequest connect task.conn.peer
      let conn := { task.conn with
        level := if connect.level = 5 then 5 else 4
        keepalive := if 0 < connect.keepalive then some (connect.keepalive.toNat * 1500) else none
        clientId := request.clientId }
      let (conn, frame) := conn.frame .bindConnection [] []
      let task := { task with conn }
      match frame with
      | none => .ended task (.failed (.malformed "frame"))
      | some frame =>
        let (task, ok) := task.handle node frame (some request)
        if !ok then .ended task (.stopped .abnormal)
        else if task.accepted then
          .goOn { task with conn := { task.conn with connected := true } }
        -- refused: the CONNACK with the reason is in the sink
        else .ended task (.stopped .clean)

def onAck (opcode : OpCode) (body : List UInt8) : Handled σ :=
  match Wire.decodeAck body task.conn.level with
  | .error reason => .ended task (.failed reason)
  | .ok (packetId, reason) =>
    task.forward node opcode
      (bigEndian 2 packetId.toNat ++ if reason ≠ 0 then [reason] else []) []

/-- The branch of a DISCONNECT. The kernel's result is not looked at. -/
def onDisconnect (body : List UInt8) : Handled σ :=
  match Wire.decodeDisconnect body task.conn.level with
  | .error reason => .ended task (.failed reason)
  | .ok reason =>
    let (conn, frame) := task.conn.frame .unbindConnection
      (task.conn.idMeta ++ if task.conn.level = 5 then [reason] else []) []
    let task := { task with conn }
    let task := match frame with
      | some frame => (task.handle node frame none).1
      | none => task
    .ended { task with conn := { task.conn with connected := false } } (.stopped .clean)

/-- The body of the loop of `drain_inbound` behind `split_to`. -/
def onPacket (header : FixedHeader) (body : List UInt8) : Handled σ :=
  let level := task.conn.level
  if !task.conn.connected && header.kind != 1 then
    .ended task (.failed (.malformed "first packet is not CONNECT"))
  else if header.kind = 1 then task.onConnect node body
  else if header.kind = 3 then
    match Wire.decodePublish header.flags body level with
    | .error reason => .ended task (.failed reason)
    | .ok publish => task.forward node .publishIn (publishInMeta publish level) publish.payload
  else if header.kind = 8 then
    match Wire.decodeSubscribe body level with
    | .error reason => .ended task (.failed reason)
    | .ok subscribe =>
      task.forward node .subscribeIn (subscribeInMeta task.conn.clientId subscribe level) []
  else if header.kind = 4 then task.onAck node .pubAckIn body
  else if header.kind = 5 then task.onAck node .pubRecIn body
  else if header.kind = 6 then task.onAck node .pubRelIn body
  else if header.kind = 7 then task.onAck node .pubCompIn body
  else if header.kind = 12 then .goOn task
  else if header.kind = 14 then task.onDisconnect node body
  else .ended task (.failed (.unsupported "packet type"))

def look (inbuf : List UInt8) : Look (ConnTask σ) (List UInt8) Ending UInt8 :=
  match fixedHeader inbuf with
  | .error reason => .ending task none (.failed reason)
  | .ok none => .wait
  | .ok (some header) =>
    if task.conn.limit < header.packetLen then
      .ending task none (.failed (.unsupported "packet is too large"))
    else if inbuf.length < header.packetLen then .wait
    else
      let packet := inbuf.take header.packetLen
      match task.onPacket node header (packet.drop header.headerLen) with
      | .goOn next => .packet next packet (inbuf.drop header.packetLen)
      | .ended last ending => .ending last (some packet) ending

def closes : Bool := task.close || node.waiting task.kernel

/-- Every look that does not wait has its whole packet, or an error that no byte changes. -/
theorem look_append {task : ConnTask σ} {inbuf : List UInt8} (more : List UInt8)
    (hLook : look node task inbuf ≠ .wait) : look node task (inbuf ++ more) =
      match look node task inbuf with
      | .wait => .wait
      | .packet next packet rest => .packet next packet (rest ++ more)
      | .ending last packet reason => .ending last packet reason := by
  have hThere : fixedHeader inbuf ≠ .ok none := by
    intro hNone
    apply hLook
    rw [look, hNone]
  rw [look, look, Wire.fixedHeader_more hThere]
  cases hHeader : fixedHeader inbuf with
  | error reason => rfl
  | ok found =>
    cases found with
    | none => exact absurd hHeader hThere
    | some header =>
      by_cases hLimit : task.conn.limit < header.packetLen
      · simp [hLimit]
      · have hWhole : ¬ inbuf.length < header.packetLen := by
          intro hShort
          apply hLook
          simp only [look, hHeader, hLimit, hShort, if_true, if_false]
        grind

end ConnTask

def drainInbound : Extractor (ConnTask σ) (List UInt8) Ending UInt8 where
  look := ConnTask.look node
  shrinks := by
    intro task inbuf next packet rest hLook
    rw [ConnTask.look] at hLook
    cases hHeader : fixedHeader inbuf with
    | error reason => simp [hHeader] at hLook
    | ok found => grind [FixedHeader.packetLen_pos]
  packet_append := by
    intro task inbuf next packet rest hLook more
    rw [ConnTask.look_append node more (by simp [hLook]), hLook]
  ending_append := by
    intro task inbuf last packet reason hLook more
    rw [ConnTask.look_append node more (by simp [hLook]), hLook]

/-- `run_connection` on the reads of a socket: what it extracts, and the reads that it does not
make. -/
def runConnection (task : ConnTask σ) (reads : List (List UInt8)) :
    Extraction (ConnTask σ) (List UInt8) Ending UInt8 × List (List UInt8) :=
  run (drainInbound node) (ConnTask.closes node) (.start task) reads

/-- No order to close left reads of the stream out. -/
def Whole (result : Extraction (ConnTask σ) (List UInt8) Ending UInt8 × List (List UInt8)) : Prop :=
  result.2 = [] ∨ result.1.reason.isSome

variable (task : ConnTask σ)

theorem runConnection_one (bytes : List UInt8) :
    (runConnection node task [bytes]).1 = feed (drainInbound node) (.start task) bytes := by
  rw [runConnection, run]
  split <;> rfl

/-- A connection that reads nothing has taken nothing off its stream. -/
theorem feed_start_nil : feed (drainInbound node) (.start task) [] = .start task :=
  congrArg (Extraction.after []) (drain_wait (drainInbound node) rfl)

/-- What the listener takes off a stream is what it takes off the bytes that it read when they
come in one read. It leaves reads out only behind the end of the connection or an order of the
kernel to close, and without such an order every way of splitting the stream gives the packets,
and the error, of one read. -/
theorem packets_of_stream (reads : List (List UInt8)) :
    (∃ made, reads = made ++ (runConnection node task reads).2 ∧
      (runConnection node task reads).1 = (runConnection node task [made.flatten]).1) ∧
    ((runConnection node task reads).2 ≠ [] →
      (runConnection node task reads).1.reason.isSome ∨
        (runConnection node task reads).1.state.closes node) ∧
    (Whole (runConnection node task reads) →
      (runConnection node task reads).1 = (runConnection node task [reads.flatten]).1) := by
  cases reads with
  | nil =>
    refine ⟨⟨[], rfl, ?_⟩, fun hLeft => absurd rfl hLeft, fun _ => ?_⟩ <;>
    · rw [List.flatten_nil, runConnection_one, feed_start_nil]
      rfl
  | cons first reads =>
    obtain ⟨made, hReads, hRun, hLeft⟩ :=
      run_spec (drainInbound node) (ConnTask.closes node) (.start task) first reads
    refine ⟨⟨first :: made, congrArg (first :: ·) hReads, ?_⟩, hLeft, fun hWhole => ?_⟩
    · rw [runConnection_one, List.flatten_cons]
      exact hRun
    · rw [runConnection_one]
      exact run_eq_feed (drainInbound node) (ConnTask.closes node) hWhole

end

/-! ### The listener on the kernel -/

def decodePubackMeta (metadata : List UInt8) : Option UInt16 :=
  (takeUInt 2 metadata).bind fun taken =>
    if taken.1 = 0 then none else some (UInt16.ofNat taken.1)

def decodeUnbindMeta (metadata : List UInt8) : Option (Str × Option UInt8) :=
  (takeBlock metadata).bind fun taken =>
    if taken.2.length ≤ 1 then (fromUtf8 taken.1).map fun clientId => (clientId, taken.2.head?)
    else none

def subscribeIn (metadata : List UInt8) : Option SubscribeIn :=
  (Link.decodeSubscribeMeta metadata).bind fun (packetId, clientId, entries) =>
    if hFits : packetId ≠ 0 ∧ entries.length ≤ 65535 then
      some { packetId, clientId, entries, packetId_ne_zero := hFits.1, entries_le := hFits.2 }
    else none

/-- The event of the kernel that a frame stands for. A frame whose metadata is not well formed
stands for none. -/
def eventOf (frame : InboundFrame) (request : Option BindRequest) : Option Event :=
  match frame.opcode with
  | .bindConnection =>
    request.map fun request => .bind frame.connId (.ok request) (request.protocolVersion == 5)
  | .publishIn =>
    (Link.decodePublishMeta frame.metadata frame.payload).map (.publish frame.connId)
  | .subscribeIn => (subscribeIn frame.metadata).map (.subscribe frame.connId)
  | .pubAckIn => (decodePubackMeta frame.metadata).map (.puback frame.connId)
  | .pubRecIn => (decodePubackMeta frame.metadata).map (.pubrec frame.connId)
  | .pubRelIn => (decodePubackMeta frame.metadata).map (.pubrel frame.connId)
  | .pubCompIn => (decodePubackMeta frame.metadata).map (.pubcomp frame.connId)
  | .unbindConnection =>
    let unbind := decodeUnbindMeta frame.metadata
    some (.unbind frame.connId (unbind.map (·.1)) ((unbind.bind (·.2)) == some 0x04))

def accepts : OutFrame → Bool
  | .sessionBinding _ _ returnCode _ _ => returnCode == 0
  | _ => false

def closesSocket : OutFrame → Bool
  | .sessionBinding _ _ returnCode _ _ => returnCode != 0
  | .connClose _ => true
  | _ => false

/-- The kernel behind the listener. The flag says that a frame that closes waits in the mailbox
of the connection. Replies go straight to the sink. A panic ends the task. -/
def kernelNode (env : Kernel.Env) : Node (Shared × Bool) where
  handle state frame request :=
    match eventOf frame request with
    | none => (state, { ok := true, accepted := false, close := false })
    | some event =>
      match step state.1 (env, event) with
      | none => (state, { ok := false, accepted := false, close := false })
      | some (shared, effects) =>
        let ordered := effects.routed.any fun delivery =>
          delivery.1 == frame.connId && closesSocket delivery.2
        ((shared, state.2 || ordered),
          { ok := true, accepted := effects.replies.any accepts
            close := effects.replies.any closesSocket })
  waiting state := state.2

def newConnection : ConnTask (Shared × Bool) :=
  .new 7 "10.0.0.7".toList (.start .new, false)

def connectPacket : List UInt8 :=
  [0x10, 14, 0, 4, 0x4D, 0x51, 0x54, 0x54, 5, 0x02, 0, 60, 0, 0, 1, 0x63]

def aliasZeroPacket : List UInt8 := [0x30, 7, 0, 1, 0x61, 3, 35, 0, 0]

def pingreqPacket : List UInt8 := [0xC0, 0]

/-- The reads may split a packet anywhere, also inside its fixed header. -/
theorem connect_split :
    (runConnection (kernelNode .plain) newConnection
        [[0x10], connectPacket.tail ++ [0xC0], [0]]).1 =
      (runConnection (kernelNode .plain) newConnection [connectPacket ++ pingreqPacket]).1 ∧
    (runConnection (kernelNode .plain) newConnection
        [[0x10], connectPacket.tail ++ [0xC0], [0]]).1.packets =
      [connectPacket, pingreqPacket] := by
  have hWhole : Whole (runConnection (kernelNode .plain) newConnection
      [[0x10], connectPacket.tail ++ [0xC0], [0]]) := Or.inl (by decide +kernel)
  exact ⟨(packets_of_stream (kernelNode .plain) newConnection _).2.2 hWhole, by decide +kernel⟩

/-- The kernel orders the connection closed for a topic alias of 0. A packet behind it is
handled when it came in the same read, and not when it comes in the next one. -/
theorem close_hides_packet :
    (runConnection (kernelNode .plain) newConnection
        [connectPacket ++ aliasZeroPacket ++ pingreqPacket]).1.packets =
      [connectPacket, aliasZeroPacket, pingreqPacket] ∧
    (runConnection (kernelNode .plain) newConnection
        [connectPacket ++ aliasZeroPacket, pingreqPacket]).1.packets =
      [connectPacket, aliasZeroPacket] := by
  decide +kernel

end IndraMqtt.Native

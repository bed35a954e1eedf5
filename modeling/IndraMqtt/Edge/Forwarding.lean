import IndraMqtt.Edge.Conn

/-! What a connected client gets through to the kernel. A request that the codec decodes is
handed to the link, unless an encoder of the link raises on it. An acknowledgement is handed on
only in its shortest form. -/
namespace IndraMqtt.Edge

open Bytes

variable {packetId : Nat}

/-! ### SUBSCRIBE and PUBLISH -/

inductive Request where
  | subscribe (sub : Subscribe)
  | publish (pub : Publish)
  deriving DecidableEq

def decodeRequest (level : ProtoLevel) (packet : Packet) : Option Request :=
  if packet.type = 8 then (decodeSubscribe packet.payload level).toOption.map .subscribe
  else if packet.type = 3 then
    (decodePublish packet.payload packet.flags level).toOption.map .publish
  else none

def Request.Encodable (level : ProtoLevel) : Request → Prop
  | .subscribe sub => sub.Encodable level
  | .publish pub => pub.Encodable level

/-- The handler hands a frame to the link, which takes it or sheds it, or it stops the
connection with a cause. -/
def Outcome.ForwardsOrCloses (env : Env) (before : Conn Session) : Outcome → Prop
  | .ok next =>
    (∃ frame, next.frames = before.frames ++ [frame]) ∧
      (before.sendAnswer env = none ∨ before.sendAnswer env = some .overloaded)
  | .stop _ _ => True
  | .raise _ => False

theorem toOption_eq_some {ε α : Type} {x : Except ε α} {a : α} (hSome : x.toOption = some a) :
    x = .ok a := by
  cases x with
  | error reason => cases hSome
  | ok found =>
    cases hSome
    rfl

variable (env : Env) (kind : AckKind) (conn : Conn Session)

theorem handleSubscribePacket_forwards_iff {payload : List UInt8} {sub : Subscribe}
    (hSub : decodeSubscribe payload conn.state.protoLevel = .ok sub) :
    (handleSubscribePacket env payload conn).ForwardsOrCloses env conn ↔
      sub.Encodable conn.state.protoLevel := by
  grind [subscribeMeta_isSome_iff, decodeSubscribe_sound, handleSubscribePacket,
    Outcome.ForwardsOrCloses, Conn.send, Conn.advance]

theorem handlePublishPacket_forwards_iff {payload : List UInt8} {flags : Nat} {pub : Publish}
    (hPub : decodePublish payload flags conn.state.protoLevel = .ok pub) :
    (handlePublishPacket env payload flags conn).ForwardsOrCloses env conn ↔
      pub.Encodable conn.state.protoLevel := by
  rw [← publishMeta_isSome_iff (decodePublish_sound hPub)]
  cases hMeta : publishMeta conn.state.protoLevel pub with
  | none => simp [handlePublishPacket, hPub, hMeta, Outcome.ForwardsOrCloses]
  | some metadata => grind [handlePublishPacket, Outcome.ForwardsOrCloses, Conn.send, Conn.advance]

/-- A decoded request is forwarded, or the connection is closed, exactly when the link can
express the request. On every other request the handler raises. -/
theorem request_forwarded_iff (env : Env) (packet : Packet) (conn : Conn Session)
    {request : Request} (hRequest : decodeRequest conn.state.protoLevel packet = some request) :
    (handleMqttPacket env packet conn).ForwardsOrCloses env conn ↔
      request.Encodable conn.state.protoLevel := by
  unfold decodeRequest at hRequest
  split at hRequest
  · next hSubscribe =>
    obtain ⟨sub, hSub, rfl⟩ := Option.map_eq_some_iff.mp hRequest
    rw [handleMqttPacket, if_pos hSubscribe]
    exact handleSubscribePacket_forwards_iff env conn (toOption_eq_some hSub)
  · next hOther =>
    split at hRequest
    · next hPublish =>
      obtain ⟨pub, hPub, rfl⟩ := Option.map_eq_some_iff.mp hRequest
      rw [handleMqttPacket, if_neg hOther, if_pos hPublish]
      exact handlePublishPacket_forwards_iff env conn (toOption_eq_some hPub)
    · cases hRequest

def Env.steady : Env :=
  { isPeerIp := fun _ => true, link := fun _ => none, socket := fun _ => true
    peer := fun _ => none, cert := fun _ => none }

def freshConn (level : ProtoLevel) : Conn Session :=
  { broker := 1, brokers := [1], shard := 0, seq := 1, buffer := [], pskIdentity := none
    state :=
      { sessionId := 1, clientId := [0x61], keepalive := 0, will := none, protoLevel := level
        v5Info := none, clientAliasMax := 0, subs := [], subsPending := [], pubsPending := []
        qos2Pending := [], quietSubs := [], rebinding := false, qos0Dropped := 0 }
    frames := [], writes := [] }

def subscribeToA : Packet := { type := 8, flags := 2, payload := [0, 1, 0, 0, 1, 0x61, 0] }

theorem subscribe_to_a_forwarded :
    (handleMqttPacket .steady subscribeToA (freshConn .v5)).ForwardsOrCloses .steady
      (freshConn .v5) := by
  have hRequest : decodeRequest (freshConn .v5).state.protoLevel subscribeToA =
      some (.subscribe { packetId := 1, subscriptions := [([0x61], 0)], subId := 0 }) := by
    decide +kernel
  apply (request_forwarded_iff .steady subscribeToA (freshConn .v5) hRequest).mpr
  exact ⟨by decide, fun _ => by decide⟩

def raisesOn (packet : Packet) : Bool :=
  (decodeRequest conn.state.protoLevel packet).isSome &&
    match handleMqttPacket .steady packet conn with
    | .raise _ => true
    | _ => false

/-- An empty filter, an empty topic with the alias zero, and a user property with an empty
key. -/
theorem decoded_requests_raise :
    raisesOn (freshConn .v5) { type := 8, flags := 2, payload := [0, 1, 0, 0, 0, 0] } = true ∧
      raisesOn (freshConn .v5) { type := 3, flags := 0, payload := [0, 0, 3, 35, 0, 0] } = true ∧
      raisesOn (freshConn .v5)
        { type := 3, flags := 0, payload := [0, 1, 0x61, 5, 38, 0, 0, 0, 0] } = true := by
  decide +kernel

/-! ### Acknowledgements -/

inductive AckKind where
  | puback
  | pubrec
  | pubrel
  | pubcomp

def AckKind.type : AckKind → Nat
  | .puback => 4
  | .pubrec => 5
  | .pubrel => 6
  | .pubcomp => 7

def AckKind.opcode : AckKind → Opcode
  | .puback => .pubackIn
  | .pubrec => .pubrecIn
  | .pubrel => .pubrelIn
  | .pubcomp => .pubcompIn

/-- `decode_puback_meta` and `decode_qos2_meta` of the kernel, which read the identifier in the
same way. -/
def kernelAckId (metadata : List UInt8) : Option Nat :=
  (takeUInt 2 metadata).bind fun taken => if taken.1 = 0 then none else some taken.1

/-- The handler hands a frame of the kind to the link in which the kernel finds the packet
identifier. -/
def ForwardsAck (packetId : Nat) (before after : Conn Session) : Prop :=
  ∃ metadata, after.frames = before.frames ++
      [{ broker := before.broker, seq := before.seq + 1, body := .request kind.opcode metadata [] }] ∧
    kernelAckId metadata = some packetId

def AckKind.encode : AckKind → Nat → Option (List UInt8)
  | .puback => fun packetId => encodePubackMeta packetId 0
  | .pubrec => encodePubrecMeta
  | .pubrel => encodePubrelMeta
  | .pubcomp => encodePubcompMeta

theorem handleMqttPacket_ack (flags : Nat) (body : List UInt8) (conn : Conn Session) :
    handleMqttPacket env { type := kind.type, flags, payload := body } conn =
      handleAck env kind.opcode kind.encode body conn := by
  cases kind <;> rfl

theorem kernelAckId_bigEndian (rest : List UInt8) (hPos : 1 ≤ packetId) (hLt : packetId ≤ 65535) :
    kernelAckId (bigEndian 2 packetId ++ rest) = some packetId := by
  have hTake := (reads_takeUInt 2).append (x := packetId) (by omega) rest
  simp only [kernelAckId, hTake, Option.bind_some]
  exact if_neg (by omega)

/-- The kernel reads back the identifier that an acknowledgement is encoded with. -/
theorem AckKind.encode_spec (hPos : 1 ≤ packetId) (hLt : packetId ≤ 65535) :
    ∃ metadata, kind.encode packetId = some metadata ∧ kernelAckId metadata = some packetId := by
  have hAlone : ∃ metadata, encodePacketIdMeta packetId = some metadata ∧
      kernelAckId metadata = some packetId := by
    have hRead := kernelAckId_bigEndian [] hPos hLt
    rw [List.append_nil] at hRead
    exact ⟨bigEndian 2 packetId, if_pos ⟨hPos, hLt⟩, hRead⟩
  cases kind with
  | puback =>
    exact ⟨bigEndian 2 packetId ++ bigEndian 1 0, if_pos ⟨hPos, hLt, by decide⟩,
      kernelAckId_bigEndian _ hPos hLt⟩
  | pubrec => exact hAlone
  | pubrel => exact hAlone
  | pubcomp => exact hAlone

/-- The packet identifier of the native listener is the number in the first two bytes. -/
theorem takeUInt_of_packetIdentifier {body rest : List UInt8} {packetId : UInt16}
    (hId : Wire.packetIdentifier body = .ok (packetId, rest)) :
    takeUInt 2 body = some (packetId.toNat, rest) ∧ 1 ≤ packetId.toNat := by
  have hNonzero := Wire.packetIdentifier_ne_zero hId
  obtain ⟨taken, hTaken, hSame⟩ := bind_eq_ok.mp hId
  obtain ⟨⟨value, left⟩, hNeed, rfl⟩ := map_eq_ok.mp hTaken
  have hTake := Wire.Reader.need_eq_ok hNeed
  have hLt : value < 65536 := (((reads_takeUInt 2).law _ _ _).mp hTake).1
  split at hSame
  · cases hSame
  · cases hSame
    have hValue : (UInt16.ofNat value).toNat = value := UInt16.toNat_ofNat_of_lt' hLt
    rw [hValue, hTake]
    have hPos : value ≠ 0 := by
      rintro rfl
      exact hNonzero rfl
    exact ⟨rfl, Nat.one_le_iff_ne_zero.mpr hPos⟩

/-- An acknowledgement that the native listener accepts at level 5 is forwarded to the kernel
exactly when it is the packet identifier alone. -/
theorem ack_forwarded_iff (env : Env) (kind : AckKind) (flags : Nat) (body : List UInt8)
    (conn : Conn Session) {packetId : UInt16} {reason : UInt8}
    (hAck : Wire.decodeAck body 5 = .ok (packetId, reason)) :
    ForwardsAck kind packetId.toNat conn
        (handleMqttPacket env { type := kind.type, flags, payload := body } conn).conn ↔
      body.length = 2 := by
  rw [handleMqttPacket_ack]
  obtain ⟨rest, hId⟩ := Wire.decodeAck_packetId hAck
  obtain ⟨hTake, hPos⟩ := takeUInt_of_packetIdentifier hId
  constructor
  · rintro ⟨metadata, hFrames, -⟩
    by_contra hLength
    have hNone : exactly (takeUInt 2 body) = none := by
      apply Option.eq_none_iff_forall_ne_some.mpr
      intro value hExactly
      obtain ⟨-, rfl⟩ := ((reads_takeUInt 2).exactly).mp hExactly
      exact hLength (length_bigEndian 2 value)
    rw [handleAck, hNone] at hFrames
    simp [Outcome.conn] at hFrames
  · intro hLength
    have hLt : packetId.toNat ≤ 65535 := Nat.le_of_lt_succ packetId.toNat_lt
    have hRest : rest = [] := by
      have hBody := congrArg List.length (((reads_takeUInt 2).law _ _ _).mp hTake).2
      simp_all
    have hExactly : exactly (takeUInt 2 body) = some packetId.toNat := by
      rw [hTake, hRest]
      rfl
    obtain ⟨metadata, hMeta, hRead⟩ := kind.encode_spec hPos hLt
    refine ⟨metadata, ?_, hRead⟩
    simp only [handleAck, hExactly, if_neg (by omega : packetId.toNat ≠ 0), hMeta]
    cases conn.sendAnswer env with
    | none => rfl
    | some reason => cases reason <;> rfl

/-- A PUBACK of the packet 1 without a reason code. -/
theorem bare_puback_forwarded :
    ForwardsAck .puback 1 (freshConn .v5)
      (handleMqttPacket .steady { type := 4, flags := 0, payload := [0, 1] } (freshConn .v5)).conn := by
  have hAck : Wire.decodeAck [0, 1] 5 = .ok (1, 0) := rfl
  exact (ack_forwarded_iff .steady .puback 0 [0, 1] (freshConn .v5) hAck).mpr rfl

/-- The same PUBACK with the reason code 16, that there is no subscriber, is accepted by the
native listener and ignored at the edge. -/
theorem reasoned_puback_ignored :
    Wire.decodeAck [0, 1, 0x10] 5 = .ok (1, 0x10) ∧
      ¬ ForwardsAck .puback 1 (freshConn .v5)
        (handleMqttPacket .steady { type := 4, flags := 0, payload := [0, 1, 0x10] }
          (freshConn .v5)).conn := by
  constructor
  · rfl
  · rintro ⟨metadata, hFrames, -⟩
    cases hFrames

end IndraMqtt.Edge

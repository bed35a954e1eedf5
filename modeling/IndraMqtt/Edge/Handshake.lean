import IndraMqtt.Edge.Requests
import IndraMqtt.Link.BindMeta
import IndraMqtt.Wire.Suback

/-! The packets of the handshake and of its end: CONNECT as the client sends it, the binding with
which the kernel answers, the CONNACK that the edge makes of it, and DISCONNECT. -/
namespace IndraMqtt.Edge

open Bytes
open Shortens (map required bind)

/-! ### CONNECT -/

def maxConnectPropsLen : Nat := 65535

/-- The properties of a version 5 CONNECT, which are those of `v5_connect_defaults` at the
start. The field `seen` holds the properties that may stand there once. -/
structure ConnectProps where
  aliasMax : Nat := 0
  sessionExpiry : Nat := 0
  receiveMax : Nat := 65535
  maxPacketSize : Nat := 0
  reqRespInfo : Bool := false
  reqProblemInfo : Bool := true
  authMethod : Option (List UInt8) := none
  authData : Option (List UInt8) := none
  userProperties : List (List UInt8 × List UInt8) := []
  seen : List Nat := []

/-- What `decode_connect` returns. -/
structure Connect where
  level : ProtoLevel
  cleanStart : Bool
  keepalive : Nat
  clientId : List UInt8
  username : Option (List UInt8)
  password : Option (List UInt8)
  willFlag : Bool
  willQos : Nat
  willRetain : Bool
  willTopic : Option (List UInt8)
  willPayload : Option (List UInt8)
  props : ConnectProps

def takeConnectUInt (width : Nat) (keep : Nat → ConnectProps) (bytes : List UInt8) :
    Taken ConnectProps :=
  (required .truncatedConnect (takeUInt width bytes)).map fun taken => (keep taken.1, taken.2)

def takeConnectFlag (keep : Bool → ConnectProps) (bytes : List UInt8) : Taken ConnectProps :=
  (required .malformedConnectProperties (takeUInt 1 bytes)).bind fun (flag, tail) =>
    if 1 < flag then .error .malformedConnectProperties else .ok (keep (flag == 1), tail)

def connectOnce : List Nat := [17, 33, 39, 34, 25, 23, 21, 22]

def takeConnectOnce (props : ConnectProps) (id : Nat) (bytes : List UInt8) : Taken ConnectProps :=
  if id = 17 then takeConnectUInt 4 (fun value => { props with sessionExpiry := value }) bytes
  else if id = 33 then takeConnectUInt 2 (fun value => { props with receiveMax := value }) bytes
  else if id = 39 then takeConnectUInt 4 (fun value => { props with maxPacketSize := value }) bytes
  else if id = 34 then takeConnectUInt 2 (fun value => { props with aliasMax := value }) bytes
  else if id = 25 then takeConnectFlag (fun flag => { props with reqRespInfo := flag }) bytes
  else if id = 23 then takeConnectFlag (fun flag => { props with reqProblemInfo := flag }) bytes
  else if id = 21 then
    (takePropUtf8 bytes).map fun taken => ({ props with authMethod := some taken.1 }, taken.2)
  else
    (required .truncatedConnect (takeBlock bytes)).map fun taken =>
      ({ props with authData := some taken.1 }, taken.2)

def visitConnectProp (props : ConnectProps) (id : Nat) (bytes : List UInt8) : Taken ConnectProps :=
  if id ∈ connectOnce then
    if id ∈ props.seen then .error .malformedConnectProperties
    else takeConnectOnce { props with seen := id :: props.seen } id bytes
  else if id = 38 then
    (takeUserProperty bytes).bind fun taken =>
      if maxV5UserProps ≤ props.userProperties.length then .error .malformedConnectProperties
      else .ok ({ props with userProperties := props.userProperties ++ [taken.1] }, taken.2)
  else (skipProperty id bytes).map fun taken => (props, taken.2)

theorem shortens_takeConnectUInt (width : Nat) (keep : Nat → ConnectProps) :
    Shortens (takeConnectUInt width keep) :=
  map (required (reads_takeUInt width) _) fun _ => rfl

theorem shortens_takeConnectFlag (keep : Bool → ConnectProps) :
    Shortens (takeConnectFlag keep) := by
  apply bind (required (reads_takeUInt 1) _)
  grind [Shortens]

theorem shortens_takeConnectOnce (props : ConnectProps) (id : Nat) :
    Shortens (takeConnectOnce props id) := by
  unfold takeConnectOnce
  apply Shortens.ite _ (shortens_takeConnectUInt 4 _)
  apply Shortens.ite _ (shortens_takeConnectUInt 2 _)
  apply Shortens.ite _ (shortens_takeConnectUInt 4 _)
  apply Shortens.ite _ (shortens_takeConnectUInt 2 _)
  apply Shortens.ite _ (shortens_takeConnectFlag _)
  apply Shortens.ite _ (shortens_takeConnectFlag _)
  apply Shortens.ite
  · apply map shortens_takePropUtf8
    intro taken
    rfl
  · apply map (required reads_takeBlock _)
    intro taken
    rfl

theorem shortens_visitConnectProp (props : ConnectProps) (id : Nat) :
    Shortens (visitConnectProp props id) := by
  unfold visitConnectProp
  apply Shortens.ite
  · exact Shortens.ite _ (Shortens.error _) (shortens_takeConnectOnce _ id)
  apply Shortens.ite
  · simp [bind, shortens_takeUserProperty, Shortens.ite, Shortens.error, Shortens.ok]
  · apply map (shortens_skipProperty id)
    intro taken
    rfl

def parseConnectProps (props : List UInt8) : Except CodecError ConnectProps :=
  drain (propRound (fun reason => reason) visitConnectProp)
    (consumes_propRound shortens_visitConnectProp) {} props

def skipConnectString (bytes : List UInt8) : Taken (List UInt8) :=
  required .truncatedConnect (takeBlock bytes)

def takeOptionalString (present : Bool) (bytes : List UInt8) : Taken (Option (List UInt8)) :=
  if present then (skipConnectString bytes).map fun taken => (some taken.1, taken.2)
  else .ok (none, bytes)

structure ConnectFlags where
  username : Bool
  password : Bool
  willRetain : Bool
  willQos : Nat
  willFlag : Bool
  cleanStart : Bool
  reserved : Bool

def ConnectFlags.ofByte (flags : Nat) : ConnectFlags :=
  { username := flags &&& 0x80 != 0
    password := flags &&& 0x40 != 0
    willRetain := flags &&& 0x20 != 0
    willQos := (flags &&& 0x18) >>> 3
    willFlag := flags &&& 0x04 != 0
    cleanStart := flags &&& 0x02 != 0
    reserved := flags &&& 0x01 != 0 }

def ConnectFlags.valid (flags : ConnectFlags) : Bool :=
  !flags.reserved && flags.willQos ≤ 2 &&
    (flags.willFlag || (!flags.willRetain && flags.willQos = 0)) &&
    (!flags.password || flags.username)

def skipWillProperties (willFlag : Bool) (bytes : List UInt8) : Except CodecError (List UInt8) :=
  if willFlag then
    (decodeVarint bytes).bind fun len =>
      (required .truncatedConnect (takeBytes len.1 len.2)).map Prod.snd
  else .ok bytes

def decodeConnectPayload (level : ProtoLevel) (flagByte keepalive : Nat) (props : ConnectProps)
    (payload : List UInt8) : Except CodecError Connect :=
  let flags := ConnectFlags.ofByte flagByte
  if !flags.valid then .error (.invalidConnectFlags flagByte)
  else
    (skipConnectString payload).bind fun clientId =>
      (skipWillProperties (flags.willFlag && level = .v5) clientId.2).bind fun rest =>
        (takeOptionalString flags.willFlag rest).bind fun willTopic =>
          (takeOptionalString flags.willFlag willTopic.2).bind fun willPayload =>
            (takeOptionalString flags.username willPayload.2).bind fun username =>
              (takeOptionalString flags.password username.2).bind fun password =>
                if password.2.isEmpty then
                  .ok { level, cleanStart := flags.cleanStart, keepalive, clientId := clientId.1
                        username := username.1, password := password.1
                        willFlag := flags.willFlag, willQos := flags.willQos
                        willRetain := flags.willRetain, willTopic := willTopic.1
                        willPayload := willPayload.1, props }
                else .error .trailingConnectBytes

def decodeConnectV5 (flags keepalive : Nat) (payload : List UInt8) : Except CodecError Connect :=
  (decodeVarint payload).bind fun propLen =>
    if maxConnectPropsLen < propLen.1 then .error .malformedConnectProperties
    else
      (required .truncatedConnect (takeBytes propLen.1 propLen.2)).bind fun props =>
        (parseConnectProps props.1).bind fun parsed =>
          decodeConnectPayload .v5 flags keepalive parsed props.2

def mqttName : List UInt8 := [0x4D, 0x51, 0x54, 0x54]

def decodeConnect (payload : List UInt8) : Except CodecError Connect :=
  let head := takeBoth takeBlock (takeBoth (takeUInt 1) (takeBoth (takeUInt 1) (takeUInt 2)))
  (required .truncatedConnect (head payload)).bind fun ((name, level, flags, keepalive), rest) =>
    if name = mqttName ∧ level = 4 then decodeConnectPayload .v4 flags keepalive {} rest
    else if name = mqttName ∧ level = 5 then decodeConnectV5 flags keepalive rest
    else .error (.unsupportedProtocol name level)

/-! ### The binding of a session -/

def maxBindingV5Len : Nat := 4096
def maxBindingV5Users : Nat := 16
def maxBindingV5String : Nat := 1024

structure Binding where
  sessionId : Nat
  sessionPresent : Bool
  returnCode : Nat
  aliasMax : Nat
  serverRecvMax : Nat := 0
  serverMaxPkt : Nat := 0
  sessionExpiry : Nat := 0
  reasonString : List UInt8 := []
  userProperties : List (List UInt8 × List UInt8) := []
  deriving DecidableEq

def takeBindingPair : List UInt8 → Option ((List UInt8 × List UInt8) × List UInt8) :=
  takeBoth (takeSized 2 fun len => 1 ≤ len && len ≤ maxBindingV5String)
    (takeSized 2 fun len => len ≤ maxBindingV5String)

/-- `decode_binding_v5_payload`, into the binding of the fixed part. -/
def decodeBindingV5Payload (binding : Binding) (payload : List UInt8) : Option Binding :=
  (takeBoth (takeUInt 2) (takeBoth (takeUInt 4) (takeBoth (takeUInt 4)
    (takeBoth (takeSized 2 fun len => len ≤ maxBindingV5String) (takeUInt 2)))) payload).bind
    fun ((recvMax, maxPkt, expiry, reason, count), pairs) =>
      if maxBindingV5Users < count then none
      else
        (exactly (takeMany takeBindingPair count pairs)).map fun users =>
          { binding with
            serverRecvMax := recvMax, serverMaxPkt := maxPkt, sessionExpiry := expiry
            reasonString := reason, userProperties := users }

/-- `decode_binding_v5_section`: a payload with its length behind it. -/
def decodeBindingV5Section (binding : Binding) (rest : List UInt8) : Option Binding :=
  if rest.length < 2 then none
  else
    let v5Len := ofBigEndian (rest.drop (rest.length - 2))
    if 14 ≤ v5Len ∧ v5Len ≤ maxBindingV5Len ∧ rest.length = v5Len + 2 then
      decodeBindingV5Payload binding (rest.take v5Len)
    else none

def decodeSessionBindingMeta (bytes : List UInt8) : Option Binding :=
  (takeBoth (takeUInt 8) (takeBoth (takeUInt 1) (takeUInt 1)) bytes).bind
    fun ((sessionId, present, returnCode), rest) =>
      let fixed (aliasMax : Nat) : Binding :=
        { sessionId, sessionPresent := present = 1, returnCode, aliasMax }
      if 1 < present then none
      else if rest.isEmpty then some (fixed 0)
      else
        (takeUInt 2 rest).bind fun (aliasMax, rest) =>
          if rest.isEmpty then some (fixed aliasMax)
          else decodeBindingV5Section (fixed aliasMax) rest

/-! ### CONNACK -/

def connackReturnCode (rc : Nat) : Nat :=
  if rc ≤ 5 then rc
  else if rc = 0x84 then 1
  else if rc = 0x85 then 2
  else if rc = 0x86 then 4
  else if rc = 0x87 then 5
  else if rc = 0x8A then 5
  else 3

def encodeConnack (present : Bool) (rc : Nat) : List UInt8 :=
  [0x20, 0x02, UInt8.ofNat present.toNat, UInt8.ofNat rc]

def maxConnackPropsLen : Nat := 65535

def encodeConnackUInt (id : UInt8) (width value : Nat) : Option (List UInt8) :=
  if value = 0 then some []
  else if value < 256 ^ width then some (id :: bigEndian width value)
  else none

def encodeConnackReason (reason : List UInt8) : Option (List UInt8) :=
  if reason.isEmpty then some []
  else if reason.length ≤ maxV5PropStringLen then some (28 :: block reason)
  else none

def encodeConnackUsers (users : List (List UInt8 × List UInt8)) : Option (List UInt8) :=
  if users.length ≤ maxV5UserProps ∧ ∀ user ∈ users, 1 ≤ user.1.length ∧
      user.1.length ≤ maxV5PropStringLen ∧ user.2.length ≤ maxV5PropStringLen then
    some (users.flatMap fun user => 38 :: (block user.1 ++ block user.2))
  else none

/-- `encode_connack_v5_props` of the options that `v5_connack_opts` makes of a binding. -/
def encodeConnackV5Props (binding : Binding) : Option (List UInt8) :=
  (encodeConnackUInt 17 4 binding.sessionExpiry).bind fun expiry =>
  (encodeConnackUInt 33 2 binding.serverRecvMax).bind fun recvMax =>
  (encodeConnackUInt 39 4 binding.serverMaxPkt).bind fun maxPkt =>
  (encodeConnackReason binding.reasonString).bind fun reason =>
  (encodeConnackUsers binding.userProperties).bind fun users =>
  (encodeConnackUInt 34 2 binding.aliasMax).map fun aliasMax =>
    expiry ++ (recvMax ++ (maxPkt ++ (reason ++ (users ++ aliasMax))))

def encodeConnackV5 (binding : Binding) : Option (List UInt8) :=
  (encodeConnackV5Props binding).bind fun props =>
    if props.length ≤ maxConnackPropsLen then
      let body := [UInt8.ofNat binding.sessionPresent.toNat, UInt8.ofNat binding.returnCode] ++
        (encodeRl 4 props.length [] ++ props)
      (encodeRemainingLength body.length).map fun length => 0x20 :: (length ++ body)
    else none

def connack (level : ProtoLevel) (binding : Binding) : Option (List UInt8) :=
  match level with
  | .v5 => encodeConnackV5 binding
  | .v4 => some (encodeConnack binding.sessionPresent (connackReturnCode binding.returnCode))

/-! ### SUBACK and DISCONNECT at level 5 -/

def validateSubackV5Codes (codes : List UInt8) : Bool :=
  !codes.isEmpty && codes.all fun code => code ∈ [0, 1, 2, 0x80, 0x87, 0x8F, 0x97, 0x83]

def encodeSubackV5 (packetId : UInt16) (codes : List UInt8) : Option (List UInt8) :=
  if packetId != 0 && validateSubackV5Codes codes then
    (encodeRemainingLength (3 + codes.length)).map fun length =>
      0x90 :: (length ++ (Wire.toBeBytes packetId ++ (0 :: codes)))
  else none

/-- What `parse_disconnect_props` does with a property: whether a reason string was seen, and the
number of user properties. -/
def visitDisconnectProp (state : Bool × Nat) (id : Nat) (bytes : List UInt8) : Taken (Bool × Nat) :=
  if id = 28 then
    if state.1 then .error .malformedDisconnect
    else
      match takePropUtf8 bytes with
      | .ok (_, tail) => .ok ((true, state.2), tail)
      | .error _ => .error .truncatedDisconnect
  else if id = 38 then
    match takeUserProperty bytes with
    | .error _ => .error .truncatedDisconnect
    | .ok (_, tail) =>
      if maxV5UserProps ≤ state.2 then .error .malformedDisconnect
      else .ok ((state.1, state.2 + 1), tail)
  else
    match skipProperty id bytes with
    | .ok (_, tail) => .ok (state, tail)
    | .error _ => .error .malformedDisconnect

theorem shortens_visitDisconnectProp (state : Bool × Nat) (id : Nat) :
    Shortens (visitDisconnectProp state id) := by
  intro bytes next rest hVisit
  unfold visitDisconnectProp at hVisit
  split at hVisit
  · split at hVisit
    · cases hVisit
    · split at hVisit
      · next hTaken =>
        cases hVisit
        exact shortens_takePropUtf8 _ _ _ hTaken
      · cases hVisit
  · split at hVisit
    · split at hVisit
      · cases hVisit
      · next hTaken =>
        split at hVisit
        · cases hVisit
        · cases hVisit
          exact shortens_takeUserProperty _ _ _ hTaken
    · split at hVisit
      · next hTaken =>
        cases hVisit
        exact shortens_skipProperty id _ _ _ hTaken
      · cases hVisit

/-- `parse_disconnect_props`. Only that it succeeds is used. -/
def parseDisconnectProps (props : List UInt8) : Except CodecError (Bool × Nat) :=
  drain (propRound (fun _ => .malformedDisconnect) visitDisconnectProp)
    (consumes_propRound shortens_visitDisconnectProp) (false, 0) props

def decodeDisconnectV5 : List UInt8 → Except CodecError UInt8
  | [] => .ok 0
  | [code] => .ok code
  | code :: rest =>
    match decodeVarint rest with
    | .error _ => .error .malformedDisconnect
    | .ok (propLen, rest) =>
      (required .truncatedDisconnect (takeBytes propLen rest)).bind fun props =>
        if props.2.isEmpty then (parseDisconnectProps props.1).map fun _ => code
        else .error .trailingDisconnectBytes

end IndraMqtt.Edge

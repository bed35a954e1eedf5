import IndraMqtt.Wire.Packets

/-! The packets at the two ends of a connection: CONNECT, with its flags, its properties and
its payload, and DISCONNECT. -/
namespace IndraMqtt.Wire

open Protocol

structure Will where
  topic : Str
  payload : List UInt8
  qos : UInt8
  retain : Bool
  deriving DecidableEq

/-- `ConnectProperties`. A property is `none` if the client did not send it. -/
structure ConnectProperties where
  sessionExpiry : Option UInt32
  receiveMaximum : Option UInt16
  maximumPacketSize : Option UInt32
  topicAliasMaximum : Option UInt16
  requestResponseInfo : Option UInt8
  requestProblemInfo : Option UInt8
  authMethod : Option Str
  userProperties : List (Str × Str)
  deriving DecidableEq

def ConnectProperties.none : ConnectProperties :=
  ⟨.none, .none, .none, .none, .none, .none, .none, []⟩

structure Connect where
  level : UInt8
  cleanStart : Bool
  keepalive : UInt16
  clientId : Str
  will : Option Will
  username : Option Str
  password : Option (List UInt8)
  properties : Option ConnectProperties
  deriving DecidableEq

/-- The visitor of `decode_connect`. The flag says that the authentication data was there. -/
def visitConnect (seen : ConnectProperties × Bool) (id : Nat) (value : PropValue) :
    Except WireError (ConnectProperties × Bool) :=
  let (props, authData) := seen
  let keep := fun (props : ConnectProperties) => (props, authData)
  let refused : WireError := .malformed "property is not permitted in CONNECT"
  match value with
  | .u32 v =>
    if id = 17 then
      (setOnce props.sessionExpiry v).map fun slot => keep { props with sessionExpiry := slot }
    else if id = 39 then
      if v = 0 then .error (.malformed "maximum packet size is 0")
      else (setOnce props.maximumPacketSize v).map fun slot =>
        keep { props with maximumPacketSize := slot }
    else .error refused
  | .u16 v =>
    if id = 33 then
      if v = 0 then .error (.malformed "receive maximum is 0")
      else (setOnce props.receiveMaximum v).map fun slot =>
        keep { props with receiveMaximum := slot }
    else if id = 34 then
      (setOnce props.topicAliasMaximum v).map fun slot =>
        keep { props with topicAliasMaximum := slot }
    else .error refused
  | .byte v =>
    if id = 25 ∧ v ≤ 1 then
      (setOnce props.requestResponseInfo v).map fun slot =>
        keep { props with requestResponseInfo := slot }
    else if id = 23 ∧ v ≤ 1 then
      (setOnce props.requestProblemInfo v).map fun slot =>
        keep { props with requestProblemInfo := slot }
    else .error refused
  | .text v =>
    if id = 21 then
      (setOnce props.authMethod v).map fun slot => keep { props with authMethod := slot }
    else .error refused
  | .binary =>
    if id = 22 then
      if authData then .error (.malformed "property is in the section two times")
      else .ok (props, true)
    else .error refused
  | .pair key value =>
    if id = 38 then
      .ok (keep { props with userProperties := props.userProperties ++ [(key, value)] })
    else .error refused
  | .varint _ => .error refused

def nameMqtt : List UInt8 := [0x4D, 0x51, 0x54, 0x54]
def nameMqisdp : List UInt8 := [0x4D, 0x51, 0x49, 0x73, 0x64, 0x70]

def checkProtocol (name : List UInt8) (level : UInt8) : Except WireError Unit :=
  if name = nameMqtt ∧ (level = 4 ∨ level = 5) ∨ name = nameMqisdp ∧ level = 3 then .ok ()
  else if name = nameMqtt ∨ name = nameMqisdp then .error (.unsupported "protocol level")
  else .error (.malformed "protocol name")

def optional {α : Type} (present : Bool) (read : List UInt8 → Reader.Taken α)
    (buf : List UInt8) : Reader.Taken (Option α) :=
  if present then (read buf).map fun taken => (some taken.1, taken.2) else .ok (none, buf)

def connectProperties (buf : List UInt8) : Reader.Taken ConnectProperties :=
  (Reader.properties buf).bind fun taken =>
    (walkProperties visitConnect (.none, false) taken.1).map fun seen => (seen.1, taken.2)

/-- The will of a CONNECT. Its properties are examined, then not used. -/
def connectWill (level qos : UInt8) (retain : Bool) (buf : List UInt8) : Reader.Taken Will :=
  (if level = 5 then
      (Reader.properties buf).bind fun taken =>
        (walkProperties (fun _ _ _ => .ok ()) () taken.1).map fun _ => taken.2
    else .ok buf).bind fun buf =>
      (Reader.utf8 buf).bind fun topic =>
        (Reader.binary topic.2).map fun payload =>
          ({ topic := topic.1, payload := payload.1, qos, retain }, payload.2)

def decodeConnect (body : List UInt8) : Except WireError Connect := do
  let (name, buf) ← Reader.binary body
  let (level, buf) ← Reader.u8 buf
  checkProtocol name level
  let (flags, buf) ← Reader.u8 buf
  if flags &&& 0x01 != 0 then .error (.malformed "reserved connect flag is set")
  let cleanStart := flags &&& 0x02 != 0
  let willFlag := flags &&& 0x04 != 0
  let willQos := (flags >>> 3) &&& 0x03
  let willRetain := flags &&& 0x20 != 0
  let hasPassword := flags &&& 0x40 != 0
  let hasUsername := flags &&& 0x80 != 0
  if 2 < willQos || (!willFlag && (willQos != 0 || willRetain)) then
    .error (.malformed "will flags")
  if level < 5 && hasPassword && !hasUsername then
    .error (.malformed "password without a user name")
  let (keepalive, buf) ← Reader.u16 buf
  let (properties, buf) ← optional (level == 5) connectProperties buf
  let (clientId, buf) ← Reader.utf8 buf
  let (will, buf) ← optional willFlag (connectWill level willQos willRetain) buf
  let (username, buf) ← optional hasUsername Reader.utf8 buf
  let (password, buf) ← optional hasPassword Reader.binary buf
  if !buf.isEmpty then .error (.malformed "bytes after the CONNECT payload")
  return { level, cleanStart, keepalive, clientId, will, username, password, properties }

def visitDisconnect (_ : Unit) (id : Nat) (value : PropValue) : Except WireError Unit :=
  match id, value with
  | 17, .u32 _ => .ok ()
  | 28, .text _ => .ok ()
  | 38, .pair _ _ => .ok ()
  -- Server Reference: correct, not used
  | 31, .text _ => .ok ()
  | _, _ => .error (.malformed "property is not permitted in DISCONNECT")

def decodeDisconnect (body : List UInt8) (level : Nat) : Except WireError UInt8 :=
  if body.isEmpty then .ok 0
  else if level ≠ 5 then .error (.malformed "DISCONNECT with a body")
  else
    (Reader.u8 body).bind fun reason =>
      if reason.2.isEmpty then .ok reason.1
      else
        (Reader.properties reason.2).bind fun taken =>
          (walkProperties visitDisconnect () taken.1).bind fun _ =>
            if taken.2.isEmpty then .ok reason.1
            else .error (.malformed "bytes after the properties")

end IndraMqtt.Wire

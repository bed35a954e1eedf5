import IndraMqtt.Kernel.Bind
import IndraMqtt.Wire.Packets

/-! The metadata of a `BindConnection` frame. Behind the head and the last will stand optional
sections for the credentials, the peer address and the client certificate, then the alias
maximum and an optional v5 section. Only the will and the v5 section have a flag: the kernel
tells the others apart by their lengths and contents. -/
namespace IndraMqtt.Edge

open Bytes

/-! ### The encoder -/

structure WillInfo (τ : Type) where
  topic : τ
  payload : List UInt8
  qos : Nat
  retain : Bool

structure CertInfo (τ : Type) where
  cn : Option τ
  subject : Option τ
  sans : List τ

structure V5Info (τ : Type) where
  version : Nat
  sessionExpiry : Nat
  receiveMax : Nat
  maxPacketSize : Nat
  userProperties : List (τ × τ)

/-- The arguments of `encode_bind_meta`. Texts are binaries at the edge and strings in the
kernel. -/
structure BindInfo (τ : Type) where
  clientId : τ
  cleanStart : Bool
  keepalive : Nat
  username : Option τ
  password : Option (List UInt8)
  peer : Option τ
  aliasMax : Nat
  cert : Option (CertInfo τ)
  will : Option (WillInfo τ)
  v5 : Option (V5Info τ)

/-- `Flags:8` of the head: clean start, a last will, a v5 section. -/
def headFlags (cleanStart willPresent v5Present : Bool) : UInt8 :=
  (if cleanStart then 1 else 0) ||| (if willPresent then 2 else 0) |||
    (if v5Present then 4 else 0)

/-- `encode_head`. The value `none` stands for `badarg`, here and below. -/
def encodeHead (clientId : List UInt8) (cleanStart : Bool) (keepalive : Nat)
    (willPresent v5Present : Bool) : Option (List UInt8) :=
  if keepalive ≤ 65535 ∧ clientId.length ≤ 65535 then
    some (block clientId ++ ([headFlags cleanStart willPresent v5Present] ++
      bigEndian 2 keepalive))
  else none

def encodeCredsBin : Option (List UInt8) → Option (List UInt8) → Option (List UInt8)
  | none, none => some []
  | some user, some pass =>
    if user.length ≤ 65535 ∧ pass.length ≤ 65535 then some (block user ++ block pass) else none
  | _, _ => none

def encodeOptional {α : Type} (fits : α → Bool) (layout : α → List UInt8) :
    Option α → Option (List UInt8)
  | none => some []
  | some value => if fits value then some (layout value) else none

def encodePeerBin (isPeerIp : List UInt8 → Bool) : Option (List UInt8) → Option (List UInt8) :=
  encodeOptional (fun peer => 0 < peer.length && peer.length ≤ 65535 && isPeerIp peer) block

/-- `WillQos:8 | WillRetain:8 | TopicLen:16be | Topic | PayloadLen:32be | Payload`. -/
def WillInfo.layout (will : WillInfo (List UInt8)) : List UInt8 :=
  bigEndian 1 will.qos ++ (bigEndian 1 will.retain.toNat ++ (block will.topic ++
    (bigEndian 4 will.payload.length ++ will.payload)))

abbrev WillInfo.Fits (will : WillInfo (List UInt8)) : Prop :=
  will.qos ≤ 2 ∧ 1 ≤ will.topic.length ∧ will.topic.length ≤ 65535 ∧
    will.payload.length ≤ 0xFFFFFFFF

def encodeWillBin : Option (WillInfo (List UInt8)) → Option (List UInt8) :=
  encodeOptional (fun will => decide will.Fits) WillInfo.layout

def maxCertFieldLen : Nat := 1024
def maxCertSans : Nat := 16

/-- `CnLen:16be | Cn | SubjectLen:16be | Subject | SanCount:16be | (SanLen:16be | San)*`, where
an absent field has length zero. -/
def CertInfo.layout (cert : CertInfo (List UInt8)) : List UInt8 :=
  block (cert.cn.getD []) ++ (block (cert.subject.getD []) ++
    (bigEndian 2 cert.sans.length ++ cert.sans.flatMap block))

abbrev CertInfo.Fits (cert : CertInfo (List UInt8)) : Prop :=
  (cert.cn.getD []).length ≤ maxCertFieldLen ∧ (cert.subject.getD []).length ≤ maxCertFieldLen ∧
    cert.sans.length ≤ maxCertSans ∧ (∀ san ∈ cert.sans, san.length ≤ maxCertFieldLen) ∧
    cert.layout.length ≤ 65535

/-- `encode_cert_payload` behind its length. -/
def encodeCertBin : Option (CertInfo (List UInt8)) → Option (List UInt8) :=
  encodeOptional (fun cert => decide cert.Fits) fun cert => block cert.layout

def maxV5SectionLen : Nat := 4096
def maxV5BindUsers : Nat := 16
def maxV5BindString : Nat := 1024

/-- `Version:8 | SessionExpiry:32be | RecvMax:16be | MaxPacketSize:32be | UserCount:16be |
(KeyLen:16be | Key | ValLen:16be | Val)*`. -/
def V5Info.layout (v5 : V5Info (List UInt8)) : List UInt8 :=
  bigEndian 1 v5.version ++ (bigEndian 4 v5.sessionExpiry ++ (bigEndian 2 v5.receiveMax ++
    (bigEndian 4 v5.maxPacketSize ++ (bigEndian 2 v5.userProperties.length ++
      v5.userProperties.flatMap fun pair => block pair.1 ++ block pair.2))))

abbrev V5Info.Fits (v5 : V5Info (List UInt8)) : Prop :=
  (v5.version = 4 ∨ v5.version = 5) ∧ v5.sessionExpiry ≤ 0xFFFFFFFF ∧
    v5.receiveMax ≤ 65535 ∧ v5.maxPacketSize ≤ 0xFFFFFFFF ∧
    v5.userProperties.length ≤ maxV5BindUsers ∧
    (∀ pair ∈ v5.userProperties, 1 ≤ pair.1.length ∧ pair.1.length ≤ maxV5BindString ∧
      pair.2.length ≤ maxV5BindString) ∧
    v5.layout.length ≤ maxV5SectionLen

/-- `encode_v5_payload`, with its length behind it. -/
def encodeV5Bin : Option (V5Info (List UInt8)) → Option (List UInt8) :=
  encodeOptional (fun v5 => decide v5.Fits) fun v5 =>
    v5.layout ++ bigEndian 2 v5.layout.length

/-- `encode_bind_meta/9`, which is `encode_bind_meta/8` where there is no v5 section. -/
def encodeBindMeta (isPeerIp : List UInt8 → Bool) (info : BindInfo (List UInt8)) :
    Option (List UInt8) :=
  if info.aliasMax ≤ 65535 then
    (encodeHead info.clientId info.cleanStart info.keepalive info.will.isSome
      info.v5.isSome).bind fun head =>
    (encodeWillBin info.will).bind fun will =>
    (encodeCredsBin info.username info.password).bind fun creds =>
    (encodePeerBin isPeerIp info.peer).bind fun peer =>
    (encodeCertBin info.cert).bind fun cert =>
    (encodeV5Bin info.v5).map fun v5 =>
      head ++ (will ++ (creds ++ (peer ++ cert) ++ bigEndian 2 info.aliasMax ++ v5))
  else none

end IndraMqtt.Edge

namespace IndraMqtt.Link

open Bytes Protocol Kernel

/-! ### The decoder -/

def ipv4Chars : List Char := ['0', '1', '2', '3', '4', '5', '6', '7', '8', '9', '.']

def ipChars : List Char :=
  ipv4Chars ++ ['a', 'b', 'c', 'd', 'e', 'f', 'A', 'B', 'C', 'D', 'E', 'F', ':']

/-- `str::parse::<IpAddr>`. Nothing is assumed about it but the characters of a literal. -/
structure IpSyntax where
  parses : Str → Bool
  literal : ∀ text, parses text = true → ∀ c ∈ text, c ∈ ipChars

def maxCertFieldLen : Nat := 1024
def maxCertSans : Nat := 16
def maxV5SectionLen : Nat := 4096

structure CertFields where
  cn : Option Str
  subject : Option Str
  sans : List Str
deriving DecidableEq

structure BindIdentity where
  username : Option Str
  password : Option (List UInt8)
  peerhost : Option Str
  cert : CertFields
deriving DecidableEq

structure BindV5 where
  version : Nat
  sessionExpiry : Nat
  receiveMaximum : Nat
  maxPacketSize : Nat
  userProperties : List (Str × Str)

def takeCertString : List UInt8 → Option (Option Str × List UInt8) :=
  takeAs
    (fun field =>
      if maxCertFieldLen < field.length then none
      else if field.isEmpty then some none
      else (fromUtf8 field).map some)
    takeBlock

def decodeCertSection (bytes : List UInt8) : Option CertFields :=
  (exactly (takeBlock bytes)).bind fun payload =>
    (takeBoth takeCertString (takeBoth takeCertString (takeUInt 2)) payload).bind fun head =>
      if maxCertSans < head.1.2.2 then none
      else
        (exactly (takeMany takeCertString head.1.2.2 head.2)).map fun sans =>
          { cn := head.1.1, subject := head.1.2.1, sans := sans.filterMap id }

def noCert : CertFields := { cn := none, subject := none, sans := [] }

def decodeCertTail (tail : List UInt8) : Option CertFields :=
  if tail.isEmpty then some noCert else decodeCertSection tail

variable (ip : IpSyntax)

def splitPeerPrefix : List UInt8 → Option (Str × List UInt8) :=
  takeAs (fun literal => if ip.parses literal then some literal else none) (takeText List.isEmpty)

/-- The peer and certificate sections of `decode_bind_identity`, which reads them in the same
way with and without credentials in front. -/
def peerAndCert (username : Option Str) (password : Option (List UInt8))
    (otherwise : String) (tail : List UInt8) : Except String BindIdentity :=
  match splitPeerPrefix ip tail with
  | some (peerhost, afterPeer) =>
    match decodeCertTail afterPeer with
    | some cert => .ok { username, password, peerhost := some peerhost, cert }
    | none => .error "bind meta length mismatch"
  | none =>
    match decodeCertTail tail with
    | some cert => .ok { username, password, peerhost := none, cert }
    | none => .error otherwise

def decodeBindIdentity (rest : List UInt8) : Except String BindIdentity :=
  if rest.isEmpty then
    .ok { username := none, password := none, peerhost := none, cert := noCert }
  else if rest.length < 2 then .error "bind credentials truncated"
  else
    let userLen := uintAt 2 rest 0
    if rest.length < 2 + userLen + 2 then
      peerAndCert ip none none "bind credentials truncated" rest
    else
      match fromUtf8 (slice rest 2 userLen) with
      | none => .error "username not UTF-8"
      | some username =>
        let base := 2 + userLen
        let passLen := uintAt 2 rest base
        if rest.length < base + 2 + passLen then .error "bind credentials truncated"
        -- the bytes of a peer section and of the alias maximum 0 get here
        else if passLen = 0 then .error "bind credentials truncated"
        else
          let password := slice rest (base + 2) passLen
          let tail := rest.drop (base + 2 + passLen)
          if tail.isEmpty then
            .ok { username := some username, password := some password, peerhost := none,
                  cert := noCert }
          else peerAndCert ip (some username) (some password) "bind meta length mismatch" tail

def noTopicAlias : Nat := 0

def decodeAliasMaximum (bytes : List UInt8) : Option Nat :=
  if bytes.length < 2 then none else some (uintAt 2 bytes 0)

def decodeLegacyTail (rest : List UInt8) : Except String (BindIdentity × Nat) :=
  match decodeBindIdentity ip rest with
  | .ok identity => .ok (identity, 0)
  | .error _ =>
    if 2 ≤ rest.length then
      match decodeBindIdentity ip (rest.take (rest.length - 2)) with
      | .ok identity =>
        .ok (identity, (decodeAliasMaximum (rest.drop (rest.length - 2))).getD noTopicAlias)
      | .error _ => .error "bind meta length mismatch"
    else .error "bind meta length mismatch"

def takeV5String (cursor : List UInt8) : Except String (Str × List UInt8) :=
  if cursor.length < 2 then .error "bind v5 string truncated"
  else
    let len := uintAt 2 cursor 0
    if Kernel.maxV5BindString < len ∨ cursor.length < 2 + len then
      .error "bind v5 string over bound"
    else
      match fromUtf8 (slice cursor 2 len) with
      | none => .error "bind v5 string not UTF-8"
      | some text => .ok (text, cursor.drop (2 + len))

/-- `HashMap::insert` on a map that stands in the order of its keys. -/
def insertProperty (key value : Str) : List (Str × Str) → List (Str × Str)
  | [] => [(key, value)]
  | (other, held) :: properties =>
    if key = other then (key, value) :: properties
    else if List.lex key other fun c d => decide (c.toNat < d.toNat) then
      (key, value) :: (other, held) :: properties
    else (other, held) :: insertProperty key value properties

def takeUserProperties :
    Nat → List UInt8 → List (Str × Str) → Except String (List (Str × Str) × List UInt8)
  | 0, cursor, properties => .ok (properties, cursor)
  | count + 1, cursor, properties =>
    (takeV5String cursor).bind fun key =>
      (takeV5String key.2).bind fun value =>
        takeUserProperties count value.2 (insertProperty key.1 value.1 properties)

def decodeV5Payload (payload : List UInt8) : Except String BindV5 :=
  let version := uintAt 1 payload 0
  if version ≠ 4 ∧ version ≠ 5 then .error "bind v5 version out of range"
  else
    let pairCount := uintAt 2 payload 11
    if Kernel.maxV5BindUsers < pairCount then .error "bind v5 user properties over bound"
    else
      (takeUserProperties pairCount (payload.drop 13) []).bind fun taken =>
        if taken.2.isEmpty then
          .ok { version, sessionExpiry := uintAt 4 payload 1, receiveMaximum := uintAt 2 payload 5,
                maxPacketSize := uintAt 4 payload 7, userProperties := taken.1 }
        else .error "bind v5 section trailing bytes"

def decodeBindV5Section (rest : List UInt8) : Except String (List UInt8 × BindV5) :=
  if rest.length < 2 + 13 + 2 then .error "bind v5 section truncated"
  else
    let v5Len := uintAt 2 rest (rest.length - 2)
    if v5Len < 13 ∨ maxV5SectionLen < v5Len ∨ rest.length < 2 + v5Len + 2 then
      .error "bind v5 section length mismatch"
    else
      let payloadStart := rest.length - 2 - v5Len
      (decodeV5Payload (slice rest payloadStart v5Len)).map fun v5 => (rest.take payloadStart, v5)

def decodeBindWill (rest : List UInt8) : Except String (BindWill × List UInt8) :=
  if rest.length < 8 then .error "bind will truncated"
  else
    let qos := uintAt 1 rest 0
    let retain := uintAt 1 rest 1
    if 2 < qos ∨ 1 < retain then .error "bind will flags out of range"
    else
      let topicLen := uintAt 2 rest 2
      if topicLen = 0 ∨ rest.length < 4 + topicLen + 4 then .error "bind will topic truncated"
      else
        match fromUtf8 (slice rest 4 topicLen) with
        | none => .error "will topic not UTF-8"
        | some topic =>
          let base := 4 + topicLen
          let payloadLen := uintAt 4 rest base
          if rest.length < base + 4 + payloadLen then .error "bind will payload truncated"
          else
            .ok ({ topic, qos := UInt8.ofNat qos, retain := retain != 0
                   payload := slice rest (base + 4) payloadLen },
              rest.drop (base + 4 + payloadLen))

/-- The request, with the values of version 4 where the edge sends no v5 section. -/
def bindRequest (clientId : Str) (flags : UInt8) (keepaliveSecs : Nat) (will : Option BindWill)
    (identity : BindIdentity) (clientAliasMax : Nat) (v5 : Option BindV5) : BindRequest where
  clientId := clientId
  cleanStart := flags &&& 0x01 != 0
  keepaliveSecs := keepaliveSecs
  username := identity.username
  password := identity.password
  peerhost := identity.peerhost
  clientAliasMax := clientAliasMax
  will := will
  certCn := identity.cert.cn
  certSubject := identity.cert.subject
  certSans := identity.cert.sans
  protocolVersion := (v5.map (·.version)).getD 4
  sessionExpiry := (v5.map (·.sessionExpiry)).getD 0
  receiveMaximum := (v5.map (·.receiveMaximum)).getD 65535
  maxPacketSize := (v5.map (·.maxPacketSize)).getD 0
  userProperties := v5.map (·.userProperties)

/-- What `decode_bind_meta` does behind the last will. Without a v5 section it repeats the body
of `decode_legacy_tail`. -/
def decodeBindTail (flags : UInt8) (rest : List UInt8) :
    Except String (BindIdentity × Nat × Option BindV5) :=
  if flags &&& 0x04 != 0 then
    (decodeBindV5Section rest).bind fun stripped =>
      (decodeLegacyTail ip stripped.1).map fun tail => (tail.1, tail.2, some stripped.2)
  else (decodeLegacyTail ip rest).map fun tail => (tail.1, tail.2, none)

def decodeHeadWill (flags : UInt8) (rest : List UInt8) :
    Except String (Option BindWill × List UInt8) :=
  if flags &&& 0x02 != 0 then (decodeBindWill rest).map fun parsed => (some parsed.1, parsed.2)
  else .ok (none, rest)

def decodeBindMeta (bytes : List UInt8) : Except String BindRequest :=
  if bytes.length < 5 then .error "bind meta too short"
  else
    let idLen := uintAt 2 bytes 0
    if bytes.length < 2 + idLen + 1 + 2 then .error "bind meta too short"
    else
      let flags := UInt8.ofNat (uintAt 1 bytes (2 + idLen))
      let keepaliveSecs := uintAt 2 bytes (3 + idLen)
      match fromUtf8 (slice bytes 2 idLen) with
      | none => .error "client id not UTF-8"
      | some clientId =>
        (decodeHeadWill flags (bytes.drop (5 + idLen))).bind fun head =>
          (decodeBindTail ip flags head.2).map fun tail =>
            bindRequest clientId flags keepaliveSecs head.1 tail.1 tail.2.1 tail.2.2

end IndraMqtt.Link

import IndraMqtt.Edge.Requests
import IndraMqtt.Link.SubscribeMeta

/-! The metadata that the edge writes for the requests of a client. An encoder that finds an
argument outside its guards raises `badarg`, which is `none` here. The guards are compared with
what the decoders of the codec let through. -/
namespace IndraMqtt.Edge

open Bytes

variable {level : ProtoLevel}

def maxV5MetaUsers : Nat := 16
def maxV5MetaString : Nat := 1024

/-! ### Subscribe -/

def validateMetaSubsV5 (subs : List (List UInt8 × Nat)) : Bool :=
  !subs.isEmpty && subs.length ≤ 65535 && subs.all fun sub => 0 < sub.1.length && sub.2 ≤ 255

def encodeSubscribeMetaV5 (packetId : Nat) (clientId : List UInt8)
    (subs : List (List UInt8 × Nat)) (subId : Nat) : Option (List UInt8) :=
  if 1 ≤ packetId && packetId ≤ 65535 && subId ≤ maxSubId && validateMetaSubsV5 subs then
    let subBin := subs.foldl
      (fun acc sub => acc ++
        (bigEndian 2 sub.1.length ++ sub.1 ++ bigEndian 1 sub.2 ++ bigEndian 4 subId)) []
    some (bigEndian 2 packetId ++ (bigEndian 2 clientId.length ++ clientId) ++
      bigEndian 2 subs.length ++ subBin)
  else none

def subscribeMeta (level : ProtoLevel) (clientId : List UInt8) (sub : Subscribe) :
    Option (List UInt8) :=
  match level with
  | .v4 => encodeSubscribeMeta sub.packetId clientId sub.subscriptions
  | .v5 => encodeSubscribeMetaV5 sub.packetId clientId sub.subscriptions sub.subId

/-! ### Publish -/

/-- `Topic | PacketId | QoS | Retain | Dup`, the part that every form of the metadata has. -/
def publishHead (topic : List UInt8) (packetId qos : Nat) (retain dup : Bool) : List UInt8 :=
  block topic ++ (bigEndian 2 packetId ++ (bigEndian 1 qos ++ (bigEndian 1 retain.toNat ++
    bigEndian 1 dup.toNat)))

def encodePublishMeta (topic : List UInt8) (packetId qos : Nat) (retain dup : Bool) :
    Option (List UInt8) :=
  if packetId ≤ 65535 ∧ qos ≤ 2 ∧ 1 ≤ topic.length then
    some (publishHead topic packetId qos retain dup)
  else none

def encodePublishMetaAlias (topic : List UInt8) (packetId qos : Nat) (retain dup : Bool)
    (topicAlias : Nat) : Option (List UInt8) :=
  if packetId ≤ 65535 ∧ qos ≤ 2 ∧ topicAlias ≤ 65535 ∧ (1 ≤ topic.length ∨ topicAlias ≠ 0) then
    some (publishHead topic packetId qos retain dup ++ bigEndian 2 topicAlias)
  else none

def encodeMetaUsers (users : List (List UInt8 × List UInt8)) : Option (List UInt8) :=
  if users.length ≤ maxV5MetaUsers ∧ ∀ user ∈ users,
      1 ≤ user.1.length ∧ user.1.length ≤ maxV5MetaString ∧ user.2.length ≤ maxV5MetaString then
    some (users.foldl (fun acc user => acc ++ (block user.1 ++ block user.2)) [])
  else none

def encodePublishMetaV5 (topic : List UInt8) (packetId qos : Nat) (retain dup : Bool)
    (topicAlias format expiry : Nat) (users : List (List UInt8 × List UInt8)) :
    Option (List UInt8) :=
  if packetId ≤ 65535 ∧ qos ≤ 2 ∧ topicAlias ≤ 65535 ∧ (1 ≤ topic.length ∨ topicAlias ≠ 0) ∧
      format ≤ 1 ∧ expiry ≤ 0xFFFFFFFF then
    (encodeMetaUsers users).map fun usersBin =>
      publishHead topic packetId qos retain dup ++ (bigEndian 2 topicAlias ++
        (bigEndian 1 format ++ (bigEndian 4 expiry ++ (bigEndian 2 users.length ++ usersBin))))
  else none

def publishMeta (level : ProtoLevel) (pub : Publish) : Option (List UInt8) :=
  match level with
  | .v5 =>
    encodePublishMetaV5 pub.topic pub.packetId pub.qos pub.retain pub.dup
      (if pub.aliasPresent then pub.topicAlias else 0) pub.payloadFormat pub.messageExpiry
      pub.userProperties
  | .v4 =>
    if pub.aliasPresent then
      encodePublishMetaAlias pub.topic pub.packetId pub.qos pub.retain pub.dup pub.topicAlias
    else encodePublishMeta pub.topic pub.packetId pub.qos pub.retain pub.dup

/-! ### Acknowledgements and the end of a connection -/

def encodePubackMeta (packetId rc : Nat) : Option (List UInt8) :=
  if 1 ≤ packetId ∧ packetId ≤ 65535 ∧ rc ≤ 255 then
    some (bigEndian 2 packetId ++ bigEndian 1 rc)
  else none

def encodePacketIdMeta (packetId : Nat) : Option (List UInt8) :=
  if 1 ≤ packetId ∧ packetId ≤ 65535 then some (bigEndian 2 packetId) else none

def encodePubrecMeta : Nat → Option (List UInt8) := encodePacketIdMeta

def encodePubrelMeta : Nat → Option (List UInt8) := encodePacketIdMeta

def encodePubcompMeta : Nat → Option (List UInt8) := encodePacketIdMeta

def encodeUnbindMeta (clientId : List UInt8) : List UInt8 :=
  bigEndian 2 clientId.length ++ clientId

def encodeUnbindReasonMeta (clientId : List UInt8) (reason : UInt8) : List UInt8 :=
  encodeUnbindMeta clientId ++ [reason]

/-! ### Where the encoders raise -/

def Subscribe.Encodable (level : ProtoLevel) (sub : Subscribe) : Prop :=
  sub.subscriptions.length ≤ 65535 ∧ (level = .v5 → ∀ entry ∈ sub.subscriptions, entry.1 ≠ [])

def Publish.Encodable (level : ProtoLevel) (pub : Publish) : Prop :=
  level = .v5 → (pub.topic = [] → pub.topicAlias ≠ 0) ∧
    ∀ user ∈ pub.userProperties, user.1 ≠ []

theorem subscribeMeta_isSome_iff {sub : Subscribe} (clientId : List UInt8)
    (hSound : sub.Sound level) :
    (subscribeMeta level clientId sub).isSome ↔ sub.Encodable level := by
  have hId := hSound.packetId
  have hNonempty : sub.subscriptions.isEmpty = false := by simpa using hSound.nonempty
  cases level with
  | v4 =>
    have hEntries := hSound.strict rfl
    grind [subscribeMeta, encodeSubscribeMeta, validateMetaSubs, Subscribe.Encodable,
      List.length_pos_iff]
  | v5 =>
    have hSubId := hSound.subId
    have hOpts := hSound.opts
    grind [subscribeMeta, encodeSubscribeMetaV5, validateMetaSubsV5, Subscribe.Encodable,
      List.length_pos_iff]

theorem encodeMetaUsers_isSome_iff {pub : Publish} (hSound : pub.Sound level) :
    (encodeMetaUsers pub.userProperties).isSome ↔ ∀ user ∈ pub.userProperties, user.1 ≠ [] := by
  have hUsers := hSound.users
  have hCount : pub.userProperties.length ≤ maxV5MetaUsers := hSound.count
  simp only [encodeMetaUsers, hCount, true_and, Option.isSome_ite]
  apply forall₂_congr
  intro user hUser
  have hLong := hUsers user hUser
  simp only [Nat.one_le_iff_ne_zero, ne_eq, List.length_eq_zero_iff]
  exact and_iff_left hLong

theorem publishMeta_isSome_iff {pub : Publish} (hSound : pub.Sound level) :
    (publishMeta level pub).isSome ↔ pub.Encodable level := by
  have hId := hSound.packetId
  have hQos := hSound.qos
  cases level with
  | v4 =>
    have hAbsent := hSound.legacy rfl
    have hTopic : 1 ≤ pub.topic.length := by
      apply List.length_pos_of_ne_nil
      intro hEmpty
      rw [hSound.topic hEmpty] at hAbsent
      cases hAbsent
    simp [publishMeta, hAbsent, encodePublishMeta, hId, hQos, hTopic, Publish.Encodable]
  | v5 =>
    have hAlias : (if pub.aliasPresent then pub.topicAlias else 0) = pub.topicAlias := by
      cases hPresent : pub.aliasPresent with
      | true => rfl
      | false => exact (hSound.absent hPresent).symm
    have hRange := hSound.topicAlias
    have hFormat := hSound.format
    have hExpiry := hSound.expiry
    grind [List.length_eq_zero_iff, publishMeta, encodePublishMetaV5, Publish.Encodable,
      encodeMetaUsers_isSome_iff]

end IndraMqtt.Edge

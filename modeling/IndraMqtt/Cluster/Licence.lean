import IndraMqtt.Kernel.TenantExpression

/-! Enterprise licences of a cluster. A token is three parts with dots between them: a fixed
word, the payload and a signature over the payload's bytes. The library calls that decode, parse
and verify are parameters, so that every result holds for whatever they answer. -/
namespace IndraMqtt.Cluster

open Protocol Kernel

structure LicensePayload where
  customer : Str
  maxNodes : Nat
  expiresAt : UInt64
  features : List Str
  nodeId : Str
  kid : Str
  gracePeriodDays : UInt64
  deriving DecidableEq, Repr

/-- The calls that leave the crate: the URL-safe decoder without padding, `Signature::from_slice`,
the JSON parser with the text of its error, and the verification under a key. -/
structure Crypto where
  decode : Str → Option (List UInt8)
  isSignature : List UInt8 → Bool
  parsePayload : List UInt8 → Except Str LicensePayload
  verify : List UInt8 → List UInt8 → List UInt8 → Bool

structure TrustedKeys where
  keys : List (Str × List UInt8)
  deriving DecidableEq, Repr

inductive LicenseStatus where
  | communityEvaluation (maxEvalNodes : Nat)
  | enterpriseValid (customer : Str) (maxNodes : Nat) (expiresAt : UInt64) (features : List Str)
  | grace (customer : Str) (expiresAt daysRemaining : UInt64) (maxNodes : Nat)
      (features : List Str)
  | expired (customer : Str) (expiredAt : UInt64)
  | quotaExceeded (customer : Str) (currentNodes maxNodes : Nat)
  | invalidSignature (reason : Str)
  deriving DecidableEq, Repr

def tokenWord : Str := "INDRA-ENT-V2".toList

def secsPerDay : UInt64 := 86400

def knownEntitlements : List Str := ["clustering".toList]

def isKnownEntitlement (name : Str) : Bool := knownEntitlements.contains name

def validateEntitlements : List Str → Except Str Unit
  | [] => .ok ()
  | feature :: features =>
    let name := trim feature
    if name.isEmpty then .error "licence carries an empty entitlement".toList
    else if !isKnownEntitlement name then
      .error ("unknown entitlement '".toList ++ name ++ "'".toList)
    else validateEntitlements features

namespace LicensePayload

def graceSecs (payload : LicensePayload) : UInt64 :=
  UInt64.ofNat (min (payload.gracePeriodDays.toNat * secsPerDay.toNat) (UInt64.size - 1))

/-- The end of `evaluate`: the status of a payload that verified. The time since the expiry is
only computed past it, where the subtraction does not saturate. -/
def status (payload : LicensePayload) (currentNodes : Nat) (currentEpochSec : UInt64) :
    LicenseStatus :=
  if payload.expiresAt < currentEpochSec then
    let elapsed := currentEpochSec - payload.expiresAt
    if elapsed ≤ payload.graceSecs then
      .grace payload.customer payload.expiresAt ((payload.graceSecs - elapsed) / secsPerDay)
        payload.maxNodes payload.features
    else .expired payload.customer payload.expiresAt
  else if payload.maxNodes < currentNodes then
    .quotaExceeded payload.customer currentNodes payload.maxNodes
  else
    .enterpriseValid payload.customer payload.maxNodes payload.expiresAt payload.features

end LicensePayload

namespace ClusterLicense

def defaultEvalNodes : Nat := 3

section

variable (crypto : Crypto) (trusted : TrustedKeys)

/-- The middle of `evaluate`: the payload of a token, once its signature verifies under the key
it names. Errors are the reasons of `LicenseStatus::InvalidSignature`. -/
def openToken (token : Str) : Except Str LicensePayload :=
  match token.splitOn '.' with
  | [word, payloadB64, sigB64] =>
    if word ≠ tokenWord then
      .error "Unsupported license token format (expected INDRA-ENT-V2)".toList
    else
      match crypto.decode payloadB64, crypto.decode sigB64 with
      | none, _ => .error "Invalid encoding in license payload".toList
      | some _, none => .error "Invalid encoding in license signature".toList
      | some payloadBytes, some sigBytes =>
        if sigBytes.length != 64 || !crypto.isSignature sigBytes then
          .error "Malformed license signature".toList
        else
          match crypto.parsePayload payloadBytes with
          | .error e => .error ("Malformed payload JSON: ".toList ++ e)
          | .ok unverified =>
            if (trim unverified.kid).isEmpty then .error "licence missing key id".toList
            else
              match AssocList.get trusted.keys (trim unverified.kid) with
              | none =>
                .error ("unknown signing key '".toList ++ trim unverified.kid ++
                  "'".toList)
              | some verifyingKey =>
                if crypto.verify verifyingKey payloadBytes sigBytes then .ok unverified
                else .error "Cryptographic signature mismatch".toList
  | _ => .error "Unsupported license token format".toList

/-- The checks of `evaluate` on a verified payload: that it is bound to this cluster and that
every entitlement is known. -/
def bindPayload (payload : LicensePayload) (expectedNodeId : Str) : Except Str LicensePayload :=
  if (trim payload.nodeId).isEmpty then .error "licence missing node binding".toList
  else if payload.nodeId ≠ expectedNodeId then
    .error ("licence identity mismatch: issued for '".toList ++ payload.nodeId ++
      "', not '".toList ++ expectedNodeId ++ "'".toList)
  else
    match validateEntitlements payload.features with
    | .error reason => .error ("unknown entitlement: ".toList ++ reason)
    | .ok () => .ok payload

def verified (token expectedNodeId : Str) : Except Str LicensePayload :=
  match openToken crypto trusted token with
  | .error reason => .error reason
  | .ok payload => bindPayload payload expectedNodeId

def tokenOf (key : Option Str) : Option Str :=
  (key.map trim).filter fun token => !token.isEmpty

def evaluate (key : Option Str) (currentNodes : Nat) (currentEpochSec : UInt64)
    (expectedNodeId : Str) : LicenseStatus :=
  match tokenOf key with
  | none => .communityEvaluation defaultEvalNodes
  | some token =>
    match verified crypto trusted token expectedNodeId with
    | .error reason => .invalidSignature reason
    | .ok payload => payload.status currentNodes currentEpochSec

end

end ClusterLicense

end IndraMqtt.Cluster

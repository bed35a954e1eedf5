
/-! The SUBACK packet of the two front ends: the native listener writes the codes
of the kernel as they are, and the Erlang edge checks them first. -/
namespace IndraMqtt.Wire

/-- The loop of `encode_varint`, cut off after `fuel` bytes. -/
def encodeVarintLoop : Nat → Nat → List UInt8
  | 0, _ => []
  | fuel + 1, value =>
    let byte := UInt8.ofNat (value % 128)
    if 0 < value / 128 then (byte ||| 0x80) :: encodeVarintLoop fuel (value / 128) else [byte]

/-- `encode_varint` of a length that was cast to 32 bits, which has five groups. -/
def encodeVarint (value : Nat) : List UInt8 := encodeVarintLoop 5 (value % 4294967296)

def toBeBytes (value : UInt16) : List UInt8 := [(value >>> 8).toUInt8, value.toUInt8]

def putFixedHeader (first : UInt8) (remaining : Nat) : List UInt8 :=
  first :: encodeVarint remaining

def encodeSuback (packetId : UInt16) (codes : List UInt8) (level : Nat) : List UInt8 :=
  let props : List UInt8 := if level == 5 then [0] else []
  putFixedHeader 0x90 (2 + props.length + codes.length) ++ toBeBytes packetId ++ props ++ codes

/-- The return codes of MQTT 3.1.1: a granted QoS or the failure. -/
def SubackCode (code : UInt8) : Prop := code = 0 ∨ code = 1 ∨ code = 2 ∨ code = 0x80

/-- A well-formed SUBACK packet of MQTT 3.1.1. -/
def ValidSuback (packet : List UInt8) : Prop :=
  ∃ packetId codes, packetId ≠ 0 ∧ (∀ code ∈ codes, SubackCode code) ∧
    packet = putFixedHeader 0x90 (2 + codes.length) ++ toBeBytes packetId ++ codes

variable {packetId : UInt16} {codes : List UInt8}

theorem validSuback_encodeSuback (hId : packetId ≠ 0) (hCodes : ∀ code ∈ codes, SubackCode code) :
    ValidSuback (encodeSuback packetId codes 4) := by
  refine ⟨packetId, codes, hId, hCodes, ?_⟩
  simp [encodeSuback]

end IndraMqtt.Wire

namespace IndraMqtt.Edge

open Wire

/-- `encode_rl`, with the bytes written so far and cut off after `fuel` of them. -/
def encodeRl : Nat → Nat → List UInt8 → List UInt8
  | 0, _, acc => acc
  | fuel + 1, n, acc =>
    let digit := UInt8.ofNat (n % 128)
    if 0 < n / 128 then encodeRl fuel (n / 128) (acc ++ [digit ||| 0x80]) else acc ++ [digit]

def maxRemaining : Nat := 268435455

/-- `encode_remaining_length`; outside the guard no clause matches. -/
def encodeRemainingLength (n : Nat) : Option (List UInt8) :=
  if n ≤ maxRemaining then some (encodeRl 4 n []) else none

/-- `validate_suback_codes`, where `false` is the raised `badarg`. -/
def validateSubackCodes : List UInt8 → Bool
  | [] => true
  | code :: rest =>
    if code == 0x80 then validateSubackCodes rest
    else if code ≤ 2 then validateSubackCodes rest
    else false

/-- `encode_suback/2`. Every raised error is `none`. -/
def encodeSuback (packetId : UInt16) (codes : List UInt8) : Option (List UInt8) :=
  if packetId != 0 && validateSubackCodes codes then
    (encodeRemainingLength (2 + codes.length)).map fun length =>
      0x90 :: length ++ toBeBytes packetId ++ codes
  else none

theorem validateSubackCodes_iff (codes : List UInt8) :
    validateSubackCodes codes = true ↔ ∀ code ∈ codes, SubackCode code := by
  induction codes with
  | nil => simp [validateSubackCodes]
  | cons code rest ih =>
    rw [validateSubackCodes, List.forall_mem_cons, SubackCode]
    grind

/-- The edge writes the packet exactly when every code is one of MQTT 3.1.1. -/
theorem encodeSuback_isSome_iff (hId : packetId ≠ 0) (hLength : 2 + codes.length ≤ maxRemaining) :
    (encodeSuback packetId codes).isSome ↔ ∀ code ∈ codes, SubackCode code := by
  rw [encodeSuback, encodeRemainingLength, if_pos hLength]
  cases hValid : validateSubackCodes codes with
  | false =>
    have hInvalid := mt (validateSubackCodes_iff codes).mpr (by simp [hValid])
    simp [hInvalid]
  | true =>
    have hCodes := (validateSubackCodes_iff codes).mp hValid
    simpa [hId] using hCodes

end IndraMqtt.Edge

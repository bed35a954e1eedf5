import IndraMqtt.Lib.Bytes

/-! The packets that the edge takes off a client socket. A packet is framed by its fixed header
alone. The bodies of SUBSCRIBE and PUBLISH are decoded for the level that the CONNECT
negotiated, and at level 5 a property section is walked to its end. -/
namespace IndraMqtt.Edge

inductive ProtoLevel where
  | v4
  | v5
  deriving DecidableEq

/-- The reasons of the codec. Nothing at the edge tells them apart, but they are what the
functions return. -/
inductive CodecError where
  | invalidPacketType (type : Nat)
  | invalidFlags (type flags : Nat)
  | malformedRemainingLength
  | malformedVarint
  | unknownProperty (id : Nat)
  | unsupportedProtocol (name : List UInt8) (level : Nat)
  | truncatedConnect
  | trailingConnectBytes
  | invalidConnectFlags (flags : Nat)
  | malformedConnectProperties
  | malformedSubscribe
  | truncatedSubscribe
  | emptySubscribe
  | invalidSubscribeQos (qos : Nat)
  | malformedPublishTopic
  | invalidPublishTopic
  | invalidPublishQos (qos : Nat)
  | malformedPublishPacketId
  | malformedPublishProperties
  | truncatedPublish
  | malformedDisconnect
  | truncatedDisconnect
  | trailingDisconnectBytes
  deriving DecidableEq

/-! ### Framing -/

structure Packet where
  type : Nat
  flags : Nat
  payload : List UInt8
  deriving DecidableEq

/-- The answers of `decode_packet` and of `decode_remaining_length`. -/
inductive Framed (α : Type) where
  | ok (value : α) (rest : List UInt8)
  | more (need : Nat)
  | error (reason : CodecError)
  deriving DecidableEq

def decodeRl : List UInt8 → Nat → Nat → Framed Nat
  | [], _, _ => .more 1
  | byte :: rest, value, count =>
    let value := value + (byte &&& 0x7F).toNat * 2 ^ (7 * count)
    if byte &&& 0x80 = 0 then .ok value rest
    else if 3 ≤ count then .error .malformedRemainingLength
    else decodeRl rest value (count + 1)

/-- `decode_remaining_length`. It returns the rest of the bytes in place of the number of bytes
that it used. -/
def decodeRemainingLength (bytes : List UInt8) : Framed Nat := decodeRl bytes 0 0

def isValidType (type : Nat) : Bool := 1 ≤ type && type ≤ 14

def validateFlags (type flags : Nat) : Bool :=
  if type ∈ [1, 4, 12, 13, 14] then flags = 0
  else if type = 3 then (flags &&& 0x06) >>> 1 ≤ 2
  else if type ∈ [8, 10] then flags = 2
  else true

def decodePacket : List UInt8 → Framed Packet
  | [] => .more 1
  | head :: bytes =>
    let type := head.toNat / 16
    let flags := head.toNat % 16
    if !isValidType type then .error (.invalidPacketType type)
    else if !validateFlags type flags then .error (.invalidFlags type flags)
    else
      match decodeRemainingLength bytes with
      | .ok remLen rest =>
        if rest.length < remLen then .more (remLen - rest.length)
        else .ok { type, flags, payload := rest.take remLen } (rest.drop remLen)
      | .more need => .more need
      | .error reason => .error reason

/-- Bytes behind what was framed do not change it. -/
def Framed.behind {α : Type} (framed : Framed α) (tail : List UInt8) : Framed α :=
  match framed with
  | .ok value rest => .ok value (rest ++ tail)
  | .more need => .more need
  | .error reason => .error reason

theorem decodeRl_append (bytes tail : List UInt8) (value count : Nat)
    (hFramed : ∀ need, decodeRl bytes value count ≠ .more need) :
    decodeRl (bytes ++ tail) value count = (decodeRl bytes value count).behind tail := by
  induction bytes generalizing value count with
  | nil => exact absurd rfl (hFramed 1)
  | cons byte bytes ih =>
    rw [List.cons_append, decodeRl, decodeRl]
    rw [decodeRl] at hFramed
    split
    · rfl
    · next hMore =>
      rw [if_neg hMore] at hFramed
      split
      · rfl
      · next hCount =>
        rw [if_neg hCount] at hFramed
        exact ih _ _ hFramed

variable {bytes rest : List UInt8} {packet : Packet}

theorem decodeRl_cut {value count remLen : Nat}
    (hFramed : decodeRl bytes value count = .ok remLen rest) : ∃ front, bytes = front ++ rest ∧
      ∀ more, decodeRl (front ++ more) value count = .ok remLen more := by
  induction bytes generalizing value count with
  | nil => cases hFramed
  | cons byte bytes ih =>
    rw [decodeRl] at hFramed
    split at hFramed
    · next hLast =>
      cases hFramed
      exact ⟨[byte], rfl, fun more => by rw [List.singleton_append, decodeRl, if_pos hLast]⟩
    · next hMore =>
      split at hFramed
      · cases hFramed
      · next hCount =>
        obtain ⟨front, rfl, hFront⟩ := ih hFramed
        refine ⟨byte :: front, rfl, fun more => ?_⟩
        rw [List.cons_append, decodeRl, if_neg hMore, if_neg hCount]
        exact hFront more

/-- A packet is framed by its own bytes. -/
theorem decodePacket_cut (hFramed : decodePacket bytes = .ok packet rest) :
    ∃ front, bytes = front ++ rest ∧ ∀ more, decodePacket (front ++ more) = .ok packet more := by
  cases bytes with
  | nil => cases hFramed
  | cons head bytes =>
    cases hLength : decodeRemainingLength bytes with
    | more need => grind [decodePacket]
    | error reason => grind [decodePacket]
    | ok remLen left =>
      obtain ⟨front, rfl, hFront⟩ := decodeRl_cut hLength
      refine ⟨head :: (front ++ left.take remLen), ?_, fun more => ?_⟩
      · grind [decodePacket, List.take_append_drop]
      · have hRead : decodeRemainingLength (front ++ (left.take remLen ++ more)) =
            .ok remLen (left.take remLen ++ more) := hFront _
        grind [decodePacket]

/-- A framed packet takes at least one byte. -/
theorem decodePacket_rest_lt (hFramed : decodePacket bytes = .ok packet rest) :
    rest.length < bytes.length := by
  obtain ⟨front, rfl, hFront⟩ := decodePacket_cut hFramed
  cases front with
  | nil => cases hFront []
  | cons head front => grind

/-- The answer stays once it is not `more`. -/
theorem decodePacket_append (bytes tail : List UInt8)
    (hFramed : ∀ need, decodePacket bytes ≠ .more need) :
    decodePacket (bytes ++ tail) = (decodePacket bytes).behind tail := by
  cases bytes with
  | nil => exact absurd rfl (hFramed 1)
  | cons head bytes =>
    have hAppend := decodeRl_append bytes tail 0 0
    rw [List.cons_append, decodePacket]
    grind [decodePacket, decodeRemainingLength, Framed.behind]

end IndraMqtt.Edge

import IndraMqtt.Wire.Packets
import IndraMqtt.Wire.Suback

/-! The PUBLISH that the broker sends, and the fixed header at the front of every packet. A
packet is written with the length of its body in front, and the decoder of the listener reads
the same packet back. -/
namespace IndraMqtt.Wire

open Bytes Protocol Reader
open UInt8 (ofNat)

variable {texts : List (Str × Str)} {value : Nat} {publish : PublishOut}

def maxRemaining : Nat := 268435455

/-! ### The fixed header -/

structure FixedHeader where
  kind : UInt8
  flags : UInt8
  headerLen : Nat
  remaining : Nat
  deriving DecidableEq

def FixedHeader.packetLen (header : FixedHeader) : Nat := header.headerLen + header.remaining

/-- The flags that a packet type must have, `none` for the reserved type. -/
def expectedFlags (kind flags : UInt8) : Option UInt8 :=
  if kind = 3 then some flags
  else if kind ∈ [6, 8, 10] then some 0x02
  else if kind ∈ [1, 2, 4, 5, 7, 9, 11, 12, 13, 14, 15] then some 0x00
  else none

/-- `fixed_header`. The value `none` asks for more bytes. -/
def fixedHeader : List UInt8 → Except WireError (Option FixedHeader)
  | [] => .ok none
  | first :: buf =>
    match decodeVarint buf with
    | .error reason => .error reason
    | .ok none => .ok none
    | .ok (some (remaining, used)) =>
      let kind := first >>> 4
      let flags := first &&& 0x0F
      match expectedFlags kind flags with
      | none => .error (.malformed "packet type 0 is reserved")
      | some expected =>
        if flags ≠ expected then .error (.malformed "incorrect fixed header flags")
        else .ok (some { kind, flags, headerLen := 1 + used, remaining })

variable (digit : Fin 128) (fuel users : Nat) (props : PublishProperties)

/-- The seven bits and the mark of a group that others follow. -/
theorem group_marked : ((ofNat digit.val ||| 0x80) &&& 0x7F).toNat = digit.val ∧
      ((ofNat digit.val ||| 0x80) &&& 0x80 == 0) = false := by
  revert digit
  decide +kernel

/-- The seven bits and the mark of the last group. -/
theorem group_last : (ofNat digit.val &&& 0x7F).toNat = digit.val ∧
      (ofNat digit.val &&& 0x80 == 0) = true := by
  revert digit
  decide +kernel

/-- A new group stands above the bits that were read before it. -/
theorem or_group {index : Nat} (hValue : value < 2 ^ (7 * index)) (digit : Nat) :
    value ||| (digit <<< (7 * index)) = value + digit * 2 ^ (7 * index) := by
  rw [Nat.or_comm, Nat.shiftLeft_eq, Nat.mul_comm, ← Nat.two_pow_add_eq_or_of_lt hValue,
    Nat.add_comm]

theorem encodeVarintLoop_last (hValue : value < 128) :
    encodeVarintLoop (fuel + 1) value = [ofNat value] := by
  have hDiv : value / 128 = 0 := Nat.div_eq_of_lt hValue
  rw [encodeVarintLoop, hDiv, Nat.mod_eq_of_lt hValue]
  rfl

theorem encodeVarintLoop_more (hValue : 128 ≤ value) : encodeVarintLoop (fuel + 1) value =
      (ofNat (value % 128) ||| 0x80) :: encodeVarintLoop fuel (value / 128) := by
  have hDiv : 0 < value / 128 := Nat.div_pos hValue (by decide)
  rw [encodeVarintLoop, if_pos hDiv]

theorem group_power (index : Nat) : 2 ^ (7 * (index + 1)) = 128 * 2 ^ (7 * index) := by
  rw [Nat.mul_add, Nat.pow_add, Nat.mul_comm]

theorem group_room {index found digit : Nat} (hFound : found < 2 ^ (7 * index))
    (hDigit : digit < 128) : found + digit * 2 ^ (7 * index) < 2 ^ (7 * (index + 1)) := by
  have hMul := Nat.mul_le_mul_right (2 ^ (7 * index)) (Nat.le_of_lt_succ hDigit)
  rw [group_power]
  omega

/-- The groups of a number are read back, whatever stands behind them. -/
theorem decodeVarintLoop_encode {left fuel : Nat} (hFuel : left ≤ fuel)
    (hValue : value < 128 ^ (left + 1)) {index found : Nat} (hFound : found < 2 ^ (7 * index))
    (rest : List UInt8) :
    decodeVarintLoop (left + 1) index found (encodeVarintLoop (fuel + 1) value ++ rest) =
      some (found + value * 2 ^ (7 * index),
        index + (encodeVarintLoop (fuel + 1) value).length) := by
  induction left generalizing fuel value index found with
  | zero =>
    rw [Nat.zero_add, Nat.pow_one] at hValue
    obtain ⟨hBits, hMark⟩ := group_last ⟨value, hValue⟩
    rw [encodeVarintLoop_last fuel hValue, List.singleton_append, decodeVarintLoop]
    simp only [hBits, hMark, if_true, or_group hFound, List.length_singleton]
  | succ left ih =>
    by_cases hSmall : value < 128
    · obtain ⟨hBits, hMark⟩ := group_last ⟨value, hSmall⟩
      rw [encodeVarintLoop_last fuel hSmall, List.singleton_append, decodeVarintLoop]
      simp only [hBits, hMark, if_true, or_group hFound, List.length_singleton]
    · obtain ⟨fuel, rfl⟩ : ∃ k, fuel = k + 1 := ⟨fuel - 1, by omega⟩
      have hDigit : value % 128 < 128 := Nat.mod_lt _ (by decide)
      obtain ⟨hBits, hMark⟩ := group_marked ⟨value % 128, hDigit⟩
      have hRest : value / 128 < 128 ^ (left + 1) := by
        rw [Nat.div_lt_iff_lt_mul (by decide), ← Nat.pow_succ]
        exact hValue
      have hSum : value % 128 * 2 ^ (7 * index) + value / 128 * 2 ^ (7 * (index + 1)) =
          value * 2 ^ (7 * index) := by
        rw [group_power, ← Nat.mul_assoc, ← Nat.add_mul, Nat.mul_comm (value / 128),
          Nat.mod_add_div]
      rw [encodeVarintLoop_more _ (Nat.le_of_not_lt hSmall), List.cons_append, decodeVarintLoop]
      simp only [hBits, hMark, Bool.false_eq_true, if_false, or_group hFound]
      rw [ih (Nat.le_of_succ_le_succ hFuel) hRest (group_room hFound hDigit), Nat.add_assoc, hSum,
        List.length_cons,
        Nat.add_assoc, Nat.add_comm 1]

theorem decodeVarint_encodeVarint (hValue : value ≤ maxRemaining) (rest : List UInt8) :
    decodeVarint (encodeVarint value ++ rest) = .ok (some (value, (encodeVarint value).length)) := by
  have hLt : value < 128 ^ (3 + 1) := by
    have hMax : maxRemaining < 128 ^ (3 + 1) := by decide
    omega
  have hCast : value % 4294967296 = value := Nat.mod_eq_of_lt (by
    simp only [maxRemaining] at hValue
    omega)
  have hLoop : decodeVarintLoop (3 + 1) 0 0 (encodeVarintLoop (4 + 1) value ++ rest) =
      some (0 + value * 2 ^ (7 * 0), 0 + (encodeVarintLoop (4 + 1) value).length) :=
    decodeVarintLoop_encode (by decide) hLt (by decide) rest
  simp only [Nat.mul_zero, Nat.pow_zero, Nat.mul_one, Nat.zero_add] at hLoop
  rw [decodeVarint, encodeVarint, hCast, hLoop]

/-- A packet's fixed header is read back with what the packet holds. -/
theorem fixedHeader_append {first : UInt8} {remaining : Nat}
    (hFlags : expectedFlags (first >>> 4) (first &&& 0x0F) = some (first &&& 0x0F))
    (hFits : remaining ≤ maxRemaining) (body : List UInt8) :
    fixedHeader (putFixedHeader first remaining ++ body) =
      .ok (some { kind := first >>> 4, flags := first &&& 0x0F
                  headerLen := (putFixedHeader first remaining).length, remaining }) := by
  rw [putFixedHeader, List.cons_append, fixedHeader, decodeVarint_encodeVarint hFits]
  simp [hFlags, ne_eq, not_true_eq_false, List.length_cons, Nat.add_comm 1]

theorem group_cases (byte : UInt8) : ∃ digit : Fin 128,
    byte = ofNat digit.val ∨ byte = ofNat digit.val ||| 0x80 := by
  have hAll : ∀ code : Fin 256, ofNat code.val = ofNat (code.val % 128) ∨
      ofNat code.val = ofNat (code.val % 128) ||| 0x80 := by decide +kernel
  have hByte := hAll ⟨byte.toNat, byte.toNat_lt⟩
  rw [UInt8.ofNat_toNat] at hByte
  exact ⟨⟨byte.toNat % 128, Nat.mod_lt _ (by decide)⟩, hByte⟩

/-- The groups of a number as they were read, with a last one that may be zero. -/
structure Groups (fuel : Nat) (bytes : List UInt8) (count value : Nat) : Prop where
  pos : 0 < count
  minimal : bytes.take count = encodeVarintLoop fuel value ↔
    count = 1 ∨ bytes[count - 1]? ≠ some 0
  value_ne : bytes[count - 1]? ≠ some 0 → value ≠ 0
  last_ne : count = 1 → value ≠ 0 → bytes[count - 1]? ≠ some 0

theorem Groups.last (bytes : List UInt8) :
    Groups (fuel + 1) (ofNat digit.val :: bytes) 1 digit.val := by
  have hZero : ofNat digit.val = 0 ↔ digit.val = 0 := by
    revert digit
    decide +kernel
  refine ⟨by decide, ?_, ?_, ?_⟩
  · simp [encodeVarintLoop_last fuel digit.isLt]
  · simp [hZero]
  · simp [hZero]

theorem Groups.more {bytes : List UInt8} {count : Nat} (hGroups : Groups fuel bytes count value) :
    Groups (fuel + 1) ((ofNat digit.val ||| 0x80) :: bytes) (count + 1)
      (digit.val + 128 * value) := by
  have hPos := hGroups.pos
  have hMarks : ofNat digit.val ||| 0x80 ≠ ofNat digit.val := by
    clear hGroups
    revert digit
    decide +kernel
  have hLast : ((ofNat digit.val ||| 0x80) :: bytes)[count + 1 - 1]? =
      bytes[count - 1]? := by
    obtain ⟨k, rfl⟩ := Nat.exists_eq_succ_of_ne_zero hPos.ne'
    rfl
  have hOne : count + 1 ≠ 1 := by omega
  constructor
  case pos => exact Nat.succ_pos _
  case minimal =>
    rw [hLast, List.take_succ_cons, or_iff_right hOne]
    by_cases hValue : value = 0
    · -- the encoder ends where all groups behind are zero
      have hZero : bytes[count - 1]? = some 0 := by
        by_contra hNe
        exact hGroups.value_ne hNe hValue
      have hSum : digit.val + 128 * value = digit.val := by omega
      rw [hSum, encodeVarintLoop_last fuel digit.isLt, hZero]
      simp [hMarks]
    · have hMinimal := or_iff_right_of_imp fun hCount => hGroups.last_ne hCount hValue
      have hDigit : (digit.val + 128 * value) % 128 = digit.val := by omega
      have hRest : (digit.val + 128 * value) / 128 = value := by omega
      rw [encodeVarintLoop_more fuel (by omega), hDigit, hRest, List.cons.injEq, hGroups.minimal,
        hMinimal, and_iff_right rfl]
  case value_ne =>
    intro hNe
    have hValue := hGroups.value_ne (hLast ▸ hNe)
    omega
  case last_ne => exact fun hCount => absurd hCount hOne

theorem decodeVarintLoop_groups {fuel left index found : Nat} {bytes : List UInt8}
    {read : Nat × Nat} (hFuel : left ≤ fuel) (hFound : found < 2 ^ (7 * index))
    (hLoop : decodeVarintLoop left index found bytes = some read) :
    ∃ count value, read = (found + value * 2 ^ (7 * index), index + count) ∧ value < 128 ^ left ∧
      Groups fuel bytes count value := by
  induction left generalizing fuel index found bytes with
  | zero => cases hLoop
  | succ left ih =>
    obtain ⟨fuel, rfl⟩ : ∃ k, fuel = k + 1 := ⟨fuel - 1, by omega⟩
    cases bytes with
    | nil => cases hLoop
    | cons byte bytes =>
      rw [decodeVarintLoop] at hLoop
      obtain ⟨digit, rfl | rfl⟩ := group_cases byte
      · obtain ⟨hBits, hMark⟩ := group_last digit
        simp only [hBits, hMark, if_true, or_group hFound, Option.some.injEq] at hLoop
        have hPow : 128 ≤ 128 ^ (left + 1) := Nat.le_self_pow (by omega) 128
        exact ⟨1, digit.val, hLoop.symm, Nat.lt_of_lt_of_le digit.isLt hPow, .last digit _ bytes⟩
      · obtain ⟨hBits, hMark⟩ := group_marked digit
        simp only [hBits, hMark, Bool.false_eq_true, if_false, or_group hFound] at hLoop
        obtain ⟨count, value, rfl, hLt, hGroups⟩ :=
          ih (Nat.le_of_succ_le_succ hFuel) (group_room hFound digit.isLt) hLoop
        refine ⟨count + 1, digit.val + 128 * value, ?_, ?_, hGroups.more digit _⟩
        · rw [group_power, Nat.add_mul, Nat.mul_left_comm, Nat.mul_assoc, Nat.add_assoc,
            Nat.add_assoc, Nat.add_comm 1]
        · have hDigit := digit.isLt
          rw [Nat.pow_succ]
          omega

structure PublishOut where
  dup : Bool
  qos : UInt8
  retain : Bool
  topic : Str
  packetId : UInt16
  topicAlias : UInt16
  subscriptionId : Nat
  payloadFormat : UInt8
  messageExpiry : UInt32
  userProperties : List (List UInt8 × List UInt8)
  payload : List UInt8
  deriving DecidableEq

def varintLen (value : Nat) : Nat :=
  if value ≤ 127 then 1 else if value ≤ 16383 then 2 else if value ≤ 2097151 then 3 else 4

namespace PublishOut

section

variable (publish : PublishOut)

def first : UInt8 :=
  let dup : UInt8 := if publish.dup then 1 else 0
  let retain : UInt8 := if publish.retain then 1 else 0
  (0x30 : UInt8) ||| (dup <<< 3) ||| ((publish.qos &&& 0x03) <<< 1) ||| retain

def sectionLen : Nat :=
  publish.userProperties.foldl
    (fun length pair => length + (1 + 2 + pair.1.length + 2 + pair.2.length))
    ((if publish.topicAlias != 0 then 3 else 0) +
      (if publish.subscriptionId != 0 then 1 + varintLen publish.subscriptionId else 0) +
      (if publish.payloadFormat != 0 then 2 else 0) +
      (if publish.messageExpiry != 0 then 5 else 0))

def propertySection : List UInt8 :=
  (if publish.topicAlias != 0 then 35 :: bigEndian 2 publish.topicAlias.toNat else []) ++
    (if publish.subscriptionId != 0 then 11 :: encodeVarint publish.subscriptionId else []) ++
    (if publish.payloadFormat != 0 then [1, publish.payloadFormat] else []) ++
    (if publish.messageExpiry != 0 then 2 :: bigEndian 4 publish.messageExpiry.toNat else []) ++
    publish.userProperties.flatMap fun pair => 38 :: (block pair.1 ++ block pair.2)

def remaining (level : Nat) : Nat :=
  let idLen := if 0 < publish.qos then 2 else 0
  let propsLen :=
    if level = 5 then varintLen publish.sectionLen + publish.sectionLen else 0
  2 + publish.topic.len + idLen + propsLen + publish.payload.length

def body (level : Nat) : List UInt8 :=
  block (asBytes publish.topic) ++
    ((if 0 < publish.qos then bigEndian 2 publish.packetId.toNat else []) ++
      ((if level = 5 then encodeVarint publish.sectionLen ++ publish.propertySection else []) ++
        publish.payload))

end

end PublishOut

def encodePublish (publish : PublishOut) (level : Nat) : List UInt8 :=
  putFixedHeader publish.first (publish.remaining level) ++ publish.body level

/-- The packet in the form in which it is decoded. Properties are sent at level 5 only. -/
def PublishOut.packet (publish : PublishOut) (users : List (Str × Str)) (level : Nat) : Publish :=
  { dup := publish.dup, qos := publish.qos, retain := publish.retain, topic := publish.topic
    packetId := publish.packetId
    topicAlias := if level = 5 ∧ publish.topicAlias ≠ 0 then some publish.topicAlias else none
    payloadFormat := if level = 5 then publish.payloadFormat else 0
    messageExpiry := if level = 5 then publish.messageExpiry else 0
    userProperties := if level = 5 then users else []
    payload := publish.payload }

/-- A PUBLISH that the codec can carry, with its user properties as texts. -/
structure PublishOut.Valid (publish : PublishOut) (texts : List (Str × Str)) : Prop where
  topic : publish.topic ≠ [] ∧ '+' ∉ publish.topic ∧ '#' ∉ publish.topic
  topicText : publish.topic.len < 65536 ∧ '\x00' ∉ publish.topic
  qos : publish.qos ≤ 2
  packetId : publish.packetId ≠ 0 ↔ 0 < publish.qos
  dup : publish.dup = true → 0 < publish.qos
  noSubscription : publish.subscriptionId = 0
  format : publish.payloadFormat ≤ 1
  users : publish.userProperties = texts.map fun pair => (asBytes pair.1, asBytes pair.2)
  count : texts.length ≤ maxUserProps
  sizes : ∀ pair ∈ texts, PropString pair.1 ∧ PropString pair.2

theorem PublishOut.Valid.subscription_le (hValid : publish.Valid texts) :
    publish.subscriptionId ≤ maxRemaining := by
  rw [hValid.noSubscription]
  exact Nat.zero_le _

/-! ### Lengths -/

theorem length_encodeVarint (hValue : value ≤ maxRemaining) :
    (encodeVarint value).length = varintLen value := by
  simp only [maxRemaining] at hValue
  have hCast : value % 4294967296 = value := Nat.mod_eq_of_lt (by omega)
  rw [encodeVarint, hCast, varintLen]
  grind [encodeVarintLoop]

/-- The loop that counts the user properties counts the bytes that are written for them. -/
theorem foldl_userLength (pairs : List (List UInt8 × List UInt8)) (start : Nat) :
    pairs.foldl (fun length pair => length + (1 + 2 + pair.1.length + 2 + pair.2.length)) start =
      start + (pairs.flatMap fun pair => 38 :: (block pair.1 ++ block pair.2)).length := by
  induction pairs generalizing start with
  | nil => rfl
  | cons pair pairs ih =>
    rw [List.foldl_cons, ih, List.flatMap_cons, List.length_append, List.length_cons,
      List.length_append, length_block, length_block]
    omega

theorem PublishOut.length_propertySection (hId : publish.subscriptionId ≤ maxRemaining) :
    publish.propertySection.length = publish.sectionLen := by
  unfold PublishOut.propertySection PublishOut.sectionLen
  rw [foldl_userLength]
  simp only [List.length_append, apply_ite List.length, List.length_cons, List.length_nil,
    length_bigEndian, length_encodeVarint hId, Nat.add_comm _ 1, Nat.reduceAdd]

theorem PublishOut.length_body {level : Nat} (hId : publish.subscriptionId ≤ maxRemaining)
    (hFits : publish.remaining level ≤ maxRemaining) :
    (publish.body level).length = publish.remaining level := by
  unfold PublishOut.remaining PublishOut.body at *
  simp only [List.length_append, length_block, length_asBytes, apply_ite List.length,
    length_bigEndian, List.length_nil, length_propertySection hId] at *
  by_cases hLevel : level = 5
  · simp only [if_pos hLevel] at *
    rw [length_encodeVarint (by omega)]
    omega
  · simp only [if_neg hLevel] at *
    omega

/-! ### Reading the fields back -/

theorem Reader.varint_append (hValue : value ≤ maxRemaining) (rest : List UInt8) :
    varint (encodeVarint value ++ rest) = .ok (value, rest) := by
  simp [varint, decodeVarint_encodeVarint hValue]

theorem Reader.u16_append (value : UInt16) (rest : List UInt8) :
    u16 (bigEndian 2 value.toNat ++ rest) = .ok (value, rest) := by
  have hTake := (reads_takeUInt 2).append (x := value.toNat) value.toNat_lt rest
  simp [u16, hTake, need, Except.map]

theorem Reader.u32_append (value : UInt32) (rest : List UInt8) :
    u32 (bigEndian 4 value.toNat ++ rest) = .ok (value, rest) := by
  have hTake := (reads_takeUInt 4).append (x := value.toNat) value.toNat_lt rest
  simp [u32, hTake, need, Except.map]

theorem Reader.properties_append {field : List UInt8} (hField : field.length ≤ maxRemaining)
    (rest : List UInt8) :
    properties (encodeVarint field.length ++ (field ++ rest)) = .ok (field, rest) := by
  have hTake := (reads_takeBytes field.length).append (x := field) rfl rest
  rw [properties, varint_append hField]
  simp only [Except.bind, need]
  rw [show takeBytes field.length (field ++ rest) = some (field, rest) from hTake]

/-- The walk over a section, from the properties collected so far. -/
def walkPublish (bytes : List UInt8) : Except WireError (Nat × PublishProperties) :=
  drain (walkRound visitPublish) (consumes_walkRound _) (users, props) bytes

theorem walkPublish_property {users : Nat} {props next : PublishProperties} {id : UInt8}
    {value : PropValue} {buf rest : List UInt8} (hId : id < 128)
    (hValue : propValue id.toNat users buf = .ok ((value, users), rest))
    (hVisit : visitPublish props id.toNat value = .ok next) :
    walkPublish users props (id :: buf) = walkPublish users next rest := by
  have hVarint : varint (id :: buf) = .ok (id.toNat, buf) := by
    have hLt : id.toNat < 128 := UInt8.lt_iff_toNat_lt.mp hId
    have hFits : id.toNat ≤ maxRemaining := by
      simp only [maxRemaining]
      omega
    have hAppend := varint_append hFits buf
    have hCast : id.toNat % 4294967296 = id.toNat := Nat.mod_eq_of_lt (by omega)
    rw [encodeVarint, hCast, encodeVarintLoop_last 4 hLt, UInt8.ofNat_toNat] at hAppend
    exact hAppend
  apply drain_round
  rw [walkRound, hVarint]
  simp [Except.bind, hValue, hVisit, Except.map]

theorem walkPublish_alias (topicAlias : UInt16) (hNone : props.topicAlias = none)
    (rest : List UInt8) : walkPublish users props
        ((if topicAlias != 0 then 35 :: bigEndian 2 topicAlias.toNat else []) ++ rest) =
      walkPublish users
        { props with topicAlias := if topicAlias ≠ 0 then some topicAlias else none } rest := by
  by_cases hZero : topicAlias = 0
  · simp [hZero, ← hNone]
  · have hValue : propValue 35 users (bigEndian 2 topicAlias.toNat ++ rest) =
        .ok ((.u16 topicAlias, users), rest) := by
      have hKind (buf : List UInt8) : propValue 35 users buf =
        (u16 buf).map fun taken => ((.u16 taken.1, users), taken.2) := rfl
      rw [hKind, u16_append]
      rfl
    have hVisit : visitPublish props 35 (.u16 topicAlias) =
        .ok { props with topicAlias := some topicAlias } := by
      simp [visitPublish, setOnce, hNone, Except.map]
    simp only [bne_iff_ne, ne_eq, hZero, not_false_eq_true, if_true]
    exact walkPublish_property (by decide) hValue hVisit

theorem walkPublish_format {format : UInt8} (hNone : props.format = none) (hFormat : format ≤ 1)
    (rest : List UInt8) :
    walkPublish users props ((if format != 0 then [1, format] else []) ++ rest) =
      walkPublish users { props with format := if format ≠ 0 then some format else none }
        rest := by
  by_cases hZero : format = 0
  · simp [hZero, ← hNone]
  · have hValue : propValue 1 users (format :: rest) = .ok ((.byte format, users), rest) := rfl
    have hVisit : visitPublish props 1 (.byte format) =
        .ok { props with format := some format } := by
      simp [visitPublish, setOnce, hNone, hFormat, Except.map]
    simp only [bne_iff_ne, ne_eq, hZero, not_false_eq_true, if_true]
    exact walkPublish_property (by decide) hValue hVisit

theorem walkPublish_expiry (expiry : UInt32) (hNone : props.expiry = none) (rest : List UInt8) :
    walkPublish users props
        ((if expiry != 0 then 2 :: bigEndian 4 expiry.toNat else []) ++ rest) =
      walkPublish users { props with expiry := if expiry ≠ 0 then some expiry else none }
        rest := by
  by_cases hZero : expiry = 0
  · simp [hZero, ← hNone]
  · have hValue : propValue 2 users (bigEndian 4 expiry.toNat ++ rest) =
        .ok ((.u32 expiry, users), rest) := by
      have hKind (buf : List UInt8) : propValue 2 users buf =
        (u32 buf).map fun taken => ((.u32 taken.1, users), taken.2) := rfl
      rw [hKind, u32_append]
      rfl
    have hVisit : visitPublish props 2 (.u32 expiry) =
        .ok { props with expiry := some expiry } := by
      simp [visitPublish, setOnce, hNone, Except.map]
    simp only [bne_iff_ne, ne_eq, hZero, not_false_eq_true, if_true]
    exact walkPublish_property (by decide) hValue hVisit

theorem PublishOut.Valid.walk (hValid : publish.Valid texts) :
    walkProperties visitPublish .none publish.propertySection =
      .ok { topicAlias := if publish.topicAlias ≠ 0 then some publish.topicAlias else none
            format := if publish.payloadFormat ≠ 0 then some publish.payloadFormat else none
            expiry := if publish.messageExpiry ≠ 0 then some publish.messageExpiry else none
            users := texts } := by
  have hUsers : (publish.userProperties.flatMap fun pair => 38 :: (block pair.1 ++ block pair.2)) =
      texts.flatMap userBytes := by
    rw [hValid.users, List.flatMap_map]
    rfl
  have hSection : publish.propertySection =
      (if publish.topicAlias != 0 then 35 :: bigEndian 2 publish.topicAlias.toNat else []) ++
        ((if publish.payloadFormat != 0 then [1, publish.payloadFormat] else []) ++
          ((if publish.messageExpiry != 0 then 2 :: bigEndian 4 publish.messageExpiry.toNat
            else []) ++ texts.flatMap userBytes)) := by
    rw [PublishOut.propertySection, hUsers, hValid.noSubscription]
    simp
  have hWalk (bytes : List UInt8) : walkProperties visitPublish .none bytes =
      (walkPublish 0 .none bytes).map (·.2) := rfl
  rw [hWalk, hSection, walkPublish_alias 0 .none _ rfl, walkPublish_format 0 _ rfl hValid.format,
    walkPublish_expiry 0 _ _ rfl, walkPublish]
  rw [drain_users (by rw [Nat.zero_add]; exact hValid.count) hValid.sizes]
  rfl

/-! ### The round trip -/

theorem PublishOut.first_spec (hQos : publish.qos ≤ 2) :
    publish.first >>> 4 = 3 ∧ ((publish.first &&& 0x0F) &&& 0x08 != 0) = publish.dup ∧
      ((publish.first &&& 0x0F) >>> 1) &&& 0x03 = publish.qos ∧
      ((publish.first &&& 0x0F) &&& 0x01 != 0) = publish.retain := by
  have hCases : publish.qos = 0 ∨ publish.qos = 1 ∨ publish.qos = 2 := by
    have hLe : publish.qos.toNat ≤ 2 := UInt8.le_iff_toNat_le.mp hQos
    rw [← UInt8.toNat_inj, ← UInt8.toNat_inj, ← UInt8.toNat_inj]
    change publish.qos.toNat = 0 ∨ publish.qos.toNat = 1 ∨ publish.qos.toNat = 2
    omega
  unfold PublishOut.first
  rcases hCases with hZero | hOne | hTwo
  · rw [hZero]
    cases publish.dup <;> cases publish.retain <;> decide
  · rw [hOne]
    cases publish.dup <;> cases publish.retain <;> decide
  · rw [hTwo]
    cases publish.dup <;> cases publish.retain <;> decide

/-- The packet identifier is there exactly when the quality of service asks for one. -/
theorem PublishOut.Valid.readId (hValid : publish.Valid texts) (rest : List UInt8) :
    (if 0 < publish.qos then
        packetIdentifier ((if 0 < publish.qos then bigEndian 2 publish.packetId.toNat else []) ++
          rest)
      else .ok (0, (if 0 < publish.qos then bigEndian 2 publish.packetId.toNat else []) ++ rest)) =
      .ok (publish.packetId, rest) := by
  by_cases hQos : 0 < publish.qos
  · have hId := hValid.packetId.mpr hQos
    simp [if_pos hQos, packetIdentifier, u16_append, Except.bind, if_neg hId]
  · have hId : publish.packetId = 0 := not_not.mp (mt hValid.packetId.mp hQos)
    simp [if_neg hQos, hId]

theorem ite_getD {α : Type} (c : Prop) [Decidable c] (value default : α)
    (hDefault : ¬c → value = default) : (if c then some value else none).getD default = value := by
  by_cases hc : c
  · rw [if_pos hc]
    rfl
  · rw [if_neg hc, hDefault hc]
    rfl

theorem PublishOut.Valid.decodeBody (hValid : publish.Valid texts) {level : Nat}
    (hFits : publish.remaining level ≤ maxRemaining) :
    decodePublish (publish.first &&& 0x0F) (publish.body level) level =
      .ok (publish.packet texts level) := by
  obtain ⟨-, hDup, hQos, hRetain⟩ := publish.first_spec hValid.qos
  have hNotThree : ¬2 < publish.qos := UInt8.not_lt.mpr hValid.qos
  have hNoDup : ¬(publish.qos == 0 && publish.dup) = true := by
    rw [Bool.and_eq_true, beq_iff_eq, not_and]
    intro hZero hDup
    exact absurd (hValid.dup hDup) (by rw [hZero]; decide)
  have hNamed : publish.topic.isEmpty = false := List.isEmpty_eq_false_iff.mpr hValid.topic.1
  have hPlain : (publish.topic.any fun c => c == '+' || c == '#') = false := by
    rw [List.any_eq_false]
    intro c hMem hWild
    rw [Bool.or_eq_true, beq_iff_eq, beq_iff_eq] at hWild
    rcases hWild with rfl | rfl
    · exact hValid.topic.2.1 hMem
    · exact hValid.topic.2.2 hMem
  have hTopic := utf8_block hValid.topicText.1 hValid.topicText.2
    ((if 0 < publish.qos then bigEndian 2 publish.packetId.toNat else []) ++
      ((if level = 5 then encodeVarint publish.sectionLen ++ publish.propertySection else []) ++
        publish.payload))
  unfold decodePublish PublishOut.body
  simp only [hDup, hQos, hRetain, if_neg hNotThree, if_neg hNoDup]
  rw [hTopic]
  simp only [Except.bind, hValid.readId]
  by_cases hLevel : level = 5
  · have hSection : publish.propertySection.length ≤ maxRemaining := by
      have hLength := publish.length_propertySection hValid.subscription_le
      simp only [PublishOut.remaining, if_pos hLevel] at hFits
      omega
    simp only [if_pos hLevel, List.append_assoc,
      ← publish.length_propertySection hValid.subscription_le]
    rw [properties_append hSection]
    simp only [hValid.walk, Except.map, hNamed, hPlain, Bool.false_and, Bool.false_eq_true, if_false]
    unfold PublishOut.packet
    simp only [hLevel, true_and, if_true]
    rw [ite_getD _ _ _ not_not.mp, ite_getD _ _ _ not_not.mp]
  · simp only [List.nil_append, hNamed, hPlain, Bool.false_and, Bool.false_eq_true, if_false,
      PublishOut.packet, hLevel, false_and]
    rfl

/-- A PUBLISH within the limits of the codec and of the remaining length is read back from its
bytes, to the last of them. At a level other than 5 it is read back without properties. -/
theorem publish_round_trip (publish : PublishOut) (texts : List (Str × Str)) (level : Nat)
    (hValid : publish.Valid texts) (hFits : publish.remaining level ≤ maxRemaining) :
    ∃ header, fixedHeader (encodePublish publish level) = .ok (some header) ∧
      header.kind = 3 ∧ header.packetLen = (encodePublish publish level).length ∧
      decodePublish header.flags ((encodePublish publish level).drop header.headerLen) level =
        .ok (publish.packet texts level) := by
  have hKind := (publish.first_spec hValid.qos).1
  have hFlags : expectedFlags (publish.first >>> 4) (publish.first &&& 0x0F) =
      some (publish.first &&& 0x0F) := by
    rw [hKind]
    rfl
  refine ⟨_, fixedHeader_append hFlags hFits _, hKind, ?_, ?_⟩
  · rw [FixedHeader.packetLen, encodePublish, List.length_append,
      publish.length_body hValid.subscription_le hFits]
  · rw [encodePublish, List.drop_left]
    exact hValid.decodeBody hFits

def shortPublish : PublishOut :=
  { dup := false, qos := 0, retain := false, topic := "a".toList, packetId := 0, topicAlias := 3
    subscriptionId := 0, payloadFormat := 0, messageExpiry := 0, userProperties := []
    payload := [104, 105] }

theorem shortPublish_valid : shortPublish.Valid [] where
  topic := by decide
  topicText := by decide
  qos := by decide
  packetId := by decide
  dup := by decide
  noSubscription := rfl
  format := by decide
  users := rfl
  count := by decide
  sizes := by
    intro pair hPair
    cases hPair

theorem shortPublish_round_trip :
    ∃ header, fixedHeader (encodePublish shortPublish 5) = .ok (some header) ∧
      decodePublish header.flags ((encodePublish shortPublish 5).drop header.headerLen) 5 =
        .ok (shortPublish.packet [] 5) := by
  obtain ⟨header, hHeader, -, -, hDecode⟩ :=
    publish_round_trip shortPublish [] 5 shortPublish_valid (by decide)
  exact ⟨header, hHeader, hDecode⟩

def carrying (payload : List UInt8) : PublishOut := { shortPublish with payload }

theorem remaining_carrying (payload : List UInt8) :
    (carrying payload).remaining 5 = 7 + payload.length := rfl

/-- A remaining length of five groups is refused. -/
theorem fixedHeader_five_groups (first : UInt8) (body : List UInt8) :
    fixedHeader (putFixedHeader first 268435463 ++ body) =
      .error (.malformed "variable byte integer is too long") := by
  have hGroups : encodeVarint 268435463 = [0x87, 0x80, 0x80, 0x80, 0x01] := by decide
  have hLoop : decodeVarintLoop 4 0 0 ([0x87, 0x80, 0x80, 0x80, 0x01] ++ body) = none := rfl
  rw [putFixedHeader, hGroups, List.cons_append, fixedHeader, decodeVarint, hLoop]
  simp

/-- The alias is lost at level 4, and the length of a packet with a payload of 2 ^ 28 bytes
takes five groups, which the decoder refuses. -/
theorem publish_round_trip_fails :
    (∃ header, fixedHeader (encodePublish shortPublish 4) = .ok (some header) ∧
        ((decodePublish header.flags ((encodePublish shortPublish 4).drop header.headerLen) 4).map
          (·.topicAlias)).toOption = some none) ∧
      shortPublish.topicAlias = 3 ∧
      fixedHeader (encodePublish (carrying (List.replicate 268435456 0)) 5) =
        .error (.malformed "variable byte integer is too long") := by
  refine ⟨⟨_, rfl, by decide +kernel⟩, rfl, ?_⟩
  rw [encodePublish, remaining_carrying, List.length_replicate]
  exact fixedHeader_five_groups _ _

/-! ### The lengths in the other packets -/

structure ConnackProperties where
  sessionExpiry : Option UInt32
  receiveMaximum : Option UInt16
  maximumPacketSize : Option UInt32
  topicAliasMaximum : Option UInt16
  assignedClientId : Option Str
  reasonString : Option Str
  userProperties : List (Str × Str)

def ConnackProperties.propertySection (props : ConnackProperties) : List UInt8 :=
  (props.sessionExpiry.elim [] fun value => 17 :: bigEndian 4 value.toNat) ++
    (props.receiveMaximum.elim [] fun value => 33 :: bigEndian 2 value.toNat) ++
    (props.maximumPacketSize.elim [] fun value => 39 :: bigEndian 4 value.toNat) ++
    (props.topicAliasMaximum.elim [] fun value => 34 :: bigEndian 2 value.toNat) ++
    (props.assignedClientId.elim [] fun text => 18 :: block (asBytes text)) ++
    (props.reasonString.elim [] fun text => 28 :: block (asBytes text)) ++
    props.userProperties.flatMap userBytes

def encodeConnackV5 (sessionPresent : Bool) (reason : UInt8) (props : ConnackProperties) :
    List UInt8 :=
  let written := props.propertySection
  putFixedHeader 0x20 (2 + varintLen written.length + written.length) ++
    ([if sessionPresent then 1 else 0, reason] ++ (encodeVarint written.length ++ written))

def encodeUnsuback (packetId : UInt16) (codes : List UInt8) (level : Nat) : List UInt8 :=
  if level == 5 then
    putFixedHeader 0xB0 (2 + 1 + codes.length) ++ (toBeBytes packetId ++ 0 :: codes)
  else [0xB0, 0x02] ++ toBeBytes packetId

def encodeAck (kind : UInt8) (packetId : UInt16) (reason : UInt8) (level : Nat) : List UInt8 :=
  let flags : UInt8 := if kind == 6 then 0x02 else 0x00
  let first := (kind <<< 4) ||| flags
  if level == 5 && reason != 0 then [first, 0x03] ++ toBeBytes packetId ++ [reason]
  else [first, 0x02] ++ toBeBytes packetId

/-- The bytes are the length of a field, the field, and the rest. -/
def Sized (bytes field rest : List UInt8) : Prop :=
  ∃ used, decodeVarint bytes = .ok (some (field.length, used)) ∧ bytes.drop used = field ++ rest

theorem sized_append {length : Nat} {field : List UInt8} (hField : field.length ≤ maxRemaining)
    (hLength : length = field.length) (rest : List UInt8) :
    Sized (encodeVarint length ++ (field ++ rest)) field rest :=
  hLength ▸ ⟨_, decodeVarint_encodeVarint hField _, List.drop_left⟩

/-- The packet is its first byte, the length of its body, and the body. -/
theorem sized_packet {first : UInt8} {remaining : Nat} {body : List UInt8}
    (hFits : remaining ≤ maxRemaining) (hBody : body.length = remaining) :
    Sized (putFixedHeader first remaining ++ body).tail body [] := by
  have hSized := sized_append (hBody.trans_le hFits) hBody.symm []
  rwa [List.append_nil] at hSized

/-- Within the limits of the remaining length, every packet of the encoders starts with the number
of the bytes that follow, and every property section of level 5 with the number of its bytes. -/
theorem lengths_written (present : Bool) (reason kind : UInt8) (props : ConnackProperties)
    (publish : PublishOut) (packetId : UInt16) (codes : List UInt8) (level : Nat) :
    (2 + varintLen props.propertySection.length + props.propertySection.length ≤ maxRemaining →
      ∃ body, Sized (encodeConnackV5 present reason props).tail body [] ∧
        Sized (body.drop 2) props.propertySection []) ∧
    (publish.subscriptionId ≤ maxRemaining → publish.remaining level ≤ maxRemaining →
      ∃ body, Sized (encodePublish publish level).tail body [] ∧
        (level = 5 → Sized (body.drop (2 + publish.topic.len + if 0 < publish.qos then 2 else 0))
          publish.propertySection publish.payload)) ∧
    (2 + 1 + codes.length ≤ maxRemaining →
      (∃ body, Sized (encodeSuback packetId codes level).tail body [] ∧
        (level = 5 → Sized (body.drop 2) [] codes)) ∧
      ∃ body, Sized (encodeUnsuback packetId codes level).tail body [] ∧
        (level = 5 → Sized (body.drop 2) [] codes)) ∧
    ∃ body, Sized (encodeAck kind packetId reason level).tail body [] := by
  refine ⟨?_, ?_, ?_, ?_⟩
  · intro hFits
    have hSection : props.propertySection.length ≤ maxRemaining := by omega
    have hSized := sized_append hSection rfl []
    rw [List.append_nil] at hSized
    refine ⟨_, sized_packet hFits ?_, hSized⟩
    simp only [List.length_append, List.length_cons, List.length_nil, length_encodeVarint hSection]
    omega
  · intro hId hFits
    refine ⟨publish.body level, sized_packet hFits (publish.length_body hId hFits), ?_⟩
    intro hLevel
    have hLength := publish.length_propertySection hId
    have hSection : publish.propertySection.length ≤ maxRemaining := by
      simp only [PublishOut.remaining, if_pos hLevel] at hFits
      omega
    rw [PublishOut.body, if_pos hLevel, ← List.append_assoc, List.append_assoc (encodeVarint _),
      List.drop_left']
    · exact sized_append hSection hLength.symm _
    · split <;> simp [length_asBytes, Nat.add_comm]
  · intro hFits
    have hId : (toBeBytes packetId).length = 2 := rfl
    constructor
    · rw [encodeSuback, List.append_assoc, List.append_assoc]
      refine ⟨_, sized_packet ?_ ?_, ?_⟩
      · grind
      · simp only [List.length_append, hId]
        omega
      · rintro rfl
        exact ⟨1, rfl, rfl⟩
    · unfold encodeUnsuback
      split
      · refine ⟨_, sized_packet hFits ?_, fun _ => ⟨1, rfl, rfl⟩⟩
        rw [List.length_append, hId, List.length_cons]
        omega
      · next hLevel =>
        exact ⟨_, @sized_packet _ 2 (toBeBytes packetId) (by decide) rfl, by simp_all⟩
  · unfold encodeAck
    simp only
    split
    · exact ⟨_, @sized_packet _ 3 (toBeBytes packetId ++ [reason]) (by decide) rfl⟩
    · exact ⟨_, @sized_packet _ 2 (toBeBytes packetId) (by decide) rfl⟩

end IndraMqtt.Wire

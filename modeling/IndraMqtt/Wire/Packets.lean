import IndraMqtt.Lib.Bytes
import IndraMqtt.Protocol.Text

/-! The PUBLISH and SUBSCRIBE packets as the native listener decodes them. A packet body is
read from its front, and a property section is walked to its end with a visitor that
collects what the packet type permits. -/
namespace IndraMqtt.Wire

open Bytes Protocol Shortens

variable {body buf bytes rest : List UInt8} {level users users' : Nat} {value : PropValue}
  {props : PublishProperties}

def maxUserProps : Nat := 16
def maxPropString : Nat := 1024

inductive WireError where
  | malformed (what : String)
  | unsupported (what : String)
  deriving DecidableEq

/-- The loop of `decode_varint` over the first bytes, with the groups so far. -/
def decodeVarintLoop : Nat → Nat → Nat → List UInt8 → Option (Nat × Nat)
  | 0, _, _, _ => none
  | _ + 1, _, _, [] => none
  | left + 1, index, value, byte :: bytes =>
    let value := value ||| ((byte &&& 0x7F).toNat <<< (7 * index))
    if byte &&& 0x80 == 0 then some (value, index + 1)
    else decodeVarintLoop left (index + 1) value bytes

theorem decodeVarintLoop_pos {left index value : Nat} {found : Nat × Nat}
    (hLoop : decodeVarintLoop left index value bytes = some found) : 0 < found.2 := by
  induction left generalizing index value bytes with
  | zero => cases hLoop
  | succ left ih =>
    cases bytes with
    | nil => cases hLoop
    | cons byte bytes => grind [decodeVarintLoop]

/-- `decode_varint`: the value and how many bytes it takes, `none` if more are necessary. -/
def decodeVarint (buf : List UInt8) : Except WireError (Option (Nat × Nat)) :=
  match decodeVarintLoop 4 0 0 buf with
  | some found => .ok (some found)
  | none =>
    if 4 ≤ buf.length then .error (.malformed "variable byte integer is too long") else .ok none

namespace Reader

def truncated : WireError := .malformed "packet is truncated"

/-- What a reader takes off the front of the body, with the rest of it. -/
abbrev Taken (α : Type) := Except WireError (α × List UInt8)

def need {α : Type} (taken : Option (α × List UInt8)) : Taken α :=
  match taken with
  | some taken => .ok taken
  | none => .error truncated

def u8 (buf : List UInt8) : Taken UInt8 := need (takeByte buf)

def u16 (buf : List UInt8) : Taken UInt16 :=
  (need (takeUInt 2 buf)).map fun taken => (UInt16.ofNat taken.1, taken.2)

def u32 (buf : List UInt8) : Taken UInt32 :=
  (need (takeUInt 4 buf)).map fun taken => (UInt32.ofNat taken.1, taken.2)

def varint (buf : List UInt8) : Taken Nat :=
  match decodeVarint buf with
  | .error reason => .error reason
  | .ok none => .error truncated
  | .ok (some (value, used)) => .ok (value, buf.drop used)

theorem varint_inv {value : Nat} (hTaken : varint buf = .ok (value, rest)) :
    ∃ used, decodeVarintLoop 4 0 0 buf = some (value, used) ∧ rest = buf.drop used := by
  grind [varint, decodeVarint]

def binary (buf : List UInt8) : Taken (List UInt8) := need (takeBlock buf)

def text (bytes : List UInt8) : Except WireError Str :=
  match fromUtf8 bytes with
  | some text => .ok text
  | none => .error (.malformed "string is not UTF-8")

def utf8 (buf : List UInt8) : Taken Str :=
  (binary buf).bind fun taken =>
    (text taken.1).bind fun text =>
      if text.contains '\x00' then .error (.malformed "string contains a null character")
      else .ok (text, taken.2)

def properties (buf : List UInt8) : Taken (List UInt8) :=
  (varint buf).bind fun taken => need (takeBytes taken.1 taken.2)

theorem need_eq_ok {α : Type} {taken : Option (α × List UInt8)} {x : α}
    (hNeed : need taken = .ok (x, rest)) : taken = some (x, rest) := by
  cases taken with
  | none => cases hNeed
  | some taken =>
    cases hNeed
    rfl

theorem text_eq_ok {found : Str} (hText : text bytes = .ok found) : bytes = asBytes found := by
  grind [text, fromUtf8_eq_some]

end Reader

theorem length_asBytes (text : Str) : (asBytes text).length = text.len := by
  induction text with
  | nil => rfl
  | cons c text ih =>
    rw [Str.len_cons, ← ih, ← String.length_utf8EncodeChar]
    exact List.length_append

/-! ### What the readers consume -/

/-- A reader returns the rest of what it is given. -/
def Shrinks {α : Type} (read : List UInt8 → Reader.Taken α) : Prop :=
  ∀ buf x rest, read buf = .ok (x, rest) → rest.length ≤ buf.length

namespace Shrinks

theorem need {α : Type} {taken : List UInt8 → Option (α × List UInt8)}
    (hTaken : ∀ buf x rest, taken buf = some (x, rest) → rest.length ≤ buf.length) :
    Shrinks fun buf => Reader.need (taken buf) := by
  intro buf x rest hNeed
  exact hTaken buf x rest (Reader.need_eq_ok hNeed)

theorem u8 : Shrinks Reader.u8 := need fun _ _ _ hTaken => reads_takeByte.length_le hTaken

theorem u16 : Shrinks Reader.u16 :=
  map (need fun _ _ _ hTaken => (reads_takeUInt 2).length_le hTaken) fun _ => rfl

theorem u32 : Shrinks Reader.u32 :=
  map (need fun _ _ _ hTaken => (reads_takeUInt 4).length_le hTaken) fun _ => rfl

theorem binary : Shrinks Reader.binary :=
  need fun _ _ _ hTaken => reads_takeBlock.length_le hTaken

theorem varint : Shrinks Reader.varint := by
  intro buf value rest hTaken
  obtain ⟨used, -, rfl⟩ := Reader.varint_inv hTaken
  simp

theorem utf8 : Shrinks Reader.utf8 := by
  intro buf text rest hTaken
  obtain ⟨⟨bytes, left⟩, hBinary, hText⟩ := bind_eq_ok.mp hTaken
  obtain ⟨found, -, hFound⟩ := bind_eq_ok.mp hText
  split at hFound
  · cases hFound
  · cases hFound
    exact binary buf bytes left hBinary

end Shrinks

/-! ### Properties -/

inductive PropValue where
  | byte (value : UInt8)
  | u16 (value : UInt16)
  | u32 (value : UInt32)
  | varint (value : Nat)
  | text (value : Str)
  | binary
  | pair (key value : Str)

def userProperty (users : Nat) (buf : List UInt8) : Reader.Taken (PropValue × Nat) :=
  (Reader.utf8 buf).bind fun key =>
    (Reader.utf8 key.2).bind fun value =>
      if maxUserProps < users + 1 then .error (.unsupported "too many user properties")
      else if maxPropString < key.1.len || maxPropString < value.1.len then
        .error (.unsupported "user property is too large")
      else .ok ((.pair key.1 value.1, users + 1), value.2)

theorem userProperty_inv (hTaken : userProperty users buf = .ok ((value, users'), rest)) :
    ∃ key text, value = .pair key text ∧ users' = users + 1 ∧ users + 1 ≤ maxUserProps ∧
      key.len ≤ maxPropString ∧ text.len ≤ maxPropString ∧ rest.length ≤ buf.length := by
  obtain ⟨⟨key, left⟩, hKey, hRest⟩ := bind_eq_ok.mp hTaken
  obtain ⟨⟨text, left'⟩, hText, hPair⟩ := bind_eq_ok.mp hRest
  split at hPair
  · cases hPair
  · next hCount =>
    split at hPair
    · cases hPair
    · next hSize =>
      cases hPair
      simp only [Bool.or_eq_true, decide_eq_true_eq, not_or, not_lt] at hSize
      exact ⟨key, text, rfl, rfl, Nat.le_of_not_lt hCount, hSize.1, hSize.2,
        (Shrinks.utf8 left text left' hText).trans (Shrinks.utf8 buf key left hKey)⟩

def propValue (id users : Nat) (buf : List UInt8) : Reader.Taken (PropValue × Nat) :=
  if id ∈ [1, 23, 25, 36, 37, 40, 41, 42] then
    (Reader.u8 buf).map fun taken => ((.byte taken.1, users), taken.2)
  else if id ∈ [19, 33, 34, 35] then
    (Reader.u16 buf).map fun taken => ((.u16 taken.1, users), taken.2)
  else if id ∈ [2, 17, 24, 39] then
    (Reader.u32 buf).map fun taken => ((.u32 taken.1, users), taken.2)
  else if id = 11 then
    (Reader.varint buf).map fun taken => ((.varint taken.1, users), taken.2)
  else if id ∈ [3, 8, 18, 21, 26, 28, 31] then
    (Reader.utf8 buf).map fun taken => ((.text taken.1, users), taken.2)
  else if id ∈ [9, 22] then
    (Reader.binary buf).map fun taken => ((.binary, users), taken.2)
  else if id = 38 then userProperty users buf
  else .error (.malformed "unknown property identifier")

theorem Shrinks.propValue (id users : Nat) : Shrinks (Wire.propValue id users) := by
  have hUser : Shortens (userProperty users) := by
    intro buf value rest hTaken
    obtain ⟨-, -, -, -, -, -, -, hShorter⟩ := userProperty_inv hTaken
    exact hShorter
  unfold Wire.propValue
  change Shortens _
  refine ite _ (map u8 fun _ => rfl) ?_
  refine ite _ (map u16 fun _ => rfl) ?_
  refine ite _ (map u32 fun _ => rfl) ?_
  refine ite _ (map varint fun _ => rfl) ?_
  refine ite _ (map utf8 fun _ => rfl) ?_
  refine ite _ (map binary fun _ => rfl) ?_
  exact ite _ hUser (error _)

theorem plainValue_inv {α : Type} {taken : Reader.Taken α} {toValue : α × List UInt8 → PropValue}
    (hTaken : (taken.map fun x => ((toValue x, users), x.2)) = .ok ((value, users'), rest))
    (hPlain : ∀ x key text, toValue x ≠ .pair key text) :
    users' = users ∧ ∀ key text, value ≠ .pair key text := by
  grind [map_eq_ok]

/-- Only a user property counts, and it is within the bounds. -/
theorem propValue_inv {id : Nat} (hTaken : propValue id users buf = .ok ((value, users'), rest)) :
    (users' = users ∧ ∀ key text, value ≠ .pair key text) ∨
      ∃ key text, value = .pair key text ∧ users' = users + 1 ∧ users + 1 ≤ maxUserProps ∧
        key.len ≤ maxPropString ∧ text.len ≤ maxPropString := by
  unfold propValue at hTaken
  -- The six kinds of plain values, and then the user property.
  iterate 6
    split at hTaken
    · exact Or.inl (plainValue_inv hTaken fun _ => nofun)
  grind [userProperty_inv]

section Walk

variable {σ : Type}

/-- One round of `walk_properties`. -/
def walkRound (visit : σ → Nat → PropValue → Except WireError σ) (state : Nat × σ)
    (buf : List UInt8) : Reader.Taken (Nat × σ) :=
  (Reader.varint buf).bind fun id =>
    (propValue id.1 state.1 id.2).bind fun value =>
      (visit state.2 id.1 value.1.1).map fun next => ((value.1.2, next), value.2)

theorem walkRound_inv {visit : σ → Nat → PropValue → Except WireError σ} {state next : Nat × σ}
    (hRound : walkRound visit state buf = .ok (next, rest)) :
    ∃ id left, Reader.varint buf = .ok (id, left) ∧
      ∃ value, propValue id state.1 left = .ok ((value, next.1), rest) ∧
        visit state.2 id value = .ok next.2 := by
  obtain ⟨⟨id, left⟩, hId, hRest⟩ := bind_eq_ok.mp hRound
  grind [bind_eq_ok, map_eq_ok]

/-- A property identifier takes at least one byte. -/
theorem varint_shorter {byte : UInt8} {value : Nat}
    (hTaken : Reader.varint (byte :: bytes) = .ok (value, rest)) : rest.length ≤ bytes.length := by
  obtain ⟨used, hUsed, rfl⟩ := Reader.varint_inv hTaken
  have hPos : 0 < used := decodeVarintLoop_pos hUsed
  rw [List.length_drop, List.length_cons]
  omega

theorem consumes_walkRound (visit : σ → Nat → PropValue → Except WireError σ) :
    Consumes (walkRound visit) := by
  intro state byte bytes next rest hRound
  obtain ⟨id, left, hId, value, hValue, -⟩ := walkRound_inv hRound
  exact (Shrinks.propValue id state.1 left _ _ hValue).trans (varint_shorter hId)

/-- `walk_properties`: the state of the visitor after the section. -/
def walkProperties (visit : σ → Nat → PropValue → Except WireError σ) (state : σ)
    (bytes : List UInt8) : Except WireError σ :=
  (drain (walkRound visit) (consumes_walkRound visit) (0, state) bytes).map (·.2)

end Walk

def setOnce {α : Type} (slot : Option α) (value : α) : Except WireError (Option α) :=
  if slot.isSome then .error (.malformed "property is in the section two times")
  else .ok (some value)

/-! ### PUBLISH -/

structure Publish where
  dup : Bool
  qos : UInt8
  retain : Bool
  topic : Str
  packetId : UInt16
  topicAlias : Option UInt16
  payloadFormat : UInt8
  messageExpiry : UInt32
  userProperties : List (Str × Str)
  payload : List UInt8
  deriving DecidableEq

structure PublishProperties where
  topicAlias : Option UInt16
  format : Option UInt8
  expiry : Option UInt32
  users : List (Str × Str)

def PublishProperties.none : PublishProperties := ⟨.none, .none, .none, []⟩

def visitPublish (props : PublishProperties) (id : Nat) (value : PropValue) :
    Except WireError PublishProperties :=
  let refused : WireError := .malformed "property is not permitted in PUBLISH"
  if id = 11 then .error (.malformed "subscription identifier from a client")
  else
    match value with
    | .u16 v =>
      if id = 35 then (setOnce props.topicAlias v).map ({ props with topicAlias := · })
      else .error refused
    | .byte v =>
      if id = 1 ∧ v ≤ 1 then (setOnce props.format v).map ({ props with format := · })
      else .error refused
    | .u32 v =>
      if id = 2 then (setOnce props.expiry v).map ({ props with expiry := · })
      else .error refused
    | .pair key value =>
      if id = 38 then .ok { props with users := props.users ++ [(key, value)] }
      else .error refused
    | .text _ => if id = 3 ∨ id = 8 then .ok props else .error refused
    | .binary => if id = 9 then .ok props else .error refused
    | .varint _ => .error refused

/-- What holds of the properties of a PUBLISH so far. -/
structure Collected (users : Nat) (props : PublishProperties) : Prop where
  count : props.users.length ≤ users
  bound : users ≤ maxUserProps
  format : ∀ value, props.format = some value → value ≤ 1
  sizes : ∀ pair ∈ props.users, pair.1.len ≤ maxPropString ∧ pair.2.len ≤ maxPropString

theorem collected_none : Collected 0 .none := ⟨Nat.le_refl 0, by decide, nofun, nofun⟩

theorem setOnce_eq_ok {α : Type} {slot slot' : Option α} {value : α}
    (hSet : setOnce slot value = .ok slot') : slot' = some value := by
  unfold setOnce at hSet
  split at hSet
  · cases hSet
  · cases hSet
    rfl

theorem visitPublish_inv {next : PublishProperties} {id : Nat}
    (hVisit : visitPublish props id value = .ok next) :
    (∀ format, next.format = some format → format ≤ 1 ∨ props.format = some format) ∧
      ((∃ key text, value = .pair key text ∧ next.users = props.users ++ [(key, text)]) ∨
        next.users = props.users) := by
  unfold visitPublish at hVisit
  simp only at hVisit
  split at hVisit
  · cases hVisit
  split at hVisit
  · grind [map_eq_ok]
  · split at hVisit
    · next hByte =>
      obtain ⟨slot, hSlot, rfl⟩ := map_eq_ok.mp hVisit
      refine ⟨fun format hFormat => Or.inl ?_, Or.inr rfl⟩
      rw [setOnce_eq_ok hSlot] at hFormat
      cases hFormat
      exact hByte.2
    · cases hVisit
  · grind [map_eq_ok]
  · grind
  · grind
  · grind
  · cases hVisit

theorem collected_round {state next : Nat × PublishProperties}
    (hCollected : Collected state.1 state.2)
    (hRound : walkRound visitPublish state buf = .ok (next, rest)) : Collected next.1 next.2 := by
  obtain ⟨id, left, -, value, hValue, hVisit⟩ := walkRound_inv hRound
  obtain ⟨hFormat, hUsers⟩ := visitPublish_inv hVisit
  have hFormats : ∀ format, next.2.format = some format → format ≤ 1 := by
    intro format hSome
    obtain hLe | hOld := hFormat format hSome
    · exact hLe
    · exact hCollected.format format hOld
  obtain ⟨hCount, hPlain⟩ | ⟨key, text, rfl, hCount, hBound, hKey, hText⟩ := propValue_inv hValue
  · obtain ⟨key, text, hPair, -⟩ | hSame := hUsers
    · exact absurd hPair (hPlain key text)
    · exact ⟨by rw [hSame, hCount]; exact hCollected.count, by rw [hCount]; exact hCollected.bound,
        hFormats, by rw [hSame]; exact hCollected.sizes⟩
  · obtain ⟨_, _, hPair, hAdded⟩ | hSame := hUsers
    · cases hPair
      refine ⟨?_, by rw [hCount]; exact hBound, hFormats, ?_⟩
      · rw [hAdded, hCount, List.length_append]
        exact Nat.add_le_add_right hCollected.count 1
      · rw [hAdded]
        intro pair hMem
        obtain hOld | hNew := List.mem_append.mp hMem
        · exact hCollected.sizes pair hOld
        · rw [List.mem_singleton.mp hNew]
          exact ⟨hKey, hText⟩
    · refine ⟨?_, by rw [hCount]; exact hBound, hFormats, by rw [hSame]; exact hCollected.sizes⟩
      rw [hSame, hCount]
      exact Nat.le_succ_of_le hCollected.count

theorem collected_walk (hWalk : walkProperties visitPublish .none bytes = .ok props) :
    ∃ users, Collected users props := by
  obtain ⟨last, hDrain, rfl⟩ := map_eq_ok.mp hWalk
  have hLast : Collected last.1 last.2 :=
    drain_invariant (P := fun state => Collected state.1 state.2) (consumes_walkRound _)
      (fun _ _ _ _ hCollected hRound => collected_round hCollected hRound) collected_none hDrain
  exact ⟨last.1, hLast⟩

def userBytes (pair : Str × Str) : List UInt8 :=
  38 :: (block (asBytes pair.1) ++ block (asBytes pair.2))

def PropString (text : Str) : Prop := text.len ≤ maxPropString ∧ '\x00' ∉ text

theorem Reader.utf8_block {text : Str} (hLength : text.len < 65536) (hNul : '\x00' ∉ text)
    (rest : List UInt8) : Reader.utf8 (block (asBytes text) ++ rest) = .ok (text, rest) := by
  have hFree : text.contains '\x00' = false := by simpa using hNul
  rw [← length_asBytes] at hLength
  rw [Reader.utf8, Reader.binary, reads_takeBlock.append hLength]
  simp only [Reader.need, Except.bind, Reader.text, fromUtf8_eq_some.mpr rfl, hFree,
    Bool.false_eq_true, if_false]

theorem Reader.utf8_append {text : Str} (hText : PropString text) (rest : List UInt8) :
    Reader.utf8 (block (asBytes text) ++ rest) = .ok (text, rest) := by
  have hLe := hText.1
  simp only [maxPropString] at hLe
  exact Reader.utf8_block (by omega) hText.2 rest

theorem walkRound_user (props : PublishProperties) {pair : Str × Str}
    (hCount : users + 1 ≤ maxUserProps) (hKey : PropString pair.1) (hValue : PropString pair.2)
    (rest : List UInt8) : walkRound visitPublish (users, props) (userBytes pair ++ rest) =
      .ok ((users + 1, { props with users := props.users ++ [pair] }), rest) := by
  have hId : Reader.varint (userBytes pair ++ rest) =
      .ok (38, block (asBytes pair.1) ++ (block (asBytes pair.2) ++ rest)) := by
    rw [← List.append_assoc]
    rfl
  have hPair : propValue 38 users (block (asBytes pair.1) ++ (block (asBytes pair.2) ++ rest)) =
      .ok ((.pair pair.1 pair.2, users + 1), rest) := by
    have hSizes : ¬ (maxPropString < pair.1.len || maxPropString < pair.2.len) = true := by
      simpa using ⟨hKey.1, hValue.1⟩
    have hUser : propValue 38 users = userProperty users := rfl
    rw [hUser, userProperty, Reader.utf8_append hKey]
    simp only [Except.bind, Reader.utf8_append hValue, if_neg (Nat.not_lt.mpr hCount),
      if_neg hSizes]
  rw [walkRound, hId]
  simp only [Except.bind, hPair]
  rfl

theorem drain_users {pairs : List (Str × Str)} (hCount : users + pairs.length ≤ maxUserProps)
    (hPairs : ∀ pair ∈ pairs, PropString pair.1 ∧ PropString pair.2) :
    drain (walkRound visitPublish) (consumes_walkRound _) (users, props)
      (pairs.flatMap userBytes) =
      .ok (users + pairs.length, { props with users := props.users ++ pairs }) := by
  induction pairs generalizing users props with
  | nil =>
    rw [List.flatMap_nil, drain, List.append_nil]
    rfl
  | cons pair pairs ih =>
    obtain ⟨⟨hKey, hValue⟩, hRest⟩ := List.forall_mem_cons.mp hPairs
    rw [List.length_cons] at hCount
    have hOne : users + 1 ≤ maxUserProps := by omega
    have hRound := walkRound_user props hOne hKey hValue (pairs.flatMap userBytes)
    refine (drain_round (consumes_walkRound visitPublish) hRound).trans ?_
    rw [ih (by omega) hRest, List.append_assoc, List.length_cons, Nat.add_assoc, Nat.add_comm 1]
    rfl

def packetIdentifier (buf : List UInt8) : Reader.Taken UInt16 :=
  (Reader.u16 buf).bind fun taken =>
    if taken.1 = 0 then .error (.malformed "packet identifier is 0") else .ok taken

theorem packetIdentifier_ne_zero {packetId : UInt16}
    (hTaken : packetIdentifier buf = .ok (packetId, rest)) : packetId ≠ 0 := by
  obtain ⟨taken, -, hResult⟩ := bind_eq_ok.mp hTaken
  grind

def decodePublish (flags : UInt8) (body : List UInt8) (level : Nat) : Except WireError Publish :=
  let dup := flags &&& 0x08 != 0
  let qos := (flags >>> 1) &&& 0x03
  let retain := flags &&& 0x01 != 0
  if 2 < qos then .error (.malformed "QoS 3")
  else if qos == 0 && dup then .error (.malformed "DUP with QoS 0")
  else
    (Reader.utf8 body).bind fun topic =>
      (if 0 < qos then packetIdentifier topic.2 else .ok (0, topic.2)).bind fun id =>
        (if level = 5 then
            (Reader.properties id.2).bind fun taken =>
              (walkProperties visitPublish .none taken.1).map fun props => (props, taken.2)
          else .ok (.none, id.2)).bind fun props =>
          if topic.1.isEmpty && props.1.topicAlias.isNone then
            .error (.malformed "empty topic without an alias")
          else if topic.1.any fun c => c == '+' || c == '#' then
            .error (.malformed "wildcard in a topic name")
          else
            .ok { dup, qos, retain, topic := topic.1, packetId := id.1,
                  topicAlias := props.1.topicAlias, payloadFormat := props.1.format.getD 0
                  messageExpiry := props.1.expiry.getD 0, userProperties := props.1.users
                  payload := props.2 }

/-- What `decode_publish` checks. -/
structure Publish.Accepted (publish : Publish) (level : Nat) : Prop where
  topic : publish.topic ≠ [] ∨ publish.topicAlias.isSome
  topicLen : publish.topic.len < 65536
  format : publish.payloadFormat ≤ 1
  count : publish.userProperties.length ≤ maxUserProps
  sizes : ∀ pair ∈ publish.userProperties,
    pair.1.len ≤ maxPropString ∧ pair.2.len ≤ maxPropString
  plain : level ≠ 5 → publish.topicAlias = none ∧ publish.payloadFormat = 0 ∧
    publish.messageExpiry = 0 ∧ publish.userProperties = []

theorem Reader.utf8_inv {text : Str} (hTaken : Reader.utf8 buf = .ok (text, rest)) :
    text.len < 65536 := by
  obtain ⟨⟨bytes, left⟩, hBinary, hText⟩ := bind_eq_ok.mp hTaken
  obtain ⟨found, hFound, hResult⟩ := bind_eq_ok.mp hText
  have hBytes : bytes = asBytes found := Reader.text_eq_ok hFound
  split at hResult
  · cases hResult
  · cases hResult
    rw [← length_asBytes, ← hBytes]
    exact ((reads_takeBlock.law _ _ _).mp (Reader.need_eq_ok hBinary)).1

theorem decodePublish_accepted {flags : UInt8} {publish : Publish}
    (hDecode : decodePublish flags body level = .ok publish) : publish.Accepted level := by
  unfold decodePublish at hDecode
  dsimp only at hDecode
  split at hDecode
  · cases hDecode
  split at hDecode
  · cases hDecode
  obtain ⟨⟨topic, afterTopic⟩, hTopic, hDecode⟩ := bind_eq_ok.mp hDecode
  obtain ⟨⟨packetId, afterId⟩, -, hDecode⟩ := bind_eq_ok.mp hDecode
  obtain ⟨⟨props, payload⟩, hProps, hDecode⟩ := bind_eq_ok.mp hDecode
  obtain ⟨⟨users, hCollected⟩, hPlain⟩ :
      (∃ users, Collected users props) ∧ (level ≠ 5 → props = .none) := by
    grind [bind_eq_ok, map_eq_ok, collected_walk, collected_none]
  split at hDecode
  · cases hDecode
  · next hNamed =>
    split at hDecode
    · cases hDecode
    · cases hDecode
      refine ⟨?_, Reader.utf8_inv hTopic, ?_, hCollected.count.trans hCollected.bound,
        hCollected.sizes, ?_⟩
      · grind [Option.isSome_iff_ne_none]
      · show props.format.getD 0 ≤ 1
        cases hFormat : props.format with
        | none => decide
        | some format => exact hCollected.format format hFormat
      · intro hLevel
        rw [hPlain hLevel]
        exact ⟨rfl, rfl, rfl, rfl⟩

/-! ### SUBSCRIBE -/

structure Subscribe where
  packetId : UInt16
  subscriptionId : Nat
  filters : List (Str × UInt8)

def visitSubscribe (subscriptionId : Option Nat) (id : Nat) (value : PropValue) :
    Except WireError (Option Nat) :=
  match value with
  | .varint v =>
    if id = 11 then
      if v = 0 then .error (.malformed "subscription identifier is 0")
      else setOnce subscriptionId v
    else .error (.malformed "property is not permitted in SUBSCRIBE")
  | .pair _ _ =>
    if id = 38 then .ok subscriptionId
    else .error (.malformed "property is not permitted in SUBSCRIBE")
  | _ => .error (.malformed "property is not permitted in SUBSCRIBE")

def filterRound (filters : List (Str × UInt8)) (buf : List UInt8) :
    Reader.Taken (List (Str × UInt8)) :=
  (Reader.binary buf).bind fun taken =>
    if taken.1.isEmpty then .error (.malformed "empty topic filter")
    else
      (Reader.text taken.1).bind fun filter =>
        (Reader.u8 taken.2).map fun options => (filters ++ [(filter, options.1)], options.2)

theorem consumes_filterRound : Consumes filterRound := by
  intro filters byte bytes next rest hRound
  obtain ⟨⟨block, left⟩, hBlock, hRound⟩ := bind_eq_ok.mp hRound
  split at hRound
  · cases hRound
  · obtain ⟨text, -, hOptions⟩ := bind_eq_ok.mp hRound
    obtain ⟨⟨options, left'⟩, hByte, hResult⟩ := map_eq_ok.mp hOptions
    cases hResult
    have hLength := congrArg List.length
      ((reads_takeByte.law _ _ _).mp (Reader.need_eq_ok hByte)).2
    have hShorter := Shrinks.binary _ _ _ hBlock
    simp_all

def decodeSubscribe (body : List UInt8) (level : Nat) : Except WireError Subscribe :=
  (packetIdentifier body).bind fun id =>
    (if level = 5 then
        (Reader.properties id.2).bind fun taken =>
          (walkProperties visitSubscribe none taken.1).map fun found => (found, taken.2)
      else .ok (none, id.2)).bind fun found =>
      (drain filterRound consumes_filterRound [] found.2).bind fun filters =>
        if filters.isEmpty then .error (.malformed "SUBSCRIBE without a topic filter")
        else .ok { packetId := id.1, subscriptionId := found.1.getD 0, filters }

/-- What `decode_subscribe` checks. -/
structure Subscribe.Accepted (subscribe : Subscribe) : Prop where
  packetId : subscribe.packetId ≠ 0
  filters : subscribe.filters ≠ []
  nonempty : ∀ filter ∈ subscribe.filters, filter.1 ≠ []

theorem filterRound_nonempty {filters next : List (Str × UInt8)}
    (hFilters : ∀ filter ∈ filters, filter.1 ≠ [])
    (hRound : filterRound filters buf = .ok (next, rest)) : ∀ filter ∈ next, filter.1 ≠ [] := by
  obtain ⟨⟨bytes, left⟩, -, hRound⟩ := bind_eq_ok.mp hRound
  split at hRound
  · cases hRound
  · next hBytes =>
    obtain ⟨text, hText, hOptions⟩ := bind_eq_ok.mp hRound
    obtain ⟨options, -, hResult⟩ := map_eq_ok.mp hOptions
    cases hResult
    intro filter hMem
    obtain hOld | hNew := List.mem_append.mp hMem
    · exact hFilters filter hOld
    · rw [List.mem_singleton.mp hNew]
      intro hNil
      rw [Reader.text_eq_ok hText, asBytes_eq_nil.mpr hNil] at hBytes
      exact hBytes rfl

theorem decodeSubscribe_accepted {subscribe : Subscribe}
    (hDecode : decodeSubscribe body level = .ok subscribe) : subscribe.Accepted := by
  obtain ⟨⟨packetId, afterId⟩, hId, hDecode⟩ := bind_eq_ok.mp hDecode
  obtain ⟨⟨found, left⟩, -, hDecode⟩ := bind_eq_ok.mp hDecode
  obtain ⟨filters, hFilters, hDecode⟩ := bind_eq_ok.mp hDecode
  split at hDecode
  · cases hDecode
  · next hSome =>
    cases hDecode
    refine ⟨packetIdentifier_ne_zero hId, fun hNil => hSome (List.isEmpty_iff.mpr hNil), ?_⟩
    exact drain_invariant (P := fun filters => ∀ filter ∈ filters, filter.1 ≠ [])
      consumes_filterRound (fun _ _ _ _ hOld hRound => filterRound_nonempty hOld hRound)
      (fun _ hMem => absurd hMem List.not_mem_nil) hFilters

/-! ### Acknowledgements -/

def visitAck (_ : Unit) (id : Nat) (value : PropValue) : Except WireError Unit :=
  match id, value with
  | 28, .text _ => .ok ()
  | 38, .pair _ _ => .ok ()
  | _, _ => .error (.malformed "property is not permitted in an acknowledgement")

/-- `decode_ack`: the packet identifier and the reason code. -/
def decodeAck (body : List UInt8) (level : Nat) : Except WireError (UInt16 × UInt8) :=
  (packetIdentifier body).bind fun id =>
    if id.2.isEmpty then .ok (id.1, 0)
    else if level ≠ 5 then .error (.malformed "bytes after the packet identifier")
    else
      (Reader.u8 id.2).bind fun reason =>
        if reason.2.isEmpty then .ok (id.1, reason.1)
        else
          (Reader.properties reason.2).bind fun taken =>
            (walkProperties visitAck () taken.1).bind fun _ =>
              if taken.2.isEmpty then .ok (id.1, reason.1)
              else .error (.malformed "bytes after the properties")

/-- An accepted acknowledgement starts with its packet identifier. -/
theorem decodeAck_packetId {packetId : UInt16} {reason : UInt8}
    (hAck : decodeAck body level = .ok (packetId, reason)) :
    ∃ rest, packetIdentifier body = .ok (packetId, rest) := by
  obtain ⟨⟨id, rest⟩, hId, hRest⟩ := bind_eq_ok.mp hAck
  grind [bind_eq_ok]

end IndraMqtt.Wire

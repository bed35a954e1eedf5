import IndraMqtt.Kernel.TenantExpression
import IndraMqtt.Lib.Base64
import IndraMqtt.Lib.Bytes
import IndraMqtt.Lib.Json
import IndraMqtt.Lib.Lines

/-! Deferred publications and the lines that hold them in `delayed.jsonl`. A line is a JSON
object with the payload in Base64. Older files have the payload as an array of numbers and no
tenant. The members stand in the order of the source, which the serialiser of the lock file
keeps. -/
namespace IndraMqtt.Delayed

open Protocol Sessions
open Option (bind_eq_some_iff bind_some)

variable {entry : DelayedEntry}

def maxDelayedPending : Nat := 10000

def maxDelayedPayloadBytes : Nat := 1048576

structure DelayedEntry where
  id : UInt64
  deliverAtMs : UInt64
  topic : Str
  qos : UInt8
  retain : Bool
  payload : Payload
  publisher : Option Str
  publisherTenant : Str
  deriving DecidableEq

def fields (entry : DelayedEntry) : List (Str × Json.Scalar) :=
  [("id".toList, .natural entry.id),
    ("deliver_at_ms".toList, .natural entry.deliverAtMs),
    ("topic".toList, .string entry.topic),
    ("qos".toList, .natural entry.qos.toUInt64),
    ("retain".toList, .bool entry.retain),
    ("payload".toList, .string (Base64.encode entry.payload)),
    ("publisher".toList, (entry.publisher.map Json.Scalar.string).getD .null),
    ("publisher_tenant".toList, .string entry.publisherTenant)]

def encodeEntry (entry : DelayedEntry) : Str := Json.printObject (fields entry)

def decodePayload (value : Json.Value) : Option Payload :=
  match value.asStr with
  | some encoded =>
    (Base64.decode encoded).bind fun bytes =>
      if bytes.length > maxDelayedPayloadBytes then none else some bytes
  | none =>
    value.asArray.bind fun items =>
      if items.length > maxDelayedPayloadBytes then none
      else items.mapM fun item =>
        item.asU64.bind fun byte => if byte > 255 then none else some byte.toUInt8

def decodePublisher : Option Json.Value → Option (Option Str)
  | none => some none
  | some .null => some none
  | some (.string name) => some (some name)
  | some _ => none

def decodeTenant : Option Json.Value → Option Str
  | none => some defaultTenantId
  | some .null => some defaultTenantId
  | some (.string tenant) => some tenant
  | some _ => none

def decodeEntry (value : Json.Value) : Option DelayedEntry :=
  ((value.get? "id".toList).bind (·.asU64)).bind fun id =>
  ((value.get? "deliver_at_ms".toList).bind (·.asU64)).bind fun deliverAtMs =>
  ((value.get? "topic".toList).bind (·.asStr)).bind fun topic =>
  if topic.isEmpty then none else
  ((value.get? "qos".toList).bind (·.asU64)).bind fun qos =>
  if qos > 2 then none else
  ((value.get? "retain".toList).bind (·.asBool)).bind fun retain =>
  ((value.get? "payload".toList).bind decodePayload).bind fun payload =>
  (decodePublisher (value.get? "publisher".toList)).bind fun publisher =>
  (decodeTenant (value.get? "publisher_tenant".toList)).map fun publisherTenant =>
    { id, deliverAtMs, topic, qos := qos.toUInt8, retain, payload, publisher, publisherTenant }

def fromStr (line : Str) : Option Json.Value := Json.parse 127 line

def decodeLine (line : Str) : Option DelayedEntry :=
  if (Kernel.trim line).isEmpty then none else (fromStr line).bind decodeEntry

def idOf (line : Str) : Option UInt64 :=
  (fromStr line).bind fun value => (value.get? "id".toList).bind (·.asU64)

structure Storable (entry : DelayedEntry) : Prop where
  topic : entry.topic ≠ []
  qos : entry.qos ≤ 2
  payload : entry.payload.length ≤ maxDelayedPayloadBytes

theorem keys_fields (entry : DelayedEntry) : ((fields entry).map Prod.fst).Nodup := by
  simp [fields]

theorem decodePublisher_fields (publisher : Option Str) :
    decodePublisher (some ((publisher.map Json.Scalar.string).getD .null).value) =
      some publisher := by
  cases publisher with
  | none => rfl
  | some name => rfl

variable {payload : Payload} {value : Json.Value}

theorem decodePayload_encode (hLength : payload.length ≤ maxDelayedPayloadBytes) :
    decodePayload (.string (Base64.encode payload)) = some payload := by
  change (Base64.decode (Base64.encode payload)).bind _ = _
  rw [Base64.decode_encode, bind_some, if_neg (Nat.not_lt.mpr hLength)]

theorem decodeEntry_fields (hStorable : Storable entry) :
    decodeEntry (.object (Json.membersOf (fields entry))) = some entry := by
  obtain ⟨id, deliverAtMs, topic, qos, retain, payload, publisher, publisherTenant⟩ := entry
  have hTopic : topic.isEmpty = false := List.isEmpty_eq_false_iff.mpr hStorable.topic
  have hQos : ¬ qos.toUInt64 > 2 := by
    have hLe : qos.toNat ≤ 2 := UInt8.le_iff_toNat_le.mp hStorable.qos
    rw [gt_iff_lt, UInt64.lt_iff_toNat_lt, UInt8.toNat_toUInt64]
    exact Nat.not_lt.mpr hLe
  unfold decodeEntry
  change (some id).bind _ = _
  rw [bind_some]
  change (some deliverAtMs).bind _ = _
  rw [bind_some]
  change (some topic).bind _ = _
  rw [bind_some, hTopic, if_neg Bool.false_ne_true]
  change (some qos.toUInt64).bind _ = _
  rw [bind_some, if_neg hQos]
  change (some retain).bind _ = _
  rw [bind_some]
  change (decodePayload (.string (Base64.encode payload))).bind _ = _
  rw [decodePayload_encode hStorable.payload, bind_some]
  change (decodePublisher (some ((publisher.map Json.Scalar.string).getD .null).value)).bind _ = _
  rw [decodePublisher_fields, bind_some]
  change (some publisherTenant).map _ = _
  rw [Option.map_some, UInt8.toUInt8_toUInt64]

theorem length_of_mapM {α β : Type} {f : α → Option β} {items : List α} {found : List β}
    (hFound : items.mapM f = some found) : found.length = items.length := by
  induction items generalizing found with
  | nil =>
    rw [List.mapM_nil] at hFound
    rw [← Option.some.inj hFound]
    rfl
  | cons item items ih => grind [bind_eq_some_iff]

theorem length_of_decodePayload (hPayload : decodePayload value = some payload) :
    payload.length ≤ maxDelayedPayloadBytes := by
  grind [decodePayload, bind_eq_some_iff, length_of_mapM]

/-- An entry that is read can be written, and its id is the one that `remove_ids` finds. -/
theorem decodeEntry_eq_some (hEntry : decodeEntry value = some entry) :
    Storable entry ∧ (value.get? "id".toList).bind (·.asU64) = some entry.id := by
  obtain ⟨id, hId, hEntry⟩ := bind_eq_some_iff.mp hEntry
  obtain ⟨deliverAtMs, -, hEntry⟩ := bind_eq_some_iff.mp hEntry
  obtain ⟨topic, -, hEntry⟩ := bind_eq_some_iff.mp hEntry
  split at hEntry
  · cases hEntry
  next hTopic =>
  obtain ⟨qos, -, hEntry⟩ := bind_eq_some_iff.mp hEntry
  split at hEntry
  · cases hEntry
  next hQos =>
  obtain ⟨retain, -, hEntry⟩ := bind_eq_some_iff.mp hEntry
  obtain ⟨payload, hPayload, hEntry⟩ := bind_eq_some_iff.mp hEntry
  obtain ⟨publisher, -, hEntry⟩ := bind_eq_some_iff.mp hEntry
  obtain ⟨publisherTenant, -, rfl⟩ := Option.map_eq_some_iff.mp hEntry
  obtain ⟨member, -, hMember⟩ := bind_eq_some_iff.mp hPayload
  have hLow : qos.toNat ≤ 2 := by
    rw [gt_iff_lt, UInt64.lt_iff_toNat_lt] at hQos
    exact Nat.not_lt.mp hQos
  refine ⟨⟨?_, ?_, length_of_decodePayload hMember⟩, hId⟩
  · rintro rfl
    exact hTopic rfl
  · rw [UInt8.le_iff_toNat_le, UInt64.toNat_toUInt8, Nat.mod_eq_of_lt (by omega)]
    exact hLow

/-! ### Lines -/

theorem trim_isEmpty (line : Str) : (Kernel.trim line).isEmpty = line.all Kernel.isWhitespace := by
  rw [Bool.eq_iff_iff, List.isEmpty_iff, List.all_eq_true, Kernel.trim, List.reverse_eq_nil_iff,
    List.dropWhile_eq_nil_iff]
  simp only [List.mem_reverse]
  constructor
  · intro hRest c hMem
    have hNil : line.dropWhile Kernel.isWhitespace = [] := by
      cases hDrop : line.dropWhile Kernel.isWhitespace with
      | nil => rfl
      | cons d rest =>
        have hHead := List.head_dropWhile_not Kernel.isWhitespace (l := line) (by simp [hDrop])
        simp_all
    exact List.dropWhile_eq_nil_iff.mp hNil c hMem
  · intro hAll c hMem
    exact hAll c ((List.dropWhile_sublist _).subset hMem)

/-- A carriage return behind a line does not change what it holds. -/
theorem decodeLine_chomp (line : Str) : decodeLine (Lines.chomp '\r' line) = decodeLine line := by
  rw [Lines.chomp]
  split
  · next hLast =>
    obtain ⟨front, rfl⟩ := List.getLast?_eq_some_iff.mp hLast
    have hSpace : Kernel.isWhitespace '\r' = true := by decide
    rw [List.dropLast_concat, decodeLine, decodeLine, trim_isEmpty, trim_isEmpty,
      List.all_append, List.all_cons, List.all_nil, hSpace, Bool.and_true, Bool.and_true,
      fromStr, fromStr, Json.parse_space 127 front rfl]
  · rfl

theorem idOf_of_decodeLine {line : Str} (hEntry : decodeLine line = some entry) :
    Storable entry ∧ idOf line = some entry.id := by
  grind [decodeLine, bind_eq_some_iff, idOf, decodeEntry_eq_some]

theorem decodeLine_encodeEntry (hStorable : Storable entry) :
    decodeLine (encodeEntry entry) = some entry := by
  have hShape : ∃ rest, encodeEntry entry = '{' :: rest := ⟨_, rfl⟩
  have hBlank : (Kernel.trim (encodeEntry entry)).isEmpty = false := by
    obtain ⟨rest, hRest⟩ := hShape
    rw [trim_isEmpty, hRest, List.all_cons]
    rfl
  simp_all [decodeLine, fromStr, encodeEntry, Json.parse_printObject, keys_fields,
    decodeEntry_fields]

theorem lf_not_mem_encodeEntry (entry : DelayedEntry) : '\n' ∉ encodeEntry entry := fun hMem =>
  absurd (Json.printObject_printable (fields entry) '\n' hMem) (by decide)

end IndraMqtt.Delayed

import IndraMqtt.Lib.FrameLog
import IndraMqtt.Session.Offline

/-! The bytes of an offline queue file. Each record stands in a frame behind its length and
in front of its checksum, and a file is read from its start. -/
namespace IndraMqtt.Storage

open Protocol Sessions Bytes FrameLog

def maxFrameBytes : Nat := 300000000
def minRecordBytes : Nat := 1 + 1 + 8 + 4 + 4
def maxTopicBytes : Nat := 65535
def maxPayloadBytes : Nat := 268435456
def noTimestamp : Nat := 18446744073709551615

def crcStep (crc : UInt32) : UInt32 :=
  if crc &&& 1 == 1 then (crc >>> 1) ^^^ 0xEDB88320 else crc >>> 1

def crc32 (data : List UInt8) : UInt32 :=
  let crc := data.foldl (fun crc byte => crcStep^[8] (crc ^^^ byte.toUInt32)) 0xFFFFFFFF
  ~~~crc

-- The check value of this checksum.
example : crc32 [49, 50, 51, 52, 53, 54, 55, 56, 57] = 0xCBF43926 := by decide +kernel

def flagByte (flag : Bool) : UInt8 := if flag then 1 else 0

/-- `encode_record`. Lengths are cut to 32 bits. -/
def encodeRecord (record : OfflineRecord) : List UInt8 :=
  [record.qos.toU8] ++ [flagByte record.retain] ++
    littleEndian 8 (record.publishAtMs.getD noTimestamp) ++
    (littleEndian 4 (asBytes record.topic.text).length ++ asBytes record.topic.text) ++
    (littleEndian 4 record.payload.length ++ record.payload)

def takeRecord : List UInt8 → Option ((QoS × Bool × Option Nat × Topic × Payload) × List UInt8) :=
  takeBoth (takeAs (fun byte => (QoS.tryFrom byte).toOption) takeByte) <|
  takeBoth (takeAs (fun byte => if 1 < byte then none else some (byte == 1)) takeByte) <|
  takeBoth (takeAs (fun stamp => some (if stamp = noTimestamp then none else some stamp))
    (takeLittle 8)) <|
  takeBoth (takeAs (fun bytes => (fromUtf8 bytes).bind fun text => (Topic.new text).toOption)
    (takeSized 4 fun length => length != 0 && length ≤ maxTopicBytes)) <|
  takeSized 4 fun length => length ≤ maxPayloadBytes

def decodeRecord (bytes : List UInt8) : Option OfflineRecord :=
  (exactly (takeRecord bytes)).map fun (qos, retain, publishAtMs, topic, payload) =>
    { topic, qos, retain, payload, publishAtMs }

def encodeFrame (recordBytes : List UInt8) : List UInt8 :=
  littleEndian 4 recordBytes.length ++ recordBytes ++ littleEndian 4 (crc32 recordBytes).toNat

def checkRecord (frame : List UInt8 × Nat) : Option OfflineRecord :=
  if (crc32 frame.1).toNat ≠ frame.2 then none else decodeRecord frame.1

/-- One round of the loop of `scan_file`: the record of the frame at the start, and what
stands behind the frame. -/
def readFrame : List UInt8 → Option (OfflineRecord × List UInt8) :=
  takeAs checkRecord <|
    takeBoth (takeSized 4 fun length => minRecordBytes ≤ length && length ≤ maxFrameBytes)
      (takeLittle 4)

def Storable (record : OfflineRecord) : Prop :=
  (asBytes record.topic.text).length ≤ maxTopicBytes ∧
    record.payload.length ≤ maxPayloadBytes ∧
    ∀ stamp, record.publishAtMs = some stamp → stamp < noTimestamp

theorem tryFrom_eq_ok {value : UInt8} {qos : QoS} :
    (QoS.tryFrom value).toOption = some qos ↔ value = qos.toU8 := by
  constructor
  · intro hQos
    unfold QoS.tryFrom at hQos
    split at hQos
    · next hValue =>
      cases hQos
      exact hValue
    · split at hQos
      · next hValue =>
        cases hQos
        exact hValue
      · split at hQos
        · next hValue =>
          cases hQos
          exact hValue
        · cases hQos
  · rintro rfl
    rw [QoS.tryFrom_toU8]
    rfl

theorem topicNew_eq_ok {text : Str} {topic : Topic} :
    (Topic.new text).toOption = some topic ↔ topic.text = text := by
  unfold Topic.new
  constructor
  · intro hTopic
    split at hTopic
    · cases hTopic
      rfl
    · cases hTopic
  · rintro rfl
    split
    · rfl
    · next hError => cases topic.valid.symm.trans hError

theorem topic_length_pos (topic : Topic) : 0 < (asBytes topic.text).length := by
  apply List.length_pos_iff.mpr
  intro hNil
  have hValid := topic.valid
  rw [asBytes_eq_nil.mp hNil] at hValid
  cases hValid

def ofFields (fields : QoS × Bool × Option Nat × Topic × Payload) : OfflineRecord :=
  { topic := fields.2.2.2.1, qos := fields.1, retain := fields.2.1, payload := fields.2.2.2.2
    publishAtMs := fields.2.2.1 }

theorem flag_iff (byte : UInt8) (flag : Bool) :
    (if 1 < byte then none else some (byte == 1)) = some flag ↔ byte = flagByte flag := by
  by_cases hByte : 1 < byte
  · have hLarge : 1 < byte.toNat := UInt8.lt_iff_toNat_lt.mp hByte
    rw [if_pos hByte]
    constructor
    · intro hNone
      cases hNone
    · rintro rfl
      cases flag with
      | false => exact absurd hLarge (by decide)
      | true => exact absurd hLarge (by decide)
  · grind [Option.some.injEq, flagByte]

theorem stamp_iff {stamp : Nat} (hLt : stamp < 256 ^ 8) (publishAtMs : Option Nat) :
    some (if stamp = noTimestamp then none else some stamp) = some publishAtMs ↔
      (∀ stamp', publishAtMs = some stamp' → stamp' < noTimestamp) ∧
        stamp = publishAtMs.getD noTimestamp := by
  have hMax : (256 : Nat) ^ 8 = noTimestamp + 1 := by decide
  rw [Option.some.injEq]
  by_cases hNone : stamp = noTimestamp
  · rw [if_pos hNone]
    constructor
    · grind
    · rintro ⟨hBelow, hStamp⟩
      cases publishAtMs with
      | none => rfl
      | some stamp' => simp_all
  · rw [if_neg hNone]
    constructor
    · grind
    · rintro ⟨-, hStamp⟩
      cases publishAtMs with
      | none => exact absurd hStamp hNone
      | some stamp' => rw [hStamp, Option.getD_some]

theorem reads_takeQos :
    Reads (takeAs (fun byte => (QoS.tryFrom byte).toOption) takeByte) (fun _ => True ∧ True)
      (fun qos => [qos.toU8]) :=
  reads_takeByte.convert fun _ _ _ => tryFrom_eq_ok.trans (iff_of_eq (true_and _)).symm

theorem reads_takeTopic (accepts : Nat → Bool) :
    Reads (takeAs (fun bytes => (fromUtf8 bytes).bind fun text => (Topic.new text).toOption)
        (takeSized 4 accepts))
      (fun topic => True ∧ (asBytes topic.text).length < 256 ^ 4 ∧
        accepts (asBytes topic.text).length = true)
      (fun topic => sized 4 (asBytes topic.text)) :=
  (reads_takeSized 4 accepts).convert fun bytes topic _ => by
    simp [Option.bind_eq_some_iff, topicNew_eq_ok, fromUtf8_eq_some]

theorem reads_takeRecord : Reads takeRecord (fun fields => Storable (ofFields fields))
      (fun fields => encodeRecord (ofFields fields)) := by
  have hRetain : Reads (takeAs (fun byte => if 1 < byte then none else some (byte == 1)) takeByte)
      (fun _ => True ∧ True) (fun retain => [flagByte retain]) :=
    reads_takeByte.convert fun byte retain _ => (flag_iff byte retain).trans (iff_of_eq (true_and _)).symm
  have hStamp := (reads_takeLittle 8).convert fun stamp publishAtMs hLt =>
    stamp_iff hLt publishAtMs
  have hTopic := reads_takeTopic fun length => length != 0 && length ≤ maxTopicBytes
  have hPayload := reads_takeSized 4 fun length => length ≤ maxPayloadBytes
  refine (reads_takeQos.both (hRetain.both (hStamp.both (hTopic.both hPayload)))).congr ?_ ?_
  · rintro ⟨qos, retain, publishAtMs, topic, payload⟩
    have hPos := topic_length_pos topic
    have hTopicFits : maxTopicBytes < 256 ^ 4 := by decide
    have hPayloadFits : maxPayloadBytes < 256 ^ 4 := by decide
    simp only [Storable, ofFields, true_and, Bool.and_eq_true, bne_iff_ne, decide_eq_true_eq]
    constructor
    · simp_all
    · rintro ⟨hTopic, hPayload, hBelow⟩
      refine ⟨⟨hBelow, ?_⟩, ⟨by omega, by omega, hTopic⟩, by omega, hPayload⟩
      cases publishAtMs with
      | none => decide
      | some stamp => exact Nat.lt_trans (hBelow stamp rfl) (by decide)
  · simp [encodeRecord, ofFields, sized]

theorem decodeRecord_eq_some {bytes : List UInt8} {record : OfflineRecord} :
    decodeRecord bytes = some record ↔ Storable record ∧ bytes = encodeRecord record := by
  rw [decodeRecord, Option.map_eq_some_iff]
  constructor
  · rintro ⟨fields, hFields, rfl⟩
    exact reads_takeRecord.exactly.mp hFields
  · intro hRecord
    let fields := (record.qos, record.retain, record.publishAtMs, record.topic, record.payload)
    exact ⟨fields, reads_takeRecord.exactly.mpr hRecord, rfl⟩

theorem length_encodeRecord (record : OfflineRecord) : (encodeRecord record).length =
      minRecordBytes + (asBytes record.topic.text).length + record.payload.length := by
  grind [encodeRecord, length_littleEndian, minRecordBytes]

/-- A frame is what stands behind its checksum. -/
theorem checked_eq_some {α : Type} {valid : α → Prop} {write : α → List UInt8}
    {decode : List UInt8 → Option α}
    (hDecode : ∀ bytes x, decode bytes = some x ↔ valid x ∧ bytes = write x)
    (frame : List UInt8 × Nat) (x : α) :
    (if (crc32 frame.1).toNat ≠ frame.2 then none else decode frame.1) = some x ↔
      valid x ∧ frame = (write x, (crc32 (write x)).toNat) := by
  obtain ⟨bytes, stored⟩ := frame
  constructor
  · intro hCheck
    split at hCheck
    · cases hCheck
    · next hSum =>
      obtain ⟨hValid, rfl⟩ := (hDecode _ _).mp hCheck
      exact ⟨hValid, Prod.ext rfl (not_not.mp hSum).symm⟩
  · rintro ⟨hValid, hFrame⟩
    obtain ⟨rfl, rfl⟩ := Prod.mk.inj hFrame
    rw [if_neg (not_not.mpr rfl)]
    exact (hDecode _ _).mpr ⟨hValid, rfl⟩

theorem reads_readFrame :
    Reads readFrame Storable (fun record => encodeFrame (encodeRecord record)) := by
  have hBody := (reads_takeSized 4 fun length =>
    minRecordBytes ≤ length && length ≤ maxFrameBytes).both (reads_takeLittle 4)
  have hFrame : Reads readFrame _ fun record => _ :=
    hBody.convert fun frame record _ => checked_eq_some (fun _ _ => decodeRecord_eq_some) frame record
  refine hFrame.congr ?_ ?_
  · intro record
    have hLength := length_encodeRecord record
    have hSum := (crc32 (encodeRecord record)).toNat_lt
    have hMax : minRecordBytes + maxTopicBytes + maxPayloadBytes ≤ maxFrameBytes := by decide
    have hFits : maxFrameBytes < 256 ^ 4 := by decide
    simp only [Bool.and_eq_true, and_iff_left_iff_imp]
    rintro ⟨hTopic, hPayload, -⟩
    grind
  · intro record
    rw [encodeFrame, sized]

def queueFormat : Format OfflineRecord where
  read := readFrame
  valid := Storable
  write record := encodeFrame (encodeRecord record)
  reads := reads_readFrame
  nonempty record _ := by
    apply List.length_pos_iff.mp
    rw [encodeFrame, List.length_append, length_littleEndian]
    omega

def scanFile (bytes : List UInt8) : List OfflineRecord × Nat × Bool := queueFormat.scan bytes

theorem scanFile_frames {records : List OfflineRecord}
    (hStorable : ∀ record ∈ records, Storable record) :
    (scanFile (queueFormat.frames records)).1 = records := by
  rw [scanFile, queueFormat.scan_intact hStorable]

end IndraMqtt.Storage

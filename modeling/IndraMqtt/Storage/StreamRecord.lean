import IndraMqtt.Lib.SortedMap
import IndraMqtt.Storage.OfflineLog
import Mathlib.Data.Char
import Mathlib.Data.List.Lex

/-! The bytes of a stream segment. A record stands in a frame like the records of the offline
queues. A segment is scanned from its start, and each record has to have the offset behind the
one before it. -/
namespace IndraMqtt.Storage.Streams

open Protocol Sessions Bytes FrameLog

variable {records : List StreamRecord}

def maxFrameBytes : Nat := 300000000
def minRecordBytes : Nat := 8 + 8 + 1 + 4 + 4 + 4
def maxTopicBytes : Nat := 65535
def maxPayloadBytes : Nat := 268435456
def maxHeaders : Nat := 10000
def maxHeaderFieldBytes : Nat := 65535

structure StreamRecord where
  offset : UInt64
  timestampMs : UInt64
  topic : Topic
  qos : QoS
  payload : Payload
  headers : SortedMap Str Str
  deriving DecidableEq

abbrev Fields := Nat × Nat × QoS × Topic × Payload × List (Str × Str)

def StreamRecord.fields (record : StreamRecord) : Fields :=
  (record.offset.toNat, record.timestampMs.toNat, record.qos, record.topic, record.payload,
    record.headers.entries)

def ofFields (fields : Fields) : StreamRecord :=
  let (offset, timestampMs, qos, topic, payload, headers) := fields
  { offset := UInt64.ofNat offset, timestampMs := UInt64.ofNat timestampMs, topic, qos, payload
    headers := .ofEntries headers }

theorem ofFields_fields (record : StreamRecord) : ofFields record.fields = record := by
  simp [ofFields, StreamRecord.fields, SortedMap.ofEntries_entries]

def encodeHeader (header : Str × Str) : List UInt8 :=
  sized 4 (asBytes header.1) ++ sized 4 (asBytes header.2)

def encodeFields (fields : Fields) : List UInt8 :=
  let (offset, timestampMs, qos, topic, payload, headers) := fields
  littleEndian 8 offset ++ (littleEndian 8 timestampMs ++ ([qos.toU8] ++
    (sized 4 (asBytes topic.text) ++ (sized 4 payload ++
      (littleEndian 4 headers.length ++ headers.flatMap encodeHeader)))))

/-- `encode_record`. Lengths are cut to 32 bits, and the keys of the headers are sorted. -/
def encodeRecord (record : StreamRecord) : List UInt8 := encodeFields record.fields

def takeHeaderField : List UInt8 → Option (Str × List UInt8) :=
  takeAs fromUtf8 (takeSized 4 fun length => length ≤ maxHeaderFieldBytes)

def takeFields : List UInt8 → Option (Fields × List UInt8) :=
  takeBoth (takeLittle 8) <|
  takeBoth (takeLittle 8) <|
  takeBoth (takeAs (fun byte => (QoS.tryFrom byte).toOption) takeByte) <|
  takeBoth (takeAs (fun bytes => (fromUtf8 bytes).bind fun text => (Topic.new text).toOption)
    (takeSized 4 fun length => length != 0 && length ≤ maxTopicBytes)) <|
  takeBoth (takeSized 4 fun length => length ≤ maxPayloadBytes) <|
  takeCounted 4 (fun count => count ≤ maxHeaders) (takeBoth takeHeaderField takeHeaderField)

def decodeRecord (bytes : List UInt8) : Option StreamRecord :=
  (exactly (takeFields bytes)).map ofFields

def checkFields (frame : List UInt8 × Nat) : Option Fields :=
  if (crc32 frame.1).toNat ≠ frame.2 then none else exactly (takeFields frame.1)

def readFrame : List UInt8 → Option (Fields × List UInt8) :=
  takeAs checkFields <|
    takeBoth (takeSized 4 fun length => minRecordBytes ≤ length && length ≤ maxFrameBytes)
      (takeLittle 4)

/-- Fields that are read back as they were written. -/
@[mk_iff] structure Fits (fields : Fields) : Prop where
  offset : fields.1 < 256 ^ 8
  timestampMs : fields.2.1 < 256 ^ 8
  topic : (asBytes fields.2.2.2.1.text).length ≤ maxTopicBytes
  payload : fields.2.2.2.2.1.length ≤ maxPayloadBytes
  headers : fields.2.2.2.2.2.length ≤ maxHeaders
  header : ∀ pair ∈ fields.2.2.2.2.2, (asBytes pair.1).length ≤ maxHeaderFieldBytes ∧
    (asBytes pair.2).length ≤ maxHeaderFieldBytes

instance (fields : Fields) : Decidable (Fits fields) :=
  decidable_of_iff _ (fits_iff fields).symm

theorem reads_takeHeaderField :
    Reads takeHeaderField (fun text => (asBytes text).length ≤ maxHeaderFieldBytes)
      (fun text => sized 4 (asBytes text)) := by
  have hField : Reads takeHeaderField _ (fun text => sized 4 (asBytes text)) :=
    (reads_takeSized 4 fun length => length ≤ maxHeaderFieldBytes).convert
      fun bytes text _ => fromUtf8_eq_some.trans (iff_of_eq (true_and _)).symm
  grind [maxHeaderFieldBytes]

theorem reads_takeFields : Reads takeFields Fits encodeFields := by
  have hTopic := reads_takeTopic fun length => length != 0 && length ≤ maxTopicBytes
  have hPayload := reads_takeSized 4 fun length => length ≤ maxPayloadBytes
  have hHeaders := (reads_takeHeaderField.both reads_takeHeaderField).counted 4
    fun count => count ≤ maxHeaders
  refine ((reads_takeLittle 8).both ((reads_takeLittle 8).both (reads_takeQos.both (hTopic.both
    (hPayload.both hHeaders))))).congr ?_ ?_
  · rintro ⟨offset, timestampMs, qos, topic, payload, headers⟩
    have hPos := topic_length_pos topic
    have hTopicFits : maxTopicBytes < 256 ^ 4 := by decide
    have hPayloadFits : maxPayloadBytes < 256 ^ 4 := by decide
    have hHeadersFit : maxHeaders < 256 ^ 4 := by decide
    simp only [true_and, Bool.and_eq_true, bne_iff_ne, decide_eq_true_eq]
    constructor
    · rintro ⟨hOffset, hStamp, ⟨-, -, hTopic⟩, ⟨-, hPayload⟩, -, hCount, hAll⟩
      exact ⟨hOffset, hStamp, hTopic, hPayload, hCount, hAll⟩
    · rintro ⟨hOffset, hStamp, hTopic, hPayload, hCount, hAll⟩
      grind
  · rintro ⟨offset, timestampMs, qos, topic, payload, headers⟩
    rfl

/-- A record can be decoded exactly when its lengths fit, and then from its own bytes. -/
theorem decoded_iff_fits (record : StreamRecord) :
    ((∃ bytes, decodeRecord bytes = some record) ↔ Fits record.fields) ∧
      (decodeRecord (encodeRecord record) = some record ↔ Fits record.fields) := by
  have hFits {bytes} (hDecoded : decodeRecord bytes = some record) : Fits record.fields := by
    obtain ⟨fields, hTaken, rfl⟩ := Option.map_eq_some_iff.mp hDecoded
    obtain ⟨⟨-, -, hTopic, hPayload, hCount, hEach⟩, -⟩ := reads_takeFields.exactly.mp hTaken
    exact ⟨UInt64.toNat_lt _, UInt64.toNat_lt _, hTopic, hPayload,
      (SortedMap.length_ofEntries_le _).trans hCount,
      fun pair hPair => hEach pair (SortedMap.mem_ofEntries hPair)⟩
  have hOwn (hFits : Fits record.fields) : decodeRecord (encodeRecord record) = some record := by
    have hTaken := reads_takeFields.exactly.mpr ⟨hFits, rfl⟩
    simp [decodeRecord, encodeRecord, hTaken, ofFields_fields]
  exact ⟨⟨fun ⟨_, h⟩ => hFits h, fun hFits => ⟨_, hOwn hFits⟩⟩, hFits, hOwn⟩

theorem minRecordBytes_le (fields : Fields) : minRecordBytes ≤ (encodeFields fields).length := by
  grind [encodeFields, length_littleEndian, sized, minRecordBytes]

def Storable (fields : Fields) : Prop :=
  Fits fields ∧ (encodeFields fields).length ≤ maxFrameBytes

instance (fields : Fields) : Decidable (Storable fields) :=
  inferInstanceAs (Decidable (_ ∧ _))

theorem reads_readFrame :
    Reads readFrame Storable (fun fields => encodeFrame (encodeFields fields)) := by
  have hBody := (reads_takeSized 4 fun length =>
    minRecordBytes ≤ length && length ≤ maxFrameBytes).both (reads_takeLittle 4)
  have hFrame : Reads readFrame _ fun fields => _ := hBody.convert fun frame fields _ =>
    checked_eq_some (fun _ _ => reads_takeFields.exactly) frame fields
  refine hFrame.congr ?_ ?_
  · intro fields
    have hMin := minRecordBytes_le fields
    have hSum := (crc32 (encodeFields fields)).toNat_lt
    grind [maxFrameBytes, Storable]
  · intro fields
    rw [encodeFrame, sized]

def segmentFormat : Format Fields where
  read := readFrame
  valid := Storable
  write fields := encodeFrame (encodeFields fields)
  reads := reads_readFrame
  nonempty fields _ := by
    apply List.length_pos_iff.mp
    rw [encodeFrame, List.length_append, length_littleEndian]
    omega

/-- The offset check of `scan_segment`. The first record of a stream may have any offset. -/
def nextExpected (expected : Option UInt64) (offset : UInt64) : Option (Option UInt64) :=
  match expected with
  | none => some (some (offset + 1))
  | some next => if offset ≠ next then none else some (some (next + 1))

/-- `scan_segment`: the records, where the last good frame ends, and whether that is the end of
the file. -/
def scanSegment (bytes : List UInt8) (expected : Option UInt64) : List StreamRecord × Nat × Bool :=
  let found := segmentFormat.scanChecked
    (fun expected fields => nextExpected expected (UInt64.ofNat fields.1)) expected bytes
  (found.1.map ofFields, found.2)

def framesOf (records : List StreamRecord) : List UInt8 :=
  records.flatMap fun record => encodeFrame (encodeRecord record)

def StreamRecord.Storable (record : StreamRecord) : Prop := Streams.Storable record.fields

instance (record : StreamRecord) : Decidable record.Storable :=
  inferInstanceAs (Decidable (Streams.Storable record.fields))

/-- The offset that has to follow, or nothing when an offset does not follow the one before. -/
def followed (expected : Option UInt64) (records : List StreamRecord) : Option (Option UInt64) :=
  records.foldlM (fun expected record => nextExpected expected record.offset) expected

theorem framesOf_eq (records : List StreamRecord) :
    framesOf records = segmentFormat.frames (records.map (·.fields)) := by
  rw [framesOf, Format.frames, List.flatMap_map]
  rfl

theorem framesOf_append (records more : List StreamRecord) :
    framesOf (records ++ more) = framesOf records ++ framesOf more := List.flatMap_append

theorem framesOf_singleton (record : StreamRecord) :
    framesOf [record] = encodeFrame (encodeRecord record) := List.append_nil _

theorem framesOf_eq_nil (hNil : framesOf records = []) : records = [] := by
  cases records with
  | nil => rfl
  | cons record records =>
    have hFrame : encodeFrame (encodeRecord record) = [] := (List.append_eq_nil_iff.mp hNil).1
    have hLength := congrArg List.length hFrame
    rw [encodeFrame, List.length_append, length_littleEndian, List.length_nil] at hLength
    omega

theorem foldlM_fields (expected : Option UInt64) (records : List StreamRecord) :
    (records.map (·.fields)).foldlM
        (fun expected (fields : Fields) => nextExpected expected (UInt64.ofNat fields.1)) expected =
      followed expected records := by
  simp [followed, List.foldlM_map, StreamRecord.fields]

theorem map_ofFields_fields (records : List StreamRecord) :
    (records.map (·.fields)).map ofFields = records := by
  rw [List.map_map]
  have hSame : ofFields ∘ (fun record : StreamRecord => record.fields) = id :=
    funext ofFields_fields
  rw [hSame, List.map_id]

theorem valid_fields (hStorable : ∀ record ∈ records, record.Storable) :
    ∀ fields ∈ records.map (·.fields), segmentFormat.valid fields := by
  intro fields hMem
  obtain ⟨record, hRecord, rfl⟩ := List.mem_map.mp hMem
  exact hStorable record hRecord

variable {expected last : Option UInt64}

/-- A segment of whole frames is read to its end. -/
theorem scanSegment_framesOf (hStorable : ∀ record ∈ records, record.Storable)
    (hFollowed : followed expected records = some last) :
    scanSegment (framesOf records) expected = (records, (framesOf records).length, true) := by
  have hScan := segmentFormat.scanChecked_intact _ (valid_fields hStorable)
    ((foldlM_fields expected records).trans hFollowed)
  rw [scanSegment, framesOf_eq, hScan, map_ofFields_fields]

/-- A segment that ends inside a frame is read up to that frame. -/
theorem scanSegment_torn (hStorable : ∀ record ∈ records, record.Storable)
    (hFollowed : followed expected records = some last) {record : StreamRecord}
    (hRecord : record.Storable) {part more : List UInt8}
    (hFrame : encodeFrame (encodeRecord record) = part ++ more) (hPart : part ≠ [])
    (hMore : more ≠ []) : scanSegment (framesOf records ++ part) expected =
      (records, (framesOf records).length, false) := by
  have hScan := segmentFormat.scanChecked_torn _ (valid_fields hStorable)
    ((foldlM_fields expected records).trans hFollowed) (x := record.fields) hRecord hFrame
    hPart hMore
  rw [scanSegment, framesOf_eq, hScan, map_ofFields_fields]

end IndraMqtt.Storage.Streams

import IndraMqtt.Storage.FileNames
import IndraMqtt.Storage.StreamRecord

/-! The durable stream store: one partition of records for each topic in memory, one directory
of segment files for each topic on disk. An append writes its frame to the active segment before
the record joins the partition, and opening the store rebuilds the partitions from the
segments. -/
namespace IndraMqtt.Storage.Streams

open Protocol Sessions Bytes

variable {groups : List (List StreamRecord)} {segments : List (Nat × List UInt8)} {id : Nat}

/-- `TopicPartition`. The active segment is the one before `nextSegmentId`. -/
structure TopicPartition where
  records : List StreamRecord
  timeIndex : List (UInt64 × UInt64)
  nextOffset : UInt64
  nextSegmentId : Nat
  deriving DecidableEq

def TopicPartition.default : TopicPartition := ⟨[], [], 0, 0⟩

def timeIndexOf (records : List StreamRecord) : List (UInt64 × UInt64) :=
  records.map fun record => (record.timestampMs, record.offset)

/-- A topic's directory: the bytes of its segments under their numbers, in ascending order, and
of the `META` file. -/
structure TopicDir where
  segments : List (Nat × List UInt8)
  metaFile : Option (List UInt8)
  deriving DecidableEq

def wrap32 (n : Nat) : Nat := n % 4294967296

def appendSegment (id : Nat) (bytes : List UInt8) :
    List (Nat × List UInt8) → List (Nat × List UInt8)
  | [] => [(id, bytes)]
  | segment :: segments =>
    if segment.1 < id then segment :: appendSegment id bytes segments
    else if segment.1 = id then (id, segment.2 ++ bytes) :: segments
    else (id, bytes) :: segment :: segments

namespace TopicDir

def empty : TopicDir := ⟨[], none⟩

def sizeOf (dir : TopicDir) (id : Nat) : Nat :=
  ((dir.segments.find? fun segment => segment.1 == id).map (·.2.length)).getD 0

def append (dir : TopicDir) (id : Nat) (bytes : List UInt8) : TopicDir :=
  { dir with segments := appendSegment id bytes dir.segments }

end TopicDir

def readMeta (metaFile : Option (List UInt8)) : UInt64 × Nat :=
  match metaFile.bind (takeBoth (takeLittle 8) (takeLittle 4)) with
  | some (found, _) => (UInt64.ofNat found.1, found.2)
  | none => (0, 0)

/-! ### Opening -/

def lastExpected (expected : Option UInt64) (records : List StreamRecord) : Option UInt64 :=
  match records.getLast? with
  | some record => some (record.offset + 1)
  | none => expected

/-- The loop of `recover` over the segments: the records, and the segments that stay. A torn
segment is cut behind its last good frame, and no segment behind it stays. A segment that cannot
be read goes with those behind it. -/
def recoverSegments (unreadable : Nat → Bool) (expected : Option UInt64) :
    List (Nat × List UInt8) → List StreamRecord × List (Nat × List UInt8)
  | [] => ([], [])
  | (id, bytes) :: segments =>
    if unreadable id then ([], [])
    else
      let (records, lastGood, complete) := scanSegment bytes expected
      if complete then
        let rest := recoverSegments unreadable (lastExpected expected records) segments
        (records ++ rest.1, (id, bytes) :: rest.2)
      else (records, [(id, bytes.take lastGood)])

def TopicDir.recover (unreadable : Nat → Bool) (dir : TopicDir) :
    TopicDir × Option TopicPartition :=
  let (metaOffset, metaSegment) := readMeta dir.metaFile
  if dir.segments = [] then
    (dir,
      if 0 < metaOffset ∨ 0 < metaSegment then
        some { records := [], timeIndex := [], nextOffset := metaOffset
               nextSegmentId := metaSegment }
      else none)
  else
    let (records, segments) := recoverSegments unreadable none dir.segments
    let nextSegmentId := match (segments.map (·.1)).max? with
      | some id => wrap32 (id + 1)
      | none => 0
    ({ dir with segments },
      some { records, timeIndex := timeIndexOf records
             nextOffset := (lastExpected none records).getD metaOffset
             nextSegmentId := max nextSegmentId metaSegment })

def encodeTopic (topic : Str) : Str := encodeClient topic

def decodeTopic (encoded : Str) : Option Str := decodeClient encoded

def topicOf (name : Str) : Option Str :=
  (decodeTopic name).bind fun text => (Topic.new text).toOption.map fun _ => text

/-- The directories in the directory of the store by their names, that directory itself and the
one above it. -/
structure Disk where
  topics : Dict Str TopicDir
  here : TopicDir
  above : TopicDir

namespace Disk

def dir (disk : Disk) (name : Str) : TopicDir :=
  if name = ['.'] then disk.here
  else if name = ['.', '.'] then disk.above
  else (disk.topics.get? name).getD .empty

def setDir (disk : Disk) (name : Str) (dir : TopicDir) : Disk :=
  if name = ['.'] then { disk with here := dir }
  else if name = ['.', '.'] then { disk with above := dir }
  else { disk with topics := disk.topics.set name dir }

end Disk

/-- What `recover` makes of the directory with a name: the partition of its topic. -/
def recoveredPartition (unreadable : Str → Nat → Bool) (name : Str) (dir : TopicDir) :
    Option (Str × TopicPartition) :=
  (topicOf name).bind fun topic =>
    (dir.recover (unreadable name)).2.map fun partition => (topic, partition)

/-- What `recover` leaves in the directory with a name. -/
def recoveredDir (unreadable : Str → Nat → Bool) (name : Str) (dir : TopicDir) :
    Option (Str × TopicDir) :=
  (topicOf name).map fun _ => (name, (dir.recover (unreadable name)).1)

/-- `DurableStreamStore` with a directory. -/
structure DurableStreamStore where
  partitions : Dict Str TopicPartition
  disk : Disk
  segmentMaxBytes : Nat

namespace DurableStreamStore

def new (segmentMaxBytes : Nat) : DurableStreamStore :=
  ⟨∅, ⟨∅, .empty, .empty⟩, segmentMaxBytes⟩

def partition (store : DurableStreamStore) (topic : Str) : TopicPartition :=
  (store.partitions.get? topic).getD .default

/-- `open_with_config` on the directory of the store, with the segments that cannot be read. -/
def reopen (store : DurableStreamStore) (unreadable : Str → Nat → Bool) : DurableStreamStore where
  partitions := Dict.collect (recoveredPartition unreadable) store.disk.topics.entries ∅
  disk := { store.disk with
    topics := Dict.collect (recoveredDir unreadable) store.disk.topics.entries store.disk.topics }
  segmentMaxBytes := store.segmentMaxBytes

end DurableStreamStore

/-! ### Appending -/

structure AppendRequest where
  topic : Topic
  qos : QoS
  payload : Payload
  headers : SortedMap Str Str
  timestampMs : UInt64

def AppendRequest.record (request : AppendRequest) (offset : UInt64) : StreamRecord :=
  { offset, timestampMs := request.timestampMs, topic := request.topic, qos := request.qos
    payload := request.payload, headers := request.headers }

/-- How the file operations of an append end: the directory cannot be made, the segment cannot
be opened, the write or the sync fails with some bytes of the frame stored, or all is done. -/
inductive AppendIO where
  | noDirectory
  | notOpened
  | failed (stored : Nat)
  | done

/-- The segment that an append writes to. A size that cannot be read counts as 0. -/
def segmentFor (segmentMaxBytes : Nat) (partition : TopicPartition) (dir : TopicDir)
    (frameLength : Nat) (sizeRead : Bool) : Nat :=
  if partition.nextSegmentId = 0 then 0
  else
    let active := partition.nextSegmentId - 1
    let size := if sizeRead then dir.sizeOf active else 0
    if 0 < size ∧ segmentMaxBytes < size + frameLength then wrap32 (active + 1) else active

def TopicPartition.push (partition : TopicPartition) (record : StreamRecord) (segmentId : Nat) :
    TopicPartition where
  records := partition.records ++ [record]
  timeIndex := partition.timeIndex ++ [(record.timestampMs, record.offset)]
  nextOffset := record.offset + 1
  nextSegmentId :=
    if partition.nextSegmentId ≤ segmentId then wrap32 (segmentId + 1)
    else partition.nextSegmentId

namespace DurableStreamStore

variable (store : DurableStreamStore) (request : AppendRequest) (sizeRead : Bool)

def nextRecord : StreamRecord :=
  request.record (store.partition request.topic.text).nextOffset

def nextFrame : List UInt8 := encodeFrame (encodeRecord (store.nextRecord request))

def topicDir : TopicDir := store.disk.dir (encodeTopic request.topic.text)

def nextSegment : Nat :=
  segmentFor store.segmentMaxBytes (store.partition request.topic.text) (store.topicDir request)
    (store.nextFrame request).length sizeRead

/-- `append_with_timestamp`, with the offset that it acknowledges. -/
def append (io : AppendIO) : DurableStreamStore × Option UInt64 :=
  let topic := request.topic.text
  let partition := store.partition topic
  let name := encodeTopic topic
  let dir := store.topicDir request
  let segmentId := store.nextSegment request sizeRead
  let frame := store.nextFrame request
  -- the entry of the topic is there from here on
  let opened := { store with partitions := store.partitions.set topic partition }
  match io with
  | .noDirectory => (opened, none)
  | .notOpened => ({ opened with disk := store.disk.setDir name dir }, none)
  | .failed stored =>
    ({ opened with disk := store.disk.setDir name (dir.append segmentId (frame.take stored)) },
      none)
  | .done =>
    let record := store.nextRecord request
    ({ opened with
        partitions := opened.partitions.set topic (partition.push record segmentId)
        disk := store.disk.setDir name (dir.append segmentId frame) },
      some record.offset)

end DurableStreamStore

/-! ### A directory that holds its partition -/

def Hold (segments : List (Nat × List UInt8)) (groups : List (List StreamRecord)) : Prop :=
  List.Forall₂ (fun segment group => segment.2 = framesOf group) segments groups

/-- The directory of a topic holds the records of its partition, and nothing else. A segment
behind the active one is empty. -/
structure Stored (dir : TopicDir) (partition : TopicPartition) : Prop where
  groups : ∃ groups, Hold dir.segments groups ∧ groups.flatten = partition.records
  storable : ∀ record ∈ partition.records, record.Storable
  consecutive : (followed none partition.records).isSome
  ascending : dir.segments.Pairwise fun a b => a.1 < b.1
  numbers : ∀ segment ∈ dir.segments, segment.1 + 1 < 4294967296
  active : ∀ segment ∈ dir.segments, segment.2 ≠ [] → segment.1 < partition.nextSegmentId
  timeIndex : partition.timeIndex = timeIndexOf partition.records
  nextOffset : partition.nextOffset =
    (lastExpected none partition.records).getD (readMeta dir.metaFile).1

theorem followed_append (expected : Option UInt64) (records more : List StreamRecord) :
    followed expected (records ++ more) =
      (followed expected records).bind fun last => followed last more := List.foldlM_append ..

theorem lastExpected_append_singleton (expected : Option UInt64) (records : List StreamRecord)
    (record : StreamRecord) :
    lastExpected expected (records ++ [record]) = some (record.offset + 1) := by
  rw [lastExpected, List.getLast?_concat]

variable {expected : Option UInt64} {records : List StreamRecord} {segment : Nat × List UInt8}

theorem followed_eq {last : Option UInt64} (hFollowed : followed expected records = some last) :
    last = lastExpected expected records := by
  induction records using List.reverseRecOn generalizing last with
  | nil => exact (Option.some.inj hFollowed).symm
  | append_singleton records record ih =>
    rw [followed_append, Option.bind_eq_some_iff] at hFollowed
    obtain ⟨next, hNext, hLast⟩ := hFollowed
    rw [lastExpected_append_singleton]
    have hCheck : nextExpected next record.offset = some last := by
      grind [followed, Option.bind_eq_some_iff]
    cases next with
    | none => exact (Option.some.inj hCheck).symm
    | some expected => grind [nextExpected]

theorem followed_push (hFollowed : (followed none records).isSome) {record : StreamRecord}
    {otherwise : UInt64} (hOffset : record.offset = (lastExpected none records).getD otherwise) :
    (followed none (records ++ [record])).isSome := by
  obtain ⟨last, hLast⟩ := Option.isSome_iff_exists.mp hFollowed
  rw [← followed_eq hLast] at hOffset
  rw [followed_append, hLast, Option.bind_some]
  cases last with
  | none => rfl
  | some next =>
    rw [Option.getD_some] at hOffset
    simp [followed, nextExpected, hOffset]

theorem recoverSegments_hold (hHold : Hold segments groups)
    (hStorable : ∀ record ∈ groups.flatten, record.Storable)
    (hFollowed : (followed expected groups.flatten).isSome) :
    recoverSegments (fun _ => false) expected segments = (groups.flatten, segments) := by
  induction hHold generalizing expected with
  | nil => rfl
  | @cons segment group segments groups hGroup _ ih =>
    grind [followed_append, Option.any_eq_true, scanSegment_framesOf, recoverSegments, followed_eq]

theorem mem_appendSegment {bytes : List UInt8} (hMem : segment ∈ appendSegment id bytes segments) :
    segment.1 = id ∨ segment ∈ segments := by
  induction segments with
  | nil => exact Or.inl (congrArg Prod.fst (List.mem_singleton.mp hMem))
  | cons first segments ih => grind [appendSegment]

/-- Appending nothing adds at most an empty segment. -/
theorem mem_of_appendSegment_nil (hMem : segment ∈ appendSegment id [] segments)
    (hSome : segment.2 ≠ []) : segment ∈ segments := by
  induction segments with
  | nil =>
    rw [List.mem_singleton.mp hMem] at hSome
    exact absurd rfl hSome
  | cons first segments ih => grind [appendSegment]

theorem ascending_appendSegment (hAscending : segments.Pairwise fun a b => a.1 < b.1) (id : Nat)
    (bytes : List UInt8) : (appendSegment id bytes segments).Pairwise fun a b => a.1 < b.1 := by
  induction segments with
  | nil => exact List.pairwise_singleton ..
  | cons first segments ih =>
    obtain ⟨hFirst, hRest⟩ := List.pairwise_cons.mp hAscending
    rw [appendSegment]
    split
    · next hBelow =>
      apply List.pairwise_cons.mpr ⟨_, ih hRest⟩
      intro segment hMem
      grind [mem_appendSegment]
    · grind [List.pairwise_cons]

theorem Hold.flatten_of_empty (hHold : Hold segments groups)
    (hEmpty : ∀ segment ∈ segments, segment.2 = []) : groups.flatten = [] := by
  induction hHold with
  | nil => rfl
  | @cons segment group segments groups hGroup _ ih => grind [framesOf_eq_nil]

theorem Hold.append (hHold : Hold segments groups)
    (hAscending : segments.Pairwise fun a b => a.1 < b.1)
    (hActive : ∀ segment ∈ segments, segment.2 ≠ [] → segment.1 ≤ id)
    (records : List StreamRecord) :
    ∃ groups', Hold (appendSegment id (framesOf records) segments) groups' ∧
      groups'.flatten = groups.flatten ++ records := by
  have hEmptyAbove : ∀ segment ∈ segments, id < segment.1 → segment.2 = [] := by grind
  clear hActive
  induction hHold with
  | nil => exact ⟨[records], .cons rfl .nil, List.append_nil _⟩
  | @cons segment group segments groups hGroup hRest ih =>
    obtain ⟨hFirst, hAscending⟩ := List.pairwise_cons.mp hAscending
    obtain ⟨hOwn, hEmptyAbove⟩ := List.forall_mem_cons.mp hEmptyAbove
    rw [appendSegment]
    split
    · obtain ⟨groups', hGroups', hFlatten⟩ := ih hAscending hEmptyAbove
      refine ⟨group :: groups', .cons hGroup hGroups', ?_⟩
      rw [List.flatten_cons, hFlatten, List.flatten_cons, List.append_assoc]
    · split
      · next hId =>
        have hNone : groups.flatten = [] := Hold.flatten_of_empty hRest fun segment hMem =>
          hEmptyAbove segment hMem (hId ▸ hFirst segment hMem)
        refine ⟨(group ++ records) :: groups, .cons ?_ hRest, ?_⟩
        · rw [hGroup, framesOf_append]
        · rw [List.flatten_cons, List.flatten_cons, hNone, List.append_nil, List.append_nil]
      · have hAbove : id < segment.1 := by omega
        have hNone : (group :: groups).flatten = [] :=
          Hold.flatten_of_empty (.cons hGroup hRest) (List.forall_mem_cons.mpr
            ⟨hOwn hAbove, fun other hMem =>
              hEmptyAbove other hMem (hAbove.trans (hFirst other hMem))⟩)
        refine ⟨records :: group :: groups, .cons rfl (.cons hGroup hRest), ?_⟩
        rw [List.flatten_cons, hNone, List.append_nil, List.nil_append]

/-- The segment of an append is the active one or the one behind it. -/
theorem segmentFor_bounds {partition : TopicPartition}
    (hNumber : partition.nextSegmentId + 1 < 4294967296) (segmentMaxBytes : Nat)
    (dir : TopicDir) (frameLength : Nat) (sizeRead : Bool) :
    segmentFor segmentMaxBytes partition dir frameLength sizeRead ≤ partition.nextSegmentId ∧
      partition.nextSegmentId ≤
        segmentFor segmentMaxBytes partition dir frameLength sizeRead + 1 := by
  grind [segmentFor, wrap32]

namespace Stored

variable {dir : TopicDir} {partition : TopicPartition}

section

variable (hStored : Stored dir partition)
include hStored

theorem active_le (hId : partition.nextSegmentId ≤ id + 1) :
    ∀ segment ∈ dir.segments, segment.2 ≠ [] → segment.1 ≤ id := by
  intro segment hMem hSome
  have hBelow := hStored.active segment hMem hSome
  omega

/-- A write that stores nothing leaves at most an empty segment behind. -/
theorem touch (hNumber : id + 1 < 4294967296) (hId : partition.nextSegmentId ≤ id + 1) :
    Stored (dir.append id []) partition := by
  obtain ⟨groups, hHold, hRecords⟩ := hStored.groups
  obtain ⟨groups', hHold', hFlatten⟩ :=
    hHold.append hStored.ascending (hStored.active_le hId) []
  rw [List.append_nil, hRecords] at hFlatten
  refine { hStored with
    groups := ⟨groups', hHold', hFlatten⟩
    ascending := ascending_appendSegment hStored.ascending id []
    numbers := ?_
    active := ?_ }
  · intro segment hMem
    rcases mem_appendSegment hMem with hSame | hMem
    · omega
    · exact hStored.numbers segment hMem
  · intro segment hMem hSome
    exact hStored.active segment (mem_of_appendSegment_nil hMem hSome) hSome

/-- A frame that is written whole brings its record into the directory. -/
theorem push (hNumber : id + 1 < 4294967296) (hId : partition.nextSegmentId ≤ id + 1)
    {record : StreamRecord} (hOffset : record.offset = partition.nextOffset)
    (hRecord : record.Storable) :
    Stored (dir.append id (encodeFrame (encodeRecord record))) (partition.push record id) := by
  obtain ⟨groups, hHold, hRecords⟩ := hStored.groups
  obtain ⟨groups', hHold', hFlatten⟩ :=
    hHold.append hStored.ascending (hStored.active_le hId) [record]
  rw [framesOf_singleton] at hHold'
  rw [hRecords] at hFlatten
  have hNext : (partition.push record id).nextSegmentId = id + 1 := by
    grind [TopicPartition.push, wrap32]
  exact {
    groups := ⟨groups', hHold', hFlatten⟩
    storable := List.forall_mem_append.mpr
      ⟨hStored.storable, fun found hMem => List.mem_singleton.mp hMem ▸ hRecord⟩
    consecutive := followed_push hStored.consecutive (hOffset.trans hStored.nextOffset)
    ascending := ascending_appendSegment hStored.ascending id _
    numbers := by
      intro segment hMem
      rcases mem_appendSegment hMem with hSame | hMem
      · omega
      · exact hStored.numbers segment hMem
    active := by
      intro segment hMem hSome
      rw [hNext]
      rcases mem_appendSegment hMem with hSame | hMem
      · omega
      · exact Nat.lt_succ_of_le (hStored.active_le hId segment hMem hSome)
    timeIndex := by
      simp [TopicPartition.push, hStored.timeIndex, timeIndexOf, List.map_cons, List.map_nil]
    nextOffset := by
      simp only [TopicPartition.push, lastExpected_append_singleton, Option.getD_some] }

theorem rebuilt {again : TopicPartition} (hRecords : again.records = partition.records)
    (hTimeIndex : again.timeIndex = timeIndexOf again.records) (hNextOffset : again.nextOffset =
      (lastExpected none again.records).getD (readMeta dir.metaFile).1)
    (hActive : ∀ segment ∈ dir.segments, segment.1 < again.nextSegmentId) : Stored dir again where
  groups := hRecords ▸ hStored.groups
  storable := hRecords ▸ hStored.storable
  consecutive := hRecords ▸ hStored.consecutive
  ascending := hStored.ascending
  numbers := hStored.numbers
  active segment hMem _ := hActive segment hMem
  timeIndex := hTimeIndex
  nextOffset := hNextOffset

end

theorem offset_eq_zero {found : UInt64 × Nat} (hNot : ¬ (0 < found.1 ∨ 0 < found.2)) :
    found.1 = 0 := by
  simp_all

theorem recover_empty (hNone : dir.segments = []) : dir.recover (fun _ => false) =
      (dir,
        if 0 < (readMeta dir.metaFile).1 ∨ 0 < (readMeta dir.metaFile).2 then
          some ⟨[], [], (readMeta dir.metaFile).1, (readMeta dir.metaFile).2⟩
        else none) := by
  simp [TopicDir.recover, hNone]

/-- Opening a directory that holds a partition changes nothing in it and finds the records. -/
theorem recover (hStored : Stored dir partition) : (dir.recover fun _ => false).1 = dir ∧
      ((dir.recover fun _ => false).2.getD .default).records = partition.records ∧
      Stored dir ((dir.recover fun _ => false).2.getD .default) := by
  obtain ⟨groups, hHold, hRecords⟩ := hStored.groups
  by_cases hNone : dir.segments = []
  · have hEmpty : partition.records = [] := by
      rw [← hRecords, hHold.flatten_of_empty (by simp [hNone])]
    rw [recover_empty hNone]
    by_cases hMeta : 0 < (readMeta dir.metaFile).1 ∨ 0 < (readMeta dir.metaFile).2
    · rw [if_pos hMeta]
      exact ⟨rfl, hEmpty.symm, hStored.rebuilt hEmpty.symm rfl rfl (by simp [hNone])⟩
    · rw [if_neg hMeta]
      exact ⟨rfl, hEmpty.symm,
        hStored.rebuilt hEmpty.symm rfl (offset_eq_zero hMeta).symm (by simp [hNone])⟩
  · have hSegments := recoverSegments_hold hHold (hRecords ▸ hStored.storable)
      (hRecords ▸ hStored.consecutive)
    obtain ⟨last, hLast⟩ : ∃ last, (dir.segments.map (·.1)).max? = some last := by
      cases hMax : (dir.segments.map (·.1)).max? with
      | none => exact absurd (List.map_eq_nil_iff.mp (List.max?_eq_none_iff.mp hMax)) hNone
      | some last => exact ⟨last, rfl⟩
    obtain ⟨hMem, hUpper⟩ := List.max?_eq_some_iff.mp hLast
    obtain ⟨found, hFound, hId⟩ := List.mem_map.mp hMem
    have hNumber : last + 1 < 4294967296 := hId ▸ hStored.numbers found hFound
    simp only [TopicDir.recover, hNone, if_false, hSegments, hLast, hRecords, Option.getD_some]
    refine ⟨trivial, trivial, hStored.rebuilt rfl rfl rfl ?_⟩
    intro segment hSegment
    have hLe := hUpper segment.1 (List.mem_map_of_mem hSegment)
    rw [wrap32, Nat.mod_eq_of_lt hNumber]
    exact Nat.lt_of_lt_of_le (Nat.lt_succ_of_le hLe) (Nat.le_max_left ..)

end Stored

end IndraMqtt.Storage.Streams

import IndraMqtt.Storage.StreamAppends

/-! The purge of a stream. The records that stay are packed into new segments, but first every
old segment is removed, and the `META` file with the next offset is written last. Where the purge
stops in between, opening the store finds the records that are whole on disk at that point. -/
namespace IndraMqtt.Storage.Streams

open Protocol Bytes

variable {groups : List (List StreamRecord)} {segments : List (Nat × List UInt8)}
  {expected : Option UInt64} {dir : TopicDir} {partition : TopicPartition}

/-! ### The rewrite -/

/-- The packing loop of `rewrite_topic_segments`, on the bytes of the segments. -/
def packBytes (maxBytes : Nat) (current : List UInt8) : List StreamRecord → List (List UInt8)
  | [] => if current = [] then [] else [current]
  | record :: kept =>
    let frame := encodeFrame (encodeRecord record)
    if current ≠ [] ∧ maxBytes < current.length + frame.length then
      current :: packBytes maxBytes frame kept
    else packBytes maxBytes (current ++ frame) kept

def newSegments (maxBytes : Nat) (kept : List StreamRecord) : List (Nat × List UInt8) :=
  (packBytes maxBytes [] kept).zipIdx.map fun segment => (segment.2, segment.1)

def metaBytes (nextOffset : UInt64) (nextSegment : Nat) : List UInt8 :=
  littleEndian 8 nextOffset.toNat ++ littleEndian 4 nextSegment

/-- Where a purge ends: with some old segments removed; with all of them removed, some new
segments written and perhaps a part of the next one; with all new segments and perhaps a part of
the new `META` file; or with everything done. -/
inductive PurgeStop where
  | removing (removed : Nat)
  | writing (whole : Nat) (part : Option Nat)
  | closing (part : Option Nat)
  | finished

/-- `rewrite_topic_segments` up to where it stops. -/
def TopicDir.rewrite (dir : TopicDir) (maxBytes : Nat) (kept : List StreamRecord)
    (nextOffset : UInt64) : PurgeStop → TopicDir
  | .removing removed => { dir with segments := dir.segments.drop removed }
  | .writing whole part =>
    let segments := newSegments maxBytes kept
    let last := (part.bind fun bytes => segments[whole]?.map fun segment =>
      (segment.1, segment.2.take bytes)).toList
    { dir with segments := segments.take whole ++ last }
  | .closing part =>
    let segments := newSegments maxBytes kept
    let written := part.map (metaBytes nextOffset segments.length).take
    { segments, metaFile := written.or dir.metaFile }
  | .finished =>
    let segments := newSegments maxBytes kept
    { segments, metaFile := some (metaBytes nextOffset segments.length) }

/-- `purge_split`. The search is `binary_search_by_key`, which may return the place of any entry
with the key. -/
def TopicPartition.purgeSplit (search : List UInt64 → UInt64 → Nat) (partition : TopicPartition)
    (cutoffMs : UInt64) : Nat :=
  search (partition.timeIndex.map (·.1)) cutoffMs

namespace DurableStreamStore

variable (search : List UInt64 → UInt64 → Nat) (store : DurableStreamStore) (topic : Str)
  (cutoffMs : UInt64)

def kept : List StreamRecord :=
  (store.partition topic).records.drop ((store.partition topic).purgeSplit search cutoffMs)

def rewritten (stop : PurgeStop) : TopicDir :=
  (store.disk.dir (encodeTopic topic)).rewrite store.segmentMaxBytes
    (store.kept search topic cutoffMs) (store.partition topic).nextOffset stop

/-- `purge_retention` up to where it stops, with the number of records that it reports. -/
def purgeRetention (stop : PurgeStop) : DurableStreamStore × Option Nat :=
  let partition := store.partition topic
  let split := partition.purgeSplit search cutoffMs
  if split = 0 then (store, some 0)
  else
    let dir := store.rewritten search topic cutoffMs stop
    let rewritten := { store with disk := store.disk.setDir (encodeTopic topic) dir }
    match stop with
    | .finished =>
      let purged := { partition with
        records := store.kept search topic cutoffMs
        timeIndex := partition.timeIndex.drop split
        nextSegmentId := dir.segments.length }
      ({ rewritten with partitions := store.partitions.set topic purged }, some split)
    | _ => (rewritten, none)

end DurableStreamStore

/-! ### What is whole on disk -/

def pack (maxBytes : Nat) (current : List StreamRecord) :
    List StreamRecord → List (List StreamRecord)
  | [] => if current = [] then [] else [current]
  | record :: kept =>
    if current ≠ [] ∧
        maxBytes < (framesOf current).length + (encodeFrame (encodeRecord record)).length then
      current :: pack maxBytes [record] kept
    else pack maxBytes (current ++ [record]) kept

def wholeFrames : Nat → List StreamRecord → List StreamRecord
  | _, [] => []
  | bytes, record :: records =>
    let frame := encodeFrame (encodeRecord record)
    if frame.length ≤ bytes then record :: wholeFrames (bytes - frame.length) records else []

/-- The records that a purge leaves whole on disk where it stops: those of the segments that it
did not remove yet, or those of the frames that it wrote. -/
def leftOnDisk (dir : TopicDir) (maxBytes : Nat) (kept : List StreamRecord) :
    PurgeStop → List StreamRecord
  | .removing removed =>
    (dir.segments.drop removed).flatMap fun segment => (scanSegment segment.2 none).1
  | .writing whole part =>
    let groups := pack maxBytes [] kept
    (groups.take whole).flatten ++
      match part with
      | some bytes => wholeFrames bytes (groups[whole]?.getD [])
      | none => []
  | .closing _ => kept
  | .finished => kept

/-- The next offset in the `META` file where a purge stops. A file that is not whole counts as
0. -/
def metaOffset (dir : TopicDir) (nextOffset : UInt64) : PurgeStop → UInt64
  | .closing (some bytes) => if 12 ≤ bytes then nextOffset else 0
  | .finished => nextOffset
  | _ => (readMeta dir.metaFile).1

theorem packBytes_framesOf (maxBytes : Nat) (current kept : List StreamRecord) :
    packBytes maxBytes (framesOf current) kept = (pack maxBytes current kept).map framesOf := by
  have hNil : ∀ records, framesOf records = [] ↔ records = [] := fun records =>
    ⟨framesOf_eq_nil, fun hNone => hNone ▸ rfl⟩
  induction kept generalizing current with
  | nil => grind [packBytes, pack]
  | cons record kept ih =>
    rw [packBytes, pack]
    simp only [ne_eq, hNil]
    split
    · rw [List.map_cons, ← ih, framesOf_singleton]
    · rw [← ih, framesOf_append, framesOf_singleton]

theorem flatten_pack (maxBytes : Nat) (current kept : List StreamRecord) :
    (pack maxBytes current kept).flatten = current ++ kept := by
  induction kept generalizing current with
  | nil =>
    rw [pack]
    split
    · next hNone => rw [hNone]; rfl
    · rfl
  | cons record kept ih => grind [pack]

theorem wholeFrames_isPrefix (bytes : Nat) (records : List StreamRecord) :
    wholeFrames bytes records <+: records := by
  induction records generalizing bytes with
  | nil => exact List.prefix_rfl
  | cons record records ih => grind [wholeFrames]

/-- The first bytes of a row of frames are whole frames and a part of the next one. -/
theorem take_framesOf (records : List StreamRecord) (bytes : Nat) :
    ∃ torn, (framesOf records).take bytes = framesOf (wholeFrames bytes records) ++ torn ∧
      (torn = [] ∨ ∃ record ∈ records, ∃ more, more ≠ [] ∧
        encodeFrame (encodeRecord record) = torn ++ more) := by
  induction records generalizing bytes with
  | nil => exact ⟨[], List.take_nil, Or.inl rfl⟩
  | cons record records ih =>
    have hCons : framesOf (record :: records) =
        encodeFrame (encodeRecord record) ++ framesOf records := rfl
    rw [wholeFrames, hCons]
    by_cases hWhole : (encodeFrame (encodeRecord record)).length ≤ bytes
    · obtain ⟨torn, hTake, hTorn⟩ := ih (bytes - (encodeFrame (encodeRecord record)).length)
      refine ⟨torn, ?_, hTorn.imp_right ?_⟩
      · rw [if_pos hWhole, List.take_append, List.take_of_length_le hWhole, hTake,
          ← List.append_assoc]
        rfl
      · grind
    · refine ⟨(encodeFrame (encodeRecord record)).take bytes, ?_, Or.inr
        ⟨record, List.mem_cons_self, (encodeFrame (encodeRecord record)).drop bytes, ?_, ?_⟩⟩
      · rw [if_neg hWhole, List.take_append_of_le_length (by omega)]
        rfl
      · intro hNil
        exact hWhole (List.drop_eq_nil_iff.mp hNil)
      · exact (List.take_append_drop ..).symm

variable {records front back gone : List StreamRecord} {cutoffMs : UInt64}

theorem scanSegment_take (hStorable : ∀ record ∈ records, record.Storable) {bytes : Nat}
    (hFollowed : (followed expected (wholeFrames bytes records)).isSome) :
    (scanSegment ((framesOf records).take bytes) expected).1 = wholeFrames bytes records := by
  obtain ⟨last, hLast⟩ := Option.isSome_iff_exists.mp hFollowed
  have hWhole : ∀ record ∈ wholeFrames bytes records, record.Storable := fun record hMem =>
    hStorable record ((wholeFrames_isPrefix bytes records).subset hMem)
  obtain ⟨torn, hTake, hTorn⟩ := take_framesOf records bytes
  rw [hTake]
  by_cases hNone : torn = []
  · rw [hNone, List.append_nil, scanSegment_framesOf hWhole hLast]
  · grind [scanSegment_torn]

/-! ### Offsets -/

/-- Offsets that follow each other also do so when the first ones are left out. -/
theorem followed_suffix (hFollowed : (followed expected (front ++ back)).isSome) :
    (followed none back).isSome := by
  rw [followed_append, Option.isSome_bind, Option.any_eq_true] at hFollowed
  obtain ⟨next, -, hBack⟩ := hFollowed
  cases next with
  | none => exact hBack
  | some next =>
    cases back with
    | nil => rfl
    | cons record back => grind [followed, nextExpected]

theorem followed_front (hFollowed : (followed expected (front ++ back)).isSome) :
    (followed expected front).isSome := by
  grind [followed_append, Option.any_eq_true]

theorem next_mem_of_followed (hFollowed : (followed none records).isSome) {record : StreamRecord}
    (hMem : record ∈ records) :
    records.getLast? = some record ∨ ∃ other ∈ records, other.offset = record.offset + 1 := by
  obtain ⟨front, back, rfl⟩ := List.append_of_mem hMem
  cases back with
  | nil => exact Or.inl (List.getLast?_concat ..)
  | cons other back =>
    have hBack := followed_suffix hFollowed
    grind [List.mem_cons_self, followed, nextExpected]

/-! ### Opening where a purge stopped -/

theorem hold_zipIdx (groups : List (List StreamRecord)) (first : Nat) :
    Hold (((groups.map framesOf).zipIdx first).map fun segment => (segment.2, segment.1))
      groups := by
  induction groups generalizing first with
  | nil => exact .nil
  | cons group groups ih => exact .cons rfl (ih (first + 1))

theorem hold_newSegments (maxBytes : Nat) (kept : List StreamRecord) :
    Hold (newSegments maxBytes kept) (pack maxBytes [] kept) := by
  have hBytes : packBytes maxBytes [] kept = (pack maxBytes [] kept).map framesOf :=
    packBytes_framesOf maxBytes [] kept
  rw [newSegments, hBytes]
  exact hold_zipIdx _ 0

theorem Hold.getElem? (hHold : Hold segments groups) (i : Nat) :
    segments[i]?.map (·.2) = groups[i]?.map framesOf := by
  induction hHold generalizing i with
  | nil => rfl
  | cons hGroup _ ih =>
    cases i with
    | zero => exact congrArg some hGroup
    | succ i => exact ih i

section

variable (hHold : Hold segments groups) (hStorable : ∀ record ∈ groups.flatten, record.Storable)
include hHold hStorable

theorem Hold.flatMap_scan (hFollowed : (followed none groups.flatten).isSome) :
    (segments.flatMap fun segment => (scanSegment segment.2 none).1) = groups.flatten := by
  induction hHold with
  | nil => rfl
  | @cons segment group segments groups hGroup _ ih =>
    grind [Option.isSome_iff_exists, followed_front, scanSegment_framesOf, followed_suffix]

/-- One more segment behind whole ones is scanned where they end. -/
theorem recoverSegments_last {last : Option UInt64}
    (hFollowed : followed expected groups.flatten = some last) (segment : Nat × List UInt8) :
    (recoverSegments (fun _ => false) expected (segments ++ [segment])).1 =
      groups.flatten ++ (scanSegment segment.2 last).1 := by
  induction hHold generalizing expected with
  | nil =>
    obtain rfl : expected = last := Option.some.inj hFollowed
    grind [recoverSegments]
  | @cons first group segments groups hGroup _ ih =>
    rw [List.flatten_cons, List.forall_mem_append] at hStorable
    rw [List.flatten_cons, followed_append, Option.bind_eq_some_iff] at hFollowed
    grind [scanSegment_framesOf, recoverSegments, followed_eq]

end

/-- What a rewrite has written is the first part of what it keeps. -/
theorem leftOnDisk_writing (dir : TopicDir) (maxBytes : Nat) (kept : List StreamRecord)
    (whole : Nat) (part : Option Nat) :
    leftOnDisk dir maxBytes kept (.writing whole part) <+: kept := by
  have hSplit : ((pack maxBytes [] kept).take whole).flatten ++
      ((pack maxBytes [] kept).drop whole).flatten = kept := by
    rw [← List.flatten_append, List.take_append_drop, flatten_pack, List.nil_append]
  cases part with
  | none => grind [leftOnDisk]
  | some bytes =>
    cases hGroup : (pack maxBytes [] kept)[whole]? with
    | none => grind [leftOnDisk, wholeFrames]
    | some group =>
      obtain ⟨rest, hRest⟩ := wholeFrames_isPrefix bytes group
      have hDrop : (pack maxBytes [] kept).drop whole =
          group :: (pack maxBytes [] kept).drop (whole + 1) :=
        List.drop_eq_getElem?_toList_append.trans (by rw [hGroup]; rfl)
      grind [leftOnDisk]

theorem leftOnDisk_removing (hStored : Stored dir partition) (removed : Nat) :
    ∃ groups, Hold (dir.segments.drop removed) groups ∧
      ((dir.segments.drop removed).flatMap fun segment => (scanSegment segment.2 none).1) =
        groups.flatten ∧ ∃ front, partition.records = front ++ groups.flatten := by
  obtain ⟨groups, hHold, hRecords⟩ := hStored.groups
  have hDrop : Hold (dir.segments.drop removed) (groups.drop removed) :=
    List.forall₂_drop removed hHold
  have hSplit : partition.records =
      (groups.take removed).flatten ++ (groups.drop removed).flatten := by
    rw [← List.flatten_append, List.take_append_drop, hRecords]
  refine ⟨groups.drop removed, hDrop, hDrop.flatMap_scan ?_ ?_, _, hSplit⟩
  · intro record hMem
    exact hStored.storable record (hSplit ▸ List.mem_append_right _ hMem)
  · exact followed_suffix (hSplit ▸ hStored.consecutive)

theorem leftOnDisk_infix (hStored : Stored dir partition) {kept : List StreamRecord}
    (hKept : partition.records = gone ++ kept) (maxBytes : Nat) (stop : PurgeStop) :
    leftOnDisk dir maxBytes kept stop <:+: partition.records := by
  have hSuffix : kept <:+ partition.records := ⟨gone, hKept.symm⟩
  cases stop with
  | removing removed =>
    obtain ⟨groups, -, hLeft, front, hRecords⟩ := leftOnDisk_removing hStored removed
    rw [leftOnDisk, hLeft]
    exact List.IsSuffix.isInfix ⟨front, hRecords.symm⟩
  | writing whole part =>
    exact (leftOnDisk_writing dir maxBytes kept whole part).isInfix.trans hSuffix.isInfix
  | closing part => exact hSuffix.isInfix
  | finished => exact hSuffix.isInfix

theorem recoverSegments_removing (hStored : Stored dir partition) (removed maxBytes : Nat)
    (kept : List StreamRecord) :
    (recoverSegments (fun _ => false) none (dir.segments.drop removed)).1 =
      leftOnDisk dir maxBytes kept (.removing removed) := by
  obtain ⟨groups, hDrop, hLeft, front, hRecords⟩ := leftOnDisk_removing hStored removed
  change _ = (dir.segments.drop removed).flatMap _
  rw [hLeft, recoverSegments_hold hDrop]
  · intro record hMem
    exact hStored.storable record (hRecords ▸ List.mem_append_right _ hMem)
  · exact followed_suffix (hRecords ▸ hStored.consecutive)

/-- While the new segments are written, the whole ones are read and the whole frames of the next
one. -/
theorem recoverSegments_writing (dir : TopicDir) {kept : List StreamRecord}
    (hStorable : ∀ record ∈ kept, record.Storable) (hFollowed : (followed none kept).isSome)
    (maxBytes : Nat) (nextOffset : UInt64) (whole : Nat) (part : Option Nat) :
    (recoverSegments (fun _ => false) none
        (dir.rewrite maxBytes kept nextOffset (.writing whole part)).segments).1 =
      leftOnDisk dir maxBytes kept (.writing whole part) := by
  have hNew := hold_newSegments maxBytes kept
  have hFlatten : (pack maxBytes [] kept).flatten = kept := flatten_pack maxBytes [] kept
  obtain ⟨rest, hRest⟩ := leftOnDisk_writing dir maxBytes kept whole part
  have hOrder : (followed none (leftOnDisk dir maxBytes kept (.writing whole part))).isSome :=
    followed_front (hRest.symm ▸ hFollowed)
  have hTake : Hold ((newSegments maxBytes kept).take whole)
      ((pack maxBytes [] kept).take whole) := List.forall₂_take whole hNew
  have hMem : ∀ record ∈ ((pack maxBytes [] kept).take whole).flatten, record.Storable :=
    fun record hMem => hStorable record (hRest ▸ List.mem_append_left _
      (List.mem_append_left _ hMem))
  have hPlain : (recoverSegments (fun _ => false) none
      ((newSegments maxBytes kept).take whole)).1 =
        ((pack maxBytes [] kept).take whole).flatten := by
    rw [recoverSegments_hold hTake hMem (followed_front hOrder)]
  have hPlace := hNew.getElem? whole
  simp only [TopicDir.rewrite, leftOnDisk] at hOrder ⊢
  cases part with
  | none =>
    simp only [Option.bind_none, Option.toList_none, List.append_nil]
    exact hPlain
  | some bytes =>
    cases hGroup : (pack maxBytes [] kept)[whole]? with
    | none => simp_all [wholeFrames]
    | some group =>
      rw [hGroup, Option.map_some, Option.map_eq_some_iff] at hPlace
      obtain ⟨segment, hSegment, hBytes⟩ := hPlace
      rw [hGroup, Option.getD_some] at hOrder
      have hOwn : ∀ record ∈ group, record.Storable := fun record hMem =>
        hStorable record (hFlatten ▸ List.mem_flatten.mpr
          ⟨group, List.mem_of_getElem? hGroup, hMem⟩)
      rw [followed_append, Option.isSome_bind, Option.any_eq_true] at hOrder
      obtain ⟨last, hLast, hTail⟩ := hOrder
      simp only [hSegment, Option.bind_some, Option.map_some, Option.toList_some,
        Option.getD_some]
      rw [recoverSegments_last hTake hMem hLast, hBytes, scanSegment_take hOwn hTail]

theorem recoverSegments_rewrite (hStored : Stored dir partition) {kept : List StreamRecord}
    (hKept : partition.records = gone ++ kept) (maxBytes : Nat) (nextOffset : UInt64)
    (stop : PurgeStop) : (recoverSegments (fun _ => false) none
        (dir.rewrite maxBytes kept nextOffset stop).segments).1 =
      leftOnDisk dir maxBytes kept stop := by
  have hStorable : ∀ record ∈ kept, record.Storable := fun record hMem =>
    hStored.storable record (hKept ▸ List.mem_append_right _ hMem)
  have hFollowed : (followed none kept).isSome := followed_suffix (hKept ▸ hStored.consecutive)
  have hFlatten : (pack maxBytes [] kept).flatten = kept := flatten_pack maxBytes [] kept
  have hAll : (recoverSegments (fun _ => false) none (newSegments maxBytes kept)).1 = kept := by
    grind [recoverSegments_hold, hold_newSegments]
  cases stop with
  | removing removed => exact recoverSegments_removing hStored removed maxBytes kept
  | writing whole part =>
    exact recoverSegments_writing dir hStorable hFollowed maxBytes nextOffset whole part
  | closing part => exact hAll
  | finished => exact hAll

/-- A `META` file is read when all its bytes are there. -/
theorem readMeta_take (nextOffset : UInt64) (nextSegment bytes : Nat) :
    (readMeta (some ((metaBytes nextOffset nextSegment).take bytes))).1 =
      if 12 ≤ bytes then nextOffset else 0 := by
  have hLength : (metaBytes nextOffset nextSegment).length = 12 := by
    rw [metaBytes, List.length_append, length_littleEndian, length_littleEndian]
  rw [readMeta, Option.bind_some]
  by_cases hWhole : 12 ≤ bytes
  · have hSegment : ∃ found, takeLittle 4 (littleEndian 4 nextSegment) = some (found, []) := by
      simp [takeBytes, takeLittle]
    obtain ⟨found, hFound⟩ := hSegment
    rw [List.take_of_length_le (by omega), if_pos hWhole, metaBytes, takeBoth,
      (reads_takeLittle 8).append nextOffset.toNat_lt, Option.bind_some, hFound, Option.map_some]
    exact UInt64.ofNat_toNat
  · have hNone : takeBoth (takeLittle 8) (takeLittle 4)
        ((metaBytes nextOffset nextSegment).take bytes) = none := by
      cases hRead : takeBoth (takeLittle 8) (takeLittle 4)
          ((metaBytes nextOffset nextSegment).take bytes) with
      | none => rfl
      | some taken =>
        obtain ⟨-, hBytes⟩ :=
          (((reads_takeLittle 8).both (reads_takeLittle 4)).law _ taken.1 taken.2).mp hRead
        grind [List.length_append, length_littleEndian]
    rw [hNone, if_neg hWhole]

def TopicDir.opened (dir : TopicDir) : TopicPartition :=
  (dir.recover fun _ => false).2.getD .default

theorem TopicDir.opened_spec (dir : TopicDir) :
    dir.opened.records = (recoverSegments (fun _ => false) none dir.segments).1 ∧
      dir.opened.nextOffset =
        (lastExpected none dir.opened.records).getD (readMeta dir.metaFile).1 := by
  rw [opened]
  by_cases hNone : dir.segments = []
  · rw [Stored.recover_empty hNone, hNone]
    by_cases hMeta : 0 < (readMeta dir.metaFile).1 ∨ 0 < (readMeta dir.metaFile).2
    · rw [if_pos hMeta]
      exact ⟨rfl, rfl⟩
    · rw [if_neg hMeta]
      exact ⟨rfl, (Stored.offset_eq_zero hMeta).symm⟩
  · simp [recover, hNone, Option.getD_some, and_self]

theorem metaOffset_rewrite (dir : TopicDir) (maxBytes : Nat) (kept : List StreamRecord)
    (nextOffset : UInt64) (stop : PurgeStop) :
    (readMeta (dir.rewrite maxBytes kept nextOffset stop).metaFile).1 =
      metaOffset dir nextOffset stop := by
  cases stop with
  | removing removed => rfl
  | writing whole part => rfl
  | closing part =>
    cases part with
    | none => rfl
    | some bytes => exact readMeta_take nextOffset _ bytes
  | finished =>
    have hTake := readMeta_take nextOffset (newSegments maxBytes kept).length 12
    rw [List.take_of_length_le (by simp [metaBytes])] at hTake
    exact hTake

theorem le_nextOffset_iff {left : List StreamRecord} (hFollowed : (followed none left).isSome)
    {nextOffset : UInt64} (hBelow : ∀ record ∈ left, record.offset < nextOffset)
    (otherwise : UInt64) : nextOffset ≤ (lastExpected none left).getD otherwise ↔
      (left = [] ∧ nextOffset ≤ otherwise) ∨ ∃ record ∈ left, record.offset + 1 = nextOffset := by
  cases hLast : left.getLast? with
  | none =>
    obtain rfl := List.getLast?_eq_none_iff.mp hLast
    simp [lastExpected]
  | some last =>
    have hMem : last ∈ left := List.mem_of_getLast? hLast
    have hBelowLast := UInt64.lt_iff_toNat_lt.mp (hBelow last hMem)
    have hNext : (last.offset + 1).toNat = last.offset.toNat + 1 := by
      have hMax := nextOffset.toNat_lt
      rw [UInt64.toNat_add, UInt64.toNat_one, Nat.mod_eq_of_lt (by omega)]
    have hReached : nextOffset ≤ last.offset + 1 ↔ last.offset + 1 = nextOffset := by
      rw [UInt64.le_iff_toNat_le, ← UInt64.toNat_inj, hNext]
      omega
    rw [lastExpected, hLast, Option.getD_some, hReached]
    constructor
    · intro hEqual
      exact Or.inr ⟨last, hMem, hEqual⟩
    · rintro (⟨rfl, -⟩ | ⟨record, hRecord, hEqual⟩)
      · cases hLast
      · rcases next_mem_of_followed hFollowed hRecord with hIsLast | ⟨other, hOther, hOffset⟩
        · simp_all
        · grind

/-! ### Purging -/

section Purge

variable (search : List UInt64 → UInt64 → Nat) {store : DurableStreamStore} {topic : Topic}

/-- A purge that stops here loses nothing: it removes nothing at all, or every record from the
cutoff on is whole on disk, and so is the newest record, or no record is left and the `META` file
has the next offset. -/
def Survives (store : DurableStreamStore) (topic : Str) (cutoffMs : UInt64) (stop : PurgeStop) :
    Prop :=
  let partition := store.partition topic
  let dir := store.disk.dir (encodeTopic topic)
  let left := leftOnDisk dir store.segmentMaxBytes (store.kept search topic cutoffMs) stop
  partition.purgeSplit search cutoffMs = 0 ∨
    (∀ record ∈ partition.records, cutoffMs ≤ record.timestampMs → record ∈ left) ∧
      ((left = [] ∧ partition.nextOffset ≤ metaOffset dir partition.nextOffset stop) ∨
        ∃ record ∈ left, record.offset + 1 = partition.nextOffset)

def afterPurge (store : DurableStreamStore) (topic : Str) (cutoffMs : UInt64) (stop : PurgeStop) :
    TopicPartition :=
  ((store.purgeRetention search topic cutoffMs stop).1.reopen fun _ _ => false).partition topic

theorem afterPurge_rewritten (hIntact : Intact store) (hTopic : ¬ Dotted topic.text)
    (hSplit : (store.partition topic.text).purgeSplit search cutoffMs ≠ 0) (stop : PurgeStop) :
    afterPurge search store topic.text cutoffMs stop =
      (store.rewritten search topic.text cutoffMs stop).opened := by
  have hName : ¬ Dotted (encodeTopic topic.text) := mt dotted_encodeTopic.mp hTopic
  have hTopics : (store.purgeRetention search topic.text cutoffMs stop).1.disk.topics =
      store.disk.topics.set (encodeTopic topic.text)
        (store.rewritten search topic.text cutoffMs stop) := by
    simp only [DurableStreamStore.purgeRetention, hSplit, if_false]
    cases stop <;> exact store.disk.topics_setDir hName _
  have hCanonical := hIntact.canonical.set topic (store.rewritten search topic.text cutoffMs stop)
  rw [← hTopics] at hCanonical
  rw [afterPurge, hCanonical.partition_reopen, hTopics, Dict.get?_set_self, Option.getD_some]
  rfl

/-- A purge that removes no record leaves the directory as it is. -/
theorem afterPurge_unchanged (hIntact : Intact store) (hTopic : ¬ Dotted topic.text)
    (hSplit : (store.partition topic.text).purgeSplit search cutoffMs = 0) (stop : PurgeStop) :
    (afterPurge search store topic.text cutoffMs stop).records =
        (store.partition topic.text).records ∧
      (afterPurge search store topic.text cutoffMs stop).nextOffset =
        (store.partition topic.text).nextOffset := by
  have hSame : store.purgeRetention search topic.text cutoffMs stop = (store, some 0) := by
    simp [DurableStreamStore.purgeRetention, hSplit]
  have hStored := hIntact.stored topic hTopic
  have hRecords := hStored.recover.2.1
  have hNext := (TopicDir.opened_spec
    ((store.disk.topics.get? (encodeTopic topic.text)).getD .empty)).2
  rw [TopicDir.opened, hRecords, ← hStored.nextOffset] at hNext
  rw [afterPurge, hSame, hIntact.canonical.partition_reopen]
  exact ⟨hRecords, hNext⟩

/-- Opening a store where a purge of a topic stopped finds every record from the cutoff on, and
goes on behind every offset that was acknowledged, exactly when the purge loses nothing there. -/
theorem purge_survives_iff (hIntact : Intact store) (hTopic : ¬ Dotted topic.text)
    (hOffsets : ∀ record ∈ (store.partition topic.text).records,
      record.offset < (store.partition topic.text).nextOffset)
    (cutoffMs : UInt64) (stop : PurgeStop) :
    ((∀ record ∈ (store.partition topic.text).records, cutoffMs ≤ record.timestampMs →
        record ∈ (afterPurge search store topic.text cutoffMs stop).records) ∧
      (store.partition topic.text).nextOffset ≤
        (afterPurge search store topic.text cutoffMs stop).nextOffset) ↔
      Survives search store topic.text cutoffMs stop := by
  by_cases hSplit : (store.partition topic.text).purgeSplit search cutoffMs = 0
  · obtain ⟨hRecords, hNext⟩ := afterPurge_unchanged search hIntact hTopic hSplit stop
    rw [hRecords, hNext]
    exact iff_of_true ⟨fun _ hMem _ => hMem, UInt64.le_refl _⟩ (Or.inl hSplit)
  · have hName : ¬ Dotted (encodeTopic topic.text) := mt dotted_encodeTopic.mp hTopic
    have hStored := hIntact.stored topic hTopic
    rw [← store.disk.dir_of_not_dotted hName] at hStored
    have hKept : (store.partition topic.text).records = _ ++ store.kept search topic.text cutoffMs :=
      (List.take_append_drop ..).symm
    obtain ⟨hRecords, hNext⟩ :=
      TopicDir.opened_spec (store.rewritten search topic.text cutoffMs stop)
    have hLeft := recoverSegments_rewrite hStored hKept store.segmentMaxBytes
      (store.partition topic.text).nextOffset stop
    obtain ⟨front, back, hInfix⟩ := leftOnDisk_infix hStored hKept store.segmentMaxBytes stop
    rw [afterPurge_rewritten search hIntact hTopic hSplit, hNext, hRecords,
      DurableStreamStore.rewritten, hLeft, metaOffset_rewrite, le_nextOffset_iff]
    · simp [Survives, hSplit]
    · exact followed_suffix (followed_front (hInfix ▸ hStored.consecutive))
    · grind

end Purge

def sampleAt (timestampMs : UInt64) : AppendRequest := { sample [3] with timestampMs }

def twoStored (timestampMs : UInt64) : DurableStreamStore :=
  (((DurableStreamStore.new 1024).append (sampleAt 5) true .done).1.append
    (sampleAt timestampMs) true .done).1

/-- The first place that is not below the key, which a binary search may return. -/
def firstPlace (keys : List UInt64) (key : UInt64) : Nat := (keys.takeWhile (· < key)).length

/-- A purge of the records before 8 that stops when it removed the only segment loses the record
of the time 9 and starts the offsets anew. A purge that finishes loses a record of the cutoff's
time when the search returns the place of a later one. -/
theorem purge_loses :
    ((sampleAt 9).record 1 ∈ ((twoStored 9).partition "feed".toList).records ∧
      (afterPurge firstPlace (twoStored 9) "feed".toList 8 (.removing 1)).records = [] ∧
      (afterPurge firstPlace (twoStored 9) "feed".toList 8 (.removing 1)).nextOffset = 0) ∧
    (sampleAt 5).record 0 ∈ ((twoStored 5).partition "feed".toList).records ∧
      (afterPurge (fun _ _ => 1) (twoStored 5) "feed".toList 5 .finished).records =
        [(sampleAt 5).record 1] := by
  decide +kernel

/-- The same purge keeps the record of the time 9 once the new segment is there. -/
theorem purge_keeps :
    (∀ record ∈ ((twoStored 9).partition "feed".toList).records, 8 ≤ record.timestampMs →
        record ∈ (afterPurge firstPlace (twoStored 9) "feed".toList 8 (.closing none)).records) ∧
      ((twoStored 9).partition "feed".toList).nextOffset ≤
        (afterPurge firstPlace (twoStored 9) "feed".toList 8 (.closing none)).nextOffset := by
  have hFirst : Safe (.new 1024) (.append (sampleAt 5) true .done) :=
    ⟨by decide +kernel, by decide +kernel, by decide +kernel⟩
  have hSecond : Safe ((DurableStreamStore.new 1024).append (sampleAt 5) true .done).1
      (.append (sampleAt 9) true .done) :=
    ⟨by decide +kernel, by decide +kernel, by decide +kernel⟩
  have hIntact : Intact (twoStored 9) := ((intact_new 1024).append hFirst).append hSecond
  have hSurvives : Survives firstPlace (twoStored 9) "feed".toList 8 (.closing none) :=
    Or.inr ⟨by decide +kernel, Or.inr (by decide +kernel)⟩
  exact (@purge_survives_iff firstPlace (twoStored 9) (sampleAt 9).topic hIntact
    (by decide +kernel) (by decide +kernel) 8 (.closing none)).mpr hSurvives

end IndraMqtt.Storage.Streams

import IndraMqtt.Storage.OfflineLog

/-! Appends to one queue file. An append can fail after any part of its frame was stored, and
the frames of later appends then stand behind a torn one. -/
namespace IndraMqtt.Storage

open Sessions FrameLog

def recordFrame (record : OfflineRecord) : List UInt8 := encodeFrame (encodeRecord record)

theorem frames_record (record : OfflineRecord) : queueFormat.frames [record] = recordFrame record :=
  queueFormat.frames_singleton record

/-- `append_in_tenant` on the bytes of the file. A call fails after some bytes of the frame
were stored: none of them when the file cannot be opened, all of them when it cannot be
flushed or synced. -/
def appendFile (file : List UInt8) (record : OfflineRecord) (fault : Option Nat) :
    List UInt8 × Bool :=
  match fault with
  | none => (file ++ recordFrame record, true)
  | some stored => (file ++ (recordFrame record).take stored, false)

theorem appendFile_extends (file : List UInt8) (record : OfflineRecord) (fault : Option Nat) :
    file <+: (appendFile file record fault).1 := by
  cases fault with
  | none => exact List.prefix_append _ _
  | some stored => exact List.prefix_append _ _

structure Append where
  record : OfflineRecord
  fault : Option Nat

def appendAll (file : List UInt8) (appends : List Append) : List UInt8 :=
  appends.foldl (fun file append => (appendFile file append.record append.fault).1) file

/-- The records whose append returned success. -/
def acknowledged (appends : List Append) : List OfflineRecord :=
  (appends.filter (·.fault.isNone)).map (·.record)

/-- An append that leaves no part of a frame behind: it stored nothing, or the whole frame of
a record that can be read back. -/
def Append.Whole (append : Append) : Prop :=
  match append.fault with
  | none => Storable append.record
  | some stored =>
    stored = 0 ∨ (Storable append.record ∧ (recordFrame append.record).length ≤ stored)

/-- Some bytes stand behind the file afterwards. -/
theorem appendAll_extends (file : List UInt8) (appends : List Append) :
    file <+: appendAll file appends := by
  induction appends generalizing file with
  | nil => exact List.prefix_rfl
  | cons append appends ih =>
    exact (appendFile_extends file append.record append.fault).trans (ih _)

theorem Append.Whole.file {append : Append} (hWhole : append.Whole) (kept : List OfflineRecord) :
    ∃ added : List OfflineRecord, (∀ record ∈ added, Storable record) ∧
      (appendFile (queueFormat.frames kept) append.record append.fault).1 =
        queueFormat.frames (kept ++ added) ∧
      (acknowledged [append]).Sublist added := by
  obtain ⟨record, fault⟩ := append
  cases fault with
  | none =>
    refine ⟨[record], List.forall_mem_singleton.mpr hWhole, ?_, List.Sublist.refl _⟩
    rw [Format.frames_append, frames_record]
    rfl
  | some stored =>
    obtain rfl | ⟨hStorable, hAll⟩ := hWhole
    · refine ⟨[], fun _ hMem => absurd hMem List.not_mem_nil, ?_, List.Sublist.refl _⟩
      simp [appendFile]
    · refine ⟨[record], List.forall_mem_singleton.mpr hStorable, ?_, List.nil_sublist _⟩
      rw [Format.frames_append, frames_record, appendFile, List.take_of_length_le hAll]

theorem acknowledged_cons (append : Append) (appends : List Append) :
    acknowledged (append :: appends) = acknowledged [append] ++ acknowledged appends := by
  simp [acknowledged, ← List.map_append, ← List.filter_append]

/-- Every append that returned success is recovered by a later scan, when up to each of them
all appends were whole. -/
theorem acknowledged_recovered {kept : List OfflineRecord}
    (hKept : ∀ record ∈ kept, Storable record) (appends : List Append)
    (hOrder : ∀ front append back, appends = front ++ append :: back → append.fault = none →
      ∀ earlier ∈ front ++ [append], earlier.Whole) :
    (kept ++ acknowledged appends).Sublist
      (scanFile (appendAll (queueFormat.frames kept) appends)).1 := by
  induction appends generalizing kept with
  | nil =>
    have hScan := queueFormat.scan_intact hKept
    show (kept ++ []).Sublist (queueFormat.scan (queueFormat.frames kept)).1
    rw [hScan, List.append_nil]
  | cons append appends ih =>
    by_cases hWhole : append.Whole
    · obtain ⟨added, hAdded, hFile, hOwn⟩ := hWhole.file kept
      have hBoth : ∀ record ∈ kept ++ added, Storable record := by grind
      have hRest := ih hBoth fun front later back hShape hDone earlier hMem =>
        hOrder (append :: front) later back (by rw [hShape, List.cons_append]) hDone earlier
          (List.mem_cons_of_mem append hMem)
      have hState : appendAll (queueFormat.frames kept) (append :: appends) =
          appendAll (queueFormat.frames (kept ++ added)) appends := by
        rw [← hFile]
        rfl
      rw [hState, acknowledged_cons, ← List.append_assoc]
      exact ((hOwn.append_left kept).append_right _).trans hRest
    · -- Nothing is acknowledged any more, and the frames before stay where they are.
      have hNone : acknowledged (append :: appends) = [] := by
        rw [acknowledged, List.map_eq_nil_iff, List.filter_eq_nil_iff]
        intro later hMem hDone
        obtain ⟨front, back, hShape⟩ := List.append_of_mem hMem
        apply hWhole
        refine hOrder front later back hShape (Option.isNone_iff_eq_none.mp hDone) append ?_
        cases front with
        | nil => grind
        | cons first front =>
          obtain ⟨rfl, -⟩ := List.cons.inj hShape
          exact List.mem_cons_self
      obtain ⟨more, hMore⟩ :=
        appendAll_extends (queueFormat.frames kept) (append :: appends)
      rw [hNone, List.append_nil, ← hMore, scanFile, queueFormat.scan_frames hKept]
      exact List.sublist_append_left _ _

def note (payload : UInt8) : OfflineRecord :=
  { topic := ⟨"n".toList, rfl⟩, qos := .atLeastOnce, retain := false, payload := [payload]
    publishAtMs := some 0 }

theorem storable_note (payload : UInt8) : Storable (note payload) := by
  have hTopic : (Bytes.asBytes "n".toList).length = 1 := by decide +kernel
  refine ⟨?_, ?_, ?_⟩
  · show (Bytes.asBytes "n".toList).length ≤ maxTopicBytes
    rw [hTopic]
    decide
  · exact Nat.le_of_ble_eq_true rfl
  · intro stamp hStamp
    obtain rfl := Option.some.inj hStamp
    decide

def retried (stored : Nat) : List Append := [⟨note 1, some stored⟩, ⟨note 2, none⟩]

/-- An append that could not open the file does not cost the next one. -/
theorem note_recovered : [note 2].Sublist (scanFile (appendAll [] (retried 0))).1 := by
  have hNone : ∀ record ∈ ([] : List OfflineRecord), Storable record := fun _ hMem =>
    absurd hMem List.not_mem_nil
  have hAll : ∀ append ∈ retried 0, append.Whole := by
    intro append hMem
    simp only [retried, List.mem_cons, List.not_mem_nil, or_false] at hMem
    obtain rfl | rfl := hMem
    · exact Or.inl rfl
    · exact storable_note 2
  refine acknowledged_recovered hNone (retried 0) ?_
  grind

/-- Five bytes of a failed append hide the append that succeeded after it. -/
theorem torn_hides_note :
    acknowledged (retried 5) = [note 2] ∧ (scanFile (appendAll [] (retried 5))).1 = [] := by
  decide +kernel

/-- A frame cannot be read from a part of it. The length in front of a record says how many
bytes are missing, so the checksum does not matter. -/
theorem readFrame_torn {record : OfflineRecord} (hLength : (encodeRecord record).length < 256 ^ 4)
    {part : List UInt8} (hPart : part <+: recordFrame record) (hProper : part ≠ recordFrame record) :
    readFrame part = none := by
  cases hRead : readFrame part with
  | none => rfl
  | some taken =>
    obtain ⟨found, rest⟩ := taken
    obtain ⟨hStorable, rfl⟩ := (reads_readFrame.law part found rest).mp hRead
    obtain ⟨more, hFrame⟩ := hPart
    have hWhole := hFrame
    have hFits : (encodeRecord found).length < 256 ^ 4 := by
      have hMax : minRecordBytes + maxTopicBytes + maxPayloadBytes < 256 ^ 4 := by decide
      have hLength := length_encodeRecord found
      obtain ⟨hTopic, hPayload, -⟩ := hStorable
      omega
    simp only [recordFrame, encodeFrame, List.append_assoc] at hFrame
    have hTaken := congrArg (Bytes.takeLittle 4) hFrame
    rw [(Bytes.reads_takeLittle 4).append hFits, (Bytes.reads_takeLittle 4).append hLength] at hTaken
    have hSame : (encodeRecord found).length = (encodeRecord record).length :=
      congrArg Prod.fst (Option.some.inj hTaken)
    have hLengths := congrArg List.length hFrame
    simp only [List.length_append, Bytes.length_littleEndian] at hLengths
    obtain rfl : more = [] := List.length_eq_zero_iff.mp (by omega)
    rw [List.append_nil] at hWhole
    exact absurd hWhole hProper

/-- A scan of a file whose last frame was cut short returns the records of the frames before it,
and the place where they end. -/
theorem scanFile_torn {records : List OfflineRecord} (hStorable : ∀ record ∈ records, Storable record)
    {record : OfflineRecord} (hLength : (encodeRecord record).length < 256 ^ 4) {part : List UInt8}
    (hPart : part <+: recordFrame record) (hProper : part ≠ recordFrame record) :
    scanFile (records.flatMap recordFrame ++ part) =
      (records, (records.flatMap recordFrame).length, part.isEmpty) := by
  have hScan := queueFormat.scan_frames hStorable part
  rw [queueFormat.scan_none (readFrame_torn hLength hPart hProper), List.append_nil,
    Nat.add_zero] at hScan
  exact hScan

theorem note_before_torn :
    scanFile ([note 1].flatMap recordFrame ++ (recordFrame (note 2)).take 5) =
      ([note 1], ([note 1].flatMap recordFrame).length, false) :=
  scanFile_torn (List.forall_mem_singleton.mpr (storable_note 1)) (by decide +kernel)
    (List.take_prefix 5 _) (by decide +kernel)

end IndraMqtt.Storage

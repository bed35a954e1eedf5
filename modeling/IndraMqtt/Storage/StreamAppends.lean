import IndraMqtt.Lib.Runs
import IndraMqtt.Storage.StreamStore

/-! Sequences of appends to a stream store, with writes that fail. As long as a failed write
stores no byte, every acknowledged record is found again when the store is opened. A write that
stores part of its frame hides the records that are acknowledged behind it. -/
namespace IndraMqtt.Storage.Streams

open Protocol Sessions Runs
open Option (map_eq_some_iff getD_some)
open DurableStreamStore (new partition reopen topicDir)

variable {name : Str}

/-! ### Directories and partitions -/

/-- The names that lead out of the directory of the store. -/
def Dotted (name : Str) : Prop := name = ['.'] ∨ name = ['.', '.']

instance (name : Str) : Decidable (Dotted name) := inferInstanceAs (Decidable (_ ∨ _))

theorem decodeTopic_encodeTopic (topic : Str) : decodeTopic (encodeTopic topic) = some topic :=
  decodeClient_encodeClient topic

variable {topic : Str} {store : DurableStreamStore} {io : AppendIO} {dir : TopicDir}

theorem encodeTopic_inj {other : Str} (hSame : encodeTopic topic = encodeTopic other) :
    topic = other := by
  grind [decodeTopic_encodeTopic]

/-- Only the two names themselves are encoded as names that lead out. -/
theorem dotted_encodeTopic : Dotted (encodeTopic topic) ↔ Dotted topic :=
  dotted_encodeClient

theorem topicOf_encodeTopic (topic : Topic) :
    topicOf (encodeTopic topic.text) = some topic.text := by
  rw [topicOf, decodeTopic_encodeTopic, Option.bind_some, topicNew_eq_ok.mpr rfl, Option.map_some]

/-- The directory that the encoded topic leads to from the directory of the store. -/
def topicPath (store : List Str) (topic : Str) : List Str :=
  let name := encodeTopic topic
  if name = ['.'] then store else if name = ['.', '.'] then store.dropLast else store ++ [name]

theorem topicPath_eq (store : List Str) (hTopic : ¬Dotted topic) :
    topicPath store topic = store ++ [encodeTopic topic] := by
  obtain ⟨hOne, hTwo⟩ := not_or.mp (mt dotted_encodeTopic.mp hTopic)
  rw [topicPath, if_neg hOne, if_neg hTwo]

/-- A topic has a directory of its own below that of the store, from which it is found again,
exactly when it is none of the two names that lead out. -/
theorem topic_dir_below_iff (store : List Str) (topic : Topic) :
    ((∃ name, topicPath store topic.text = store ++ [name] ∧ topicOf name = some topic.text) ↔
      ¬Dotted topic.text) ∧
    ∀ other : Topic, ¬Dotted topic.text → ¬Dotted other.text → topic ≠ other →
      topicPath store topic.text ≠ topicPath store other.text := by
  constructor
  · constructor
    · rintro ⟨name, hPath, -⟩ hDotted
      have hLength := congrArg List.length hPath
      obtain hOne | hTwo := dotted_encodeTopic.mpr hDotted
      · simp [topicPath, hOne] at hLength
      · simp [topicPath, hTwo] at hLength
    · intro hTopic
      exact ⟨_, topicPath_eq store hTopic, topicOf_encodeTopic topic⟩
  · intro other hTopic hOther hNe hPath
    rw [topicPath_eq store hTopic, topicPath_eq store hOther, List.append_cancel_left_eq,
      List.singleton_inj] at hPath
    cases topic
    cases other
    cases encodeTopic_inj hPath
    exact hNe rfl

/-- The directory of the topic `..` is the one above the store, that of `.` the store. -/
theorem dotted_topics_lead_out :
    Topic.new "..".toList = .ok ⟨"..".toList, rfl⟩ ∧
      topicPath ["data".toList, "streams".toList] "..".toList = ["data".toList] ∧
      topicPath ["data".toList, "streams".toList] ".".toList =
        ["data".toList, "streams".toList] := by
  decide +kernel

namespace Disk

theorem dir_of_not_dotted (disk : Disk) (hName : ¬ Dotted name) :
    disk.dir name = (disk.topics.get? name).getD .empty := by
  obtain ⟨hOne, hTwo⟩ := not_or.mp hName
  rw [dir, if_neg hOne, if_neg hTwo]

theorem topics_setDir (disk : Disk) (hName : ¬ Dotted name) (dir : TopicDir) :
    (disk.setDir name dir).topics = disk.topics.set name dir := by
  obtain ⟨hOne, hTwo⟩ := not_or.mp hName
  rw [setDir, if_neg hOne, if_neg hTwo]

theorem topics_setDir_dotted (disk : Disk) (hName : Dotted name) (dir : TopicDir) :
    (disk.setDir name dir).topics = disk.topics := by
  rw [setDir]
  rcases hName with rfl | rfl
  all_goals rfl

end Disk

def Canonical (topics : Dict Str TopicDir) : Prop :=
  ∀ name dir, topics.get? name = some dir → ∃ topic : Topic, name = encodeTopic topic.text

theorem Canonical.set {topics : Dict Str TopicDir} (hCanonical : Canonical topics) (topic : Topic)
    (dir : TopicDir) : Canonical (topics.set (encodeTopic topic.text) dir) := by
  intro name found hGet
  rw [Dict.get?_set] at hGet
  split at hGet
  · next hName => exact ⟨topic, hName⟩
  · exact hCanonical name found hGet

structure Intact (store : DurableStreamStore) : Prop where
  canonical : Canonical store.disk.topics
  stored : ∀ topic : Topic, ¬ Dotted topic.text →
    Stored ((store.disk.topics.get? (encodeTopic topic.text)).getD .empty)
      (store.partition topic.text)

theorem stored_empty : Stored .empty .default where
  groups := ⟨[], .nil, rfl⟩
  storable _ hMem := absurd hMem List.not_mem_nil
  consecutive := rfl
  ascending := .nil
  numbers _ hMem := absurd hMem List.not_mem_nil
  active _ hMem := absurd hMem List.not_mem_nil
  timeIndex := rfl
  nextOffset := rfl

theorem intact_new (segmentMaxBytes : Nat) : Intact (.new segmentMaxBytes) where
  canonical _ _ hGet := absurd hGet (by simp [new])
  stored _ _ := stored_empty

theorem Canonical.partition_reopen (hCanonical : Canonical store.disk.topics) (topic : Topic) :
    (store.reopen fun _ _ => false).partition topic.text =
      (((store.disk.topics.get? (encodeTopic topic.text)).getD .empty).recover
        fun _ => false).2.getD .default := by
  have hTopic := topicOf_encodeTopic topic
  have hSource : ∀ entry ∈ store.disk.topics.entries, ∀ found,
      recoveredPartition (fun _ _ => false) entry.1 entry.2 = some found →
        entry.1 = encodeTopic found.1 := by
    intro entry hMem found hFound
    obtain ⟨owner, hOwner⟩ := hCanonical entry.1 entry.2
      ((Dict.get?_eq_some_iff _ _ _).mpr hMem)
    obtain ⟨text, hText, hRest⟩ := Option.bind_eq_some_iff.mp hFound
    grind [map_eq_some_iff, topicOf_encodeTopic]
  have hOwn : ∀ dir found,
      recoveredPartition (fun _ _ => false) (encodeTopic topic.text) dir = some found →
        found.1 = topic.text := by simp_all [recoveredPartition]
  have hGet := Dict.get?_collect (recoveredPartition fun _ _ => false) encodeTopic
    store.disk.topics.nodupKeys hSource ∅ hOwn
  rw [partition, reopen, hGet, Dict.get?_empty,
    Option.or_none]
  change Option.getD (Option.bind (store.disk.topics.get? _) _) _ = _
  cases hDir : store.disk.topics.get? (encodeTopic topic.text) with
  | none => rfl
  | some dir => grind [recoveredPartition, TopicDir.recover]

namespace Intact

variable {store : DurableStreamStore}

/-- What opening a store leaves in its directories. -/
theorem topics_reopen (hIntact : Intact store) (name : Str) :
    (store.reopen fun _ _ => false).disk.topics.get? name =
      (store.disk.topics.get? name).map fun dir => (dir.recover fun _ => false).1 := by
  have hSource : ∀ entry ∈ store.disk.topics.entries, ∀ found,
      recoveredDir (fun _ _ => false) entry.1 entry.2 = some found → entry.1 = found.1 := by
    intro entry _ found hFound
    obtain ⟨text, -, rfl⟩ := map_eq_some_iff.mp hFound
    rfl
  have hOwn : ∀ dir found, recoveredDir (fun _ _ => false) name dir = some found →
      found.1 = name := by
    intro dir found hFound
    obtain ⟨text, -, rfl⟩ := map_eq_some_iff.mp hFound
    rfl
  have hGet := Dict.get?_collect (recoveredDir fun _ _ => false) id
    store.disk.topics.nodupKeys hSource store.disk.topics hOwn
  rw [reopen, hGet]
  change Option.or (Option.bind (store.disk.topics.get? name) _) _ = _
  cases hDir : store.disk.topics.get? name with
  | none => rfl
  | some dir =>
    obtain ⟨topic, rfl⟩ := hIntact.canonical name dir hDir
    rw [Option.bind_some, id, recoveredDir, topicOf_encodeTopic]
    rfl

theorem reopen (hIntact : Intact store) : Intact (store.reopen fun _ _ => false) where
  canonical name dir hGet := by
    rw [hIntact.topics_reopen] at hGet
    obtain ⟨before, hBefore, -⟩ := map_eq_some_iff.mp hGet
    exact hIntact.canonical name before hBefore
  stored topic hTopic := by
    obtain ⟨hDir, -, hStored⟩ := (hIntact.stored topic hTopic).recover
    rw [hIntact.canonical.partition_reopen, hIntact.topics_reopen]
    cases hGet : store.disk.topics.get? (encodeTopic topic.text) with
    | none =>
      rw [hGet] at hStored
      exact hStored
    | some dir =>
      rw [hGet, getD_some] at hDir hStored
      rw [Option.map_some, getD_some, getD_some, hDir]
      exact hStored

theorem records_reopen (hIntact : Intact store) {topic : Topic} (hTopic : ¬ Dotted topic.text) :
    ((store.reopen fun _ _ => false).partition topic.text).records =
      (store.partition topic.text).records := by
  rw [hIntact.canonical.partition_reopen]
  exact (hIntact.stored topic hTopic).recover.2.1

end Intact

/-! ### Runs -/

/-- What happens to a store: an append with the way its file operations end, or a restart. -/
inductive StreamEvent where
  | append (request : AppendRequest) (sizeRead : Bool) (io : AppendIO)
  | restart

def step (store : DurableStreamStore) :
    StreamEvent → Option (DurableStreamStore × Option UInt64)
  | .append request sizeRead io => some (store.append request sizeRead io)
  | .restart => some (store.reopen fun _ _ => false, none)

/-- No byte of a failed write is stored. An acknowledged record is within the limits of the
decoder, and the name of its topic does not lead out of the directory. There is a number left
for the next segment. -/
def Safe (store : DurableStreamStore) : StreamEvent → Prop
  | .append request _ io =>
    (store.partition request.topic.text).nextSegmentId + 1 < 4294967296 ∧
      match io with
      | .noDirectory => True
      | .notOpened => True
      | .failed stored => stored = 0
      | .done =>
        ¬ Dotted request.topic.text ∧
          (store.nextRecord request).Storable
  | .restart => True

namespace DurableStreamStore

variable (store : DurableStreamStore) (request : AppendRequest) (sizeRead : Bool)

theorem partition_append_failed (hFailed : (store.append request sizeRead io).2 = none)
    (other : Str) :
    (store.append request sizeRead io).1.partition other = store.partition other := by
  have hSame : ((store.partitions.set request.topic.text
      (store.partition request.topic.text)).get? other).getD .default = store.partition other := by
    rw [Dict.get?_set]
    split
    · next hOther => rw [getD_some, hOther]
    · rfl
  cases io with
  | noDirectory => exact hSame
  | notOpened => exact hSame
  | failed stored => exact hSame
  | done => cases hFailed

theorem partition_append_done (other : Str) :
    (store.append request sizeRead .done).1.partition other =
      if other = request.topic.text then
        (store.partition request.topic.text).push (store.nextRecord request)
          (store.nextSegment request sizeRead)
      else store.partition other := by
  simp only [append, partition, Dict.get?_set]
  split <;> rfl

/-- No event takes a record out of the memory of a store. -/
theorem records_append (io : AppendIO) (other : Str) : (store.partition other).records ⊆
      ((store.append request sizeRead io).1.partition other).records := by
  cases hDone : (store.append request sizeRead io).2 with
  | none => rw [partition_append_failed store request sizeRead hDone]; exact List.Subset.refl _
  | some offset =>
    cases io with
    | done =>
      rw [partition_append_done]
      split
      · next hOther =>
        rw [hOther]
        exact List.subset_append_left _ _
      · exact List.Subset.refl _
    | noDirectory => cases hDone
    | notOpened => cases hDone
    | failed stored => cases hDone

end DurableStreamStore

namespace Intact

variable {store next : DurableStreamStore}

theorem congr (hIntact : Intact store)
    (hPartition : ∀ other, ¬ Dotted other → next.partition other = store.partition other)
    (hTopics : next.disk.topics = store.disk.topics) : Intact next where
  canonical := hTopics ▸ hIntact.canonical
  stored topic hTopic := by
    rw [hTopics, hPartition topic.text hTopic]
    exact hIntact.stored topic hTopic

/-- One topic's directory and partition change together. -/
theorem update (hIntact : Intact store) (topic : Topic)
    (hStored : Stored dir (next.partition topic.text))
    (hPartition : ∀ other, other ≠ topic.text → next.partition other = store.partition other)
    (hTopics : next.disk.topics = store.disk.topics.set (encodeTopic topic.text) dir) :
    Intact next where
  canonical := by
    rw [hTopics]
    exact hIntact.canonical.set topic dir
  stored other hOther := by
    by_cases hSame : other.text = topic.text
    · rw [hTopics, hSame, Dict.get?_set_self, getD_some]
      exact hStored
    · have hName : encodeTopic other.text ≠ encodeTopic topic.text := fun hName =>
        hSame (encodeTopic_inj hName)
      rw [hTopics, Dict.get?_set_ne _ _ _ _ hName, hPartition other.text hSame]
      exact hIntact.stored other hOther

theorem written (hIntact : Intact store) {topic : Topic}
    (hStored : Stored dir (store.partition topic.text))
    (hPartition : ∀ other, next.partition other = store.partition other)
    (hTopics : next.disk.topics = store.disk.topics.set (encodeTopic topic.text) dir) :
    Intact next :=
  hIntact.update topic (hPartition topic.text ▸ hStored) (fun other _ => hPartition other) hTopics

/-- A safe append keeps the directories and the partitions together. -/
theorem append (hIntact : Intact store) {request : AppendRequest} {sizeRead : Bool}
    (hSafe : Safe store (.append request sizeRead io)) :
    Intact (store.append request sizeRead io).1 := by
  obtain ⟨hNumber, hIO⟩ := hSafe
  obtain ⟨hLow, hHigh⟩ := segmentFor_bounds hNumber store.segmentMaxBytes
    (store.topicDir request) (store.nextFrame request).length sizeRead
  by_cases hDotted : Dotted request.topic.text
  · -- the directories inside that of the store stay as they are
    have hName := dotted_encodeTopic.mpr hDotted
    have hFailed : (store.append request sizeRead io).2 = none ∧
        (store.append request sizeRead io).1.disk.topics = store.disk.topics := by
      cases io with
      | noDirectory => exact ⟨rfl, rfl⟩
      | notOpened => exact ⟨rfl, store.disk.topics_setDir_dotted hName _⟩
      | failed stored => exact ⟨rfl, store.disk.topics_setDir_dotted hName _⟩
      | done => exact absurd hDotted hIO.1
    apply hIntact.congr
    · intro other _
      exact store.partition_append_failed request sizeRead hFailed.1 other
    · exact hFailed.2
  · have hName : ¬ Dotted (encodeTopic request.topic.text) := mt dotted_encodeTopic.mp hDotted
    have hStored : Stored (store.topicDir request) (store.partition request.topic.text) := by
      rw [topicDir, store.disk.dir_of_not_dotted hName]
      exact hIntact.stored request.topic hDotted
    cases io with
    | noDirectory =>
      apply hIntact.congr
      · intro other _
        exact store.partition_append_failed request sizeRead rfl other
      · rfl
    | notOpened =>
      apply hIntact.written hStored
      · exact store.partition_append_failed request sizeRead rfl
      · exact store.disk.topics_setDir hName _
    | failed stored =>
      obtain rfl : stored = 0 := hIO
      apply hIntact.written (hStored.touch (by omega) hHigh)
      · exact store.partition_append_failed request sizeRead rfl
      · exact store.disk.topics_setDir hName _
    | done =>
      have hPartition := store.partition_append_done request sizeRead
      have hPushed := hStored.push (by omega) hHigh rfl hIO.2
      apply hIntact.update request.topic
      · rw [hPartition, if_pos rfl]
        exact hPushed
      · intro other hOther
        rw [hPartition, if_neg hOther]
      · exact store.disk.topics_setDir hName _

end Intact

def acknowledged (t : Transition DurableStreamStore StreamEvent (Option UInt64)) :
    Option StreamRecord :=
  match t.input with
  | .append request _ _ => t.output.map request.record
  | .restart => none

theorem mem_of_acknowledged {t : Transition DurableStreamStore StreamEvent (Option UInt64)}
    (hStep : t.IsStep step) (hSafe : Safe t.before t.input)
    {record : StreamRecord} (hAck : acknowledged t = some record) :
    ¬ Dotted record.topic.text ∧ record ∈ (t.after.partition record.topic.text).records := by
  obtain ⟨before, input, output, after⟩ := t
  cases input with
  | restart => cases hAck
  | append request sizeRead io =>
    obtain ⟨offset, hOffset, rfl⟩ := map_eq_some_iff.mp hAck
    have hAppend : before.append request sizeRead io = (after, output) := Option.some.inj hStep
    dsimp only at hOffset
    rw [hOffset] at hAppend
    cases io with
    | noDirectory => cases congrArg Prod.snd hAppend
    | notOpened => cases congrArg Prod.snd hAppend
    | failed stored => cases congrArg Prod.snd hAppend
    | done =>
      have hSame : before.nextRecord request = request.record offset :=
        congrArg request.record (Option.some.inj (congrArg Prod.snd hAppend))
      have hPartition := before.partition_append_done request sizeRead request.topic.text
      rw [hAppend, if_pos rfl, hSame] at hPartition
      refine ⟨hSafe.2.1, ?_⟩
      change _ ∈ (after.partition request.topic.text).records
      rw [hPartition]
      exact List.mem_append_right _ List.mem_cons_self

theorem step_intact {next : DurableStreamStore} {event : StreamEvent} {output : Option UInt64}
    (hStep : step store event = some (next, output)) (hSafe : Safe store event)
    (hIntact : Intact store) : Intact next ∧ ∀ topic : Topic, ¬ Dotted topic.text →
      (store.partition topic.text).records ⊆ (next.partition topic.text).records := by
  cases event with
  | append request sizeRead io =>
    have hAppend : store.append request sizeRead io = (next, output) := Option.some.inj hStep
    have hNext : (store.append request sizeRead io).1 = next := congrArg Prod.fst hAppend
    rw [← hNext]
    exact ⟨hIntact.append hSafe, fun topic _ => store.records_append request sizeRead io _⟩
  | restart =>
    have hNext : store.reopen (fun _ _ => false) = next :=
      congrArg Prod.fst (Option.some.inj hStep)
    rw [← hNext]
    refine ⟨hIntact.reopen, fun topic hTopic => ?_⟩
    rw [hIntact.records_reopen hTopic]
    exact List.Subset.refl _

/-- In every run of appends and restarts that starts on an empty directory, in which no byte of
a failed write is stored and the acknowledged records are within the limits of the decoder, every
acknowledged offset has its record after the store is opened again. -/
theorem acknowledged_present {segmentMaxBytes : Nat}
    {run : List (Transition DurableStreamStore StreamEvent (Option UInt64))}
    {last : DurableStreamStore} (hRun : Run step (.new segmentMaxBytes) run last)
    (hSafe : ∀ t ∈ run, Safe t.before t.input) :
    ∀ t ∈ run, ∀ record, acknowledged t = some record →
      record ∈ ((last.reopen fun _ _ => false).partition record.topic.text).records := by
  have hHistory : Intact last ∧ ∀ t ∈ run, ∀ record, acknowledged t = some record →
      ¬ Dotted record.topic.text ∧ record ∈ (last.partition record.topic.text).records := by
    apply hRun.history (P := fun front store => Intact store ∧ ∀ t ∈ front, ∀ record,
      acknowledged t = some record →
        ¬ Dotted record.topic.text ∧ record ∈ (store.partition record.topic.text).records)
    · exact ⟨intact_new segmentMaxBytes, fun _ hMem => absurd hMem List.not_mem_nil⟩
    · grind [step_intact, mem_of_acknowledged]
  intro t hMem record hAck
  obtain ⟨hTopic, hRecord⟩ := hHistory.2 t hMem record hAck
  rw [hHistory.1.records_reopen hTopic]
  exact hRecord

def sample (payload : Payload) : AppendRequest where
  topic := ⟨"feed".toList, rfl⟩
  qos := .atMostOnce
  payload := payload
  headers := .empty
  timestampMs := 7

def appendsThenOpens (events : List StreamEvent) : Option (List StreamRecord × List StreamRecord) :=
  (exec step (.new 1024) events).map fun result =>
    (result.1.filterMap acknowledged,
      ((result.2.reopen fun _ _ => false).partition "feed".toList).records)

/-- A failed write that stored one byte hides the record behind it, and one that stored its whole
frame takes the offset of the record behind it. -/
theorem acknowledged_lost :
    appendsThenOpens [.append (sample [1]) true (.failed 1), .append (sample [2]) true .done] =
        some ([(sample [2]).record 0], []) ∧
      appendsThenOpens [.append (sample [1]) true (.failed 64), .append (sample [2]) true .done] =
        some ([(sample [2]).record 0], [(sample [1]).record 0]) := by
  decide +kernel

def failedOnce : DurableStreamStore :=
  ((new 1024).append (sample [1]) true (.failed 0)).1

def sampleStored : DurableStreamStore := (failedOnce.append (sample [2]) true .done).1

/-- The record of the next append is found again. -/
theorem sample_present :
    ∃ run, Run step (.new 1024) run sampleStored ∧
      run.map (·.output) = [none, some 0] ∧ (∀ t ∈ run, Safe t.before t.input) ∧
      (sample [2]).record 0 ∈
        ((sampleStored.reopen fun _ _ => false).partition "feed".toList).records := by
  have hFirst : step (.new 1024) (.append (sample [1]) true (.failed 0)) =
      some (failedOnce, none) := rfl
  have hSecond : step failedOnce (.append (sample [2]) true .done) =
      some (sampleStored, some 0) := rfl
  have hRun := Run.cons hFirst (Run.cons hSecond (Run.nil _))
  have hSafe : Safe (.new 1024) (.append (sample [1]) true (.failed 0)) := ⟨by decide +kernel, rfl⟩
  have hSafe' : Safe failedOnce (.append (sample [2]) true .done) :=
    ⟨by decide +kernel, by decide +kernel, by decide +kernel⟩
  refine ⟨_, hRun, rfl, ?_, acknowledged_present hRun ?_ _
    (List.mem_cons_of_mem _ List.mem_cons_self) _ rfl⟩ <;>
  · rw [List.forall_mem_cons, List.forall_mem_singleton]
    exact ⟨hSafe, hSafe'⟩

end IndraMqtt.Storage.Streams

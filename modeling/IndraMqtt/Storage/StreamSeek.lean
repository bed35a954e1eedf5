import IndraMqtt.Storage.StreamPurge
import Mathlib.Data.List.GetD

/-! Seeking and purging by time. Both search the time index of a topic, which is filled in the
order of the appends. The search is only specified on a sorted index, and among equal times it
may return the place of any. -/
namespace IndraMqtt.Storage.Streams

open Protocol

/-! ### The search -/

/-- What `binary_search_by_key` promises of a sorted slice, `Ok` and `Err` taken together: the
place of some entry with the key, or the place where the key keeps the order. -/
def Searches (search : List UInt64 → UInt64 → Nat) : Prop :=
  ∀ keys key, keys.Pairwise (· ≤ ·) →
    if key ∈ keys then keys[search keys key]? = some key
    else search keys key ≤ keys.length ∧
      ∀ i (hPlace : i < keys.length), keys[i] < key ↔ i < search keys key

/-- The loop of `binary_search_by`, which halves the part that is left. -/
def narrow (keys : List UInt64) (key : UInt64) : Nat → Nat → Nat → Nat
  | 0, base, _ => base
  | rounds + 1, base, size =>
    if size ≤ 1 then base
    else
      let half := size / 2
      let mid := base + half
      narrow keys key rounds (if key < keys.getD mid 0 then base else mid) (size - half)

/-- `binary_search_by` of the standard library, `Ok` and `Err` taken together. -/
def binarySearch (keys : List UInt64) (key : UInt64) : Nat :=
  let base := narrow keys key keys.length 0 keys.length
  if keys = [] then 0 else if keys.getD base 0 < key then base + 1 else base

theorem getElem_le_of_sorted {keys : List UInt64} (hSorted : keys.Pairwise (· ≤ ·)) {i j : Nat}
    (hLe : i ≤ j) (hPlace : j < keys.length) : keys[i] ≤ keys[j] := by
  obtain rfl | hLt := Nat.eq_or_lt_of_le hLe
  · exact UInt64.le_refl _
  · exact List.pairwise_iff_getElem.mp hSorted i j _ hPlace hLt

theorem narrow_spec {keys : List UInt64} (key : UInt64) {rounds base size : Nat}
    (hSome : 0 < size) (hRounds : size ≤ rounds + 1) (hInside : base + size ≤ keys.length)
    (hSorted : keys.Pairwise (· ≤ ·)) (hBase : base = 0 ∨ keys.getD base 0 ≤ key)
    (hAbove : ∀ i, base + size ≤ i → i < keys.length → key < keys.getD i 0) :
    narrow keys key rounds base size < keys.length ∧
      (narrow keys key rounds base size = 0 ∨
        keys.getD (narrow keys key rounds base size) 0 ≤ key) ∧
      ∀ i, narrow keys key rounds base size < i → i < keys.length → key < keys.getD i 0 := by
  induction rounds generalizing base size with
  | zero =>
    obtain rfl : size = 1 := by omega
    exact ⟨hInside, hBase, hAbove⟩
  | succ rounds ih =>
    rw [narrow]
    by_cases hSmall : size ≤ 1
    · rw [if_pos hSmall]
      exact ⟨by omega, hBase, fun i hBehind => hAbove i (by omega)⟩
    rw [if_neg hSmall]
    dsimp only
    by_cases hGreater : key < keys.getD (base + size / 2) 0
    · rw [if_pos hGreater]
      refine ih (by omega) (by omega) (by omega) hBase ?_
      intro i hBehind hPlace
      have hMid : base + size / 2 < keys.length := by omega
      -- the part that is left may end one place behind the middle
      have hLe : keys.getD (base + size / 2) 0 ≤ keys.getD i 0 := by
        rw [List.getD_eq_getElem _ _ hMid, List.getD_eq_getElem _ _ hPlace]
        exact getElem_le_of_sorted hSorted (by omega) hPlace
      exact UInt64.lt_of_lt_of_le hGreater hLe
    · rw [if_neg hGreater]
      refine ih (by omega) (by omega) (by omega) (Or.inr (UInt64.not_lt.mp hGreater)) ?_
      exact fun i hBehind => hAbove i (by omega)

theorem binarySearch_searches : Searches binarySearch := by
  intro keys key hSorted
  by_cases hNil : keys = []
  · simp [hNil, binarySearch]
  have hPos := List.length_pos_iff.mpr hNil
  obtain ⟨hInside, hBelow, hAbove⟩ := narrow_spec key hPos (Nat.le_succ _)
    (Nat.le_of_eq (Nat.zero_add _)) hSorted (Or.inl rfl) (fun i hEnd hPlace => by omega)
  rw [binarySearch, if_neg hNil]
  generalize narrow keys key keys.length 0 keys.length = base at hInside hBelow hAbove
  rw [List.getD_eq_getElem _ _ hInside] at hBelow ⊢
  have hBehind : ∀ i (hPlace : i < keys.length), base < i → key < keys[i] := by
    intro i hPlace hLt
    have hKey := hAbove i hLt hPlace
    rwa [List.getD_eq_getElem _ _ hPlace] at hKey
  by_cases hMem : key ∈ keys
  · rw [if_pos hMem]
    obtain ⟨i, hPlace, rfl⟩ := List.getElem_of_mem hMem
    have hLe : i ≤ base := le_of_not_gt fun hLt => UInt64.lt_irrefl _ (hBehind i hPlace hLt)
    have hKey := getElem_le_of_sorted hSorted hLe hInside
    rw [if_neg (UInt64.not_lt.mpr hKey), List.getElem?_eq_getElem hInside]
    obtain rfl | hBelow := hBelow
    · obtain rfl : i = 0 := by omega
      rfl
    · rw [UInt64.le_antisymm hBelow hKey]
  · rw [if_neg hMem]
    refine ⟨by split <;> omega, fun i hPlace => ?_⟩
    by_cases hLe : i ≤ base
    · have hUpTo := getElem_le_of_sorted hSorted hLe hInside
      grind
    · have hGreater := hBehind i hPlace (by omega)
      grind

variable {search : List UInt64 → UInt64 → Nat} {store : DurableStreamStore} {topic : Str}
  {timestampMs : UInt64} {records : List StreamRecord}

/-- The times of the records are in order, and the given one stands at most once among them. -/
def OrderedAt (timestampMs : UInt64) (records : List StreamRecord) : Prop :=
  records.Pairwise fun earlier later => earlier.timestampMs ≤ later.timestampMs ∧
    (earlier.timestampMs = timestampMs → later.timestampMs ≠ timestampMs)

/-- The place that is found divides such records at the time. -/
theorem Searches.divides (hSearch : Searches search) (hOrdered : OrderedAt timestampMs records) :
    ∃ before behind, records = before ++ behind ∧
      search (records.map (·.timestampMs)) timestampMs = before.length ∧
      (∀ record ∈ before, record.timestampMs < timestampMs) ∧
      ∀ record ∈ behind, timestampMs ≤ record.timestampMs := by
  have hSorted : (records.map (·.timestampMs)).Pairwise (· ≤ ·) :=
    List.pairwise_map.mpr (hOrdered.imp And.left)
  have hFound := hSearch _ timestampMs hSorted
  generalize search (records.map (·.timestampMs)) timestampMs = place at hFound ⊢
  refine ⟨records.take place, records.drop place, (List.take_append_drop place records).symm, ?_⟩
  by_cases hMem : timestampMs ∈ records.map (·.timestampMs)
  · rw [if_pos hMem, List.getElem?_map, Option.map_eq_some_iff] at hFound
    obtain ⟨record, hRecord, rfl⟩ := hFound
    obtain ⟨hPlace, hGet⟩ := List.getElem?_eq_some_iff.mp hRecord
    have hDrop : records.drop place = record :: records.drop (place + 1) := by
      rw [← hGet, List.getElem_cons_drop]
    rw [OrderedAt, ← List.take_append_drop place records, List.pairwise_append, hDrop,
      List.pairwise_cons] at hOrdered
    obtain ⟨-, ⟨hBehind, -⟩, hBefore⟩ := hOrdered
    refine ⟨(List.length_take_of_le hPlace.le).symm, fun earlier hEarlier => ?_, ?_⟩
    · obtain ⟨hLe, hOnce⟩ := hBefore earlier hEarlier record List.mem_cons_self
      exact UInt64.lt_of_le_of_ne hLe fun hSame => hOnce hSame rfl
    · rw [hDrop, List.forall_mem_cons]
      exact ⟨UInt64.le_refl _, fun later hLater => (hBehind later hLater).1⟩
  · rw [if_neg hMem] at hFound
    simp only [List.length_map, List.getElem_map] at hFound
    obtain ⟨hInside, hFound⟩ := hFound
    refine ⟨(List.length_take_of_le hInside).symm, fun record hRecord => ?_, fun record hRecord => ?_⟩
    · obtain ⟨i, hPlace, rfl⟩ := List.mem_take_iff_getElem.mp hRecord
      exact (hFound i (by omega)).mpr (by omega)
    · obtain ⟨i, hPlace, rfl⟩ := List.mem_drop_iff_getElem.mp hRecord
      exact UInt64.not_lt.mp (mt (hFound (place + i) (by omega)).mp (by omega))

/-! ### Stores -/

/-- The stores that appends, purges and openings lead to, however their file operations end. -/
inductive Reached (search : List UInt64 → UInt64 → Nat) : DurableStreamStore → Prop
  | new (segmentMaxBytes : Nat) : Reached search (.new segmentMaxBytes)
  | append {store : DurableStreamStore} (request : AppendRequest) (sizeRead : Bool)
    (io : AppendIO) : Reached search store →
      Reached search (store.append request sizeRead io).1
  | purge {store : DurableStreamStore} (topic : Str) (cutoffMs : UInt64) (stop : PurgeStop) :
    Reached search store → Reached search (store.purgeRetention search topic cutoffMs stop).1
  | reopen {store : DurableStreamStore} (unreadable : Str → Nat → Bool) :
    Reached search store → Reached search (store.reopen unreadable)

/-- The time index holds the times of the records, in their order. -/
def Indexed (partition : TopicPartition) : Prop :=
  partition.timeIndex = timeIndexOf partition.records

theorem TopicDir.indexed_recover (dir : TopicDir) (unreadable : Nat → Bool)
    {partition : TopicPartition} (hFound : (dir.recover unreadable).2 = some partition) :
    Indexed partition := by
  simp only [TopicDir.recover] at hFound
  by_cases hNone : dir.segments = []
  · rw [if_pos hNone, Option.ite_none_right_eq_some] at hFound
    cases hFound.2
    rfl
  · rw [if_neg hNone] at hFound
    cases hFound
    rfl

theorem DurableStreamStore.partition_purge (stop : PurgeStop) (other : Str) :
    (store.purgeRetention search topic timestampMs stop).1.partition other =
        store.partition other ∨
      other = topic ∧
        ((store.purgeRetention search topic timestampMs stop).1.partition other).records =
          store.kept search topic timestampMs ∧
        ((store.purgeRetention search topic timestampMs stop).1.partition other).timeIndex =
          (store.partition topic).timeIndex.drop
            ((store.partition topic).purgeSplit search timestampMs) := by
  simp only [purgeRetention]
  by_cases hSplit : (store.partition topic).purgeSplit search timestampMs = 0
  · rw [if_pos hSplit]
    exact Or.inl rfl
  · rw [if_neg hSplit]
    cases stop with
    | finished =>
      by_cases hOther : other = topic
      · subst hOther
        exact Or.inr ⟨rfl, by simp [partition], by simp [partition]⟩
      · exact Or.inl (by simp [partition, hOther])
    | removing removed => exact Or.inl rfl
    | writing whole part => exact Or.inl rfl
    | closing part => exact Or.inl rfl

theorem Reached.indexed (hReached : Reached search store) (topic : Str) :
    Indexed (store.partition topic) := by
  induction hReached generalizing topic with
  | new segmentMaxBytes => rfl
  | @append store request sizeRead io _ ih =>
    cases hDone : (store.append request sizeRead io).2 with
    | none =>
      rw [DurableStreamStore.partition_append_failed _ _ _ hDone]
      exact ih topic
    | some offset =>
      cases io with
      | done =>
        rw [DurableStreamStore.partition_append_done]
        split
        · have hIndex := ih request.topic.text
          simp only [Indexed, timeIndexOf, TopicPartition.push, List.map_append] at hIndex ⊢
          rw [hIndex]
          rfl
        · exact ih topic
      | noDirectory => cases hDone
      | notOpened => cases hDone
      | failed stored => cases hDone
  | @purge store purged cutoffMs stop _ ih =>
    obtain hSame | ⟨rfl, hRecords, hIndex⟩ :=
      @DurableStreamStore.partition_purge search store purged cutoffMs stop topic
    · rw [hSame]
      exact ih topic
    · rw [Indexed, hRecords, hIndex, ih topic, DurableStreamStore.kept, timeIndexOf, timeIndexOf,
        List.map_drop]
  | @reopen store unreadable _ ih =>
    have hAll : ∀ partition, (store.reopen unreadable).partitions.get? topic = some partition →
        Indexed partition := by
      intro partition hFound
      obtain ⟨entry, -, hRead⟩ | hNone := Dict.of_get?_collect hFound
      · obtain ⟨name, -, hRead⟩ := Option.bind_eq_some_iff.mp hRead
        obtain ⟨found, hRecover, hFound⟩ := Option.map_eq_some_iff.mp hRead
        cases hFound
        exact TopicDir.indexed_recover _ _ hRecover
      · cases hNone
    unfold DurableStreamStore.partition
    cases hFound : (store.reopen unreadable).partitions.get? topic with
    | none => rfl
    | some partition => exact hAll partition hFound

theorem Reached.keys (hReached : Reached search store) (topic : Str) :
    (store.partition topic).timeIndex.map (·.1) =
      (store.partition topic).records.map (·.timestampMs) := by
  rw [hReached.indexed topic, timeIndexOf, List.map_map]
  rfl

/-! ### Seeking -/

def TopicPartition.seekTimestamp (search : List UInt64 → UInt64 → Nat)
    (partition : TopicPartition) (timestampMs : UInt64) (limit : Nat) : List StreamRecord :=
  if partition.timeIndex = [] then []
  else
    let start := search (partition.timeIndex.map (·.1)) timestampMs
    if partition.records.length ≤ start then [] else (partition.records.drop start).take limit

def DurableStreamStore.seekTimestamp (search : List UInt64 → UInt64 → Nat)
    (store : DurableStreamStore) (topic : Str) (timestampMs : UInt64) (limit : Nat) :
    List StreamRecord :=
  match store.partitions.get? topic with
  | some partition => partition.seekTimestamp search timestampMs limit
  | none => []

theorem Reached.seekTimestamp (hReached : Reached search store) (limit : Nat) :
    store.seekTimestamp search topic timestampMs limit =
      ((store.partition topic).records.drop
        (search ((store.partition topic).records.map (·.timestampMs)) timestampMs)).take limit := by
  have hKeys := hReached.keys topic
  have hIndex := hReached.indexed topic
  unfold DurableStreamStore.seekTimestamp
  unfold DurableStreamStore.partition at hKeys hIndex ⊢
  cases hFound : store.partitions.get? topic with
  | none => simp [TopicPartition.default]
  | some partition =>
    rw [hFound, Option.getD_some] at hKeys hIndex
    rw [Option.getD_some, ← hKeys]
    dsimp only
    rw [TopicPartition.seekTimestamp]
    by_cases hNil : partition.timeIndex = []
    · have hNone : partition.records = [] := by
        rw [hIndex] at hNil
        exact List.map_eq_nil_iff.mp hNil
      rw [if_pos hNil, hNone, List.drop_nil, List.take_nil]
    · rw [if_neg hNil]
      by_cases hBehind : partition.records.length ≤
          search (partition.timeIndex.map (·.1)) timestampMs
      · rw [if_pos hBehind, List.drop_eq_nil_of_le hBehind, List.take_nil]
      · rw [if_neg hBehind]

theorem reached_twoStored (timestampMs : UInt64) : Reached binarySearch (twoStored timestampMs) :=
  .append (sampleAt timestampMs) true .done (.append (sampleAt 5) true .done (.new 1024))

end IndraMqtt.Storage.Streams

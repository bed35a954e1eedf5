import IndraMqtt.Delayed.Reload

/-! The ids of the delayed publications. A rewrite of the file leaves the entries of the other ids
exactly when the file could be read or is not written. A new id is above all ids in the file, as
long as each restart could read the file and either wrote it back or kept all of its entries. -/
namespace IndraMqtt.Delayed

open Protocol Bytes Runs DelayedScheduler

variable {now : UInt64}

/-! ### Removing -/

/-- The read in front of a rewrite succeeds, or nothing is lost by it. -/
def KeepsOthers (file : File) (ids : List UInt64) (readable written : Bool) : Prop :=
  ids = [] ∨ written = false ∨ (∃ text, readToString readable file = .ok text) ∨
    ∀ entry ∈ entriesOf file, entry.id ∈ ids

/-- A rewrite leaves the entries of the other ids exactly under that condition. -/
theorem removeIds_keeps_iff (scheduler : DelayedScheduler) (ids : List UInt64)
    (readable written : Bool) : (∀ entry ∈ entriesOf scheduler.file, entry.id ∉ ids →
        entry ∈ entriesOf (scheduler.removeIds ids readable written).file) ↔
      KeepsOthers scheduler.file ids readable written := by
  by_cases hIds : ids = []
  · rw [hIds]
    exact ⟨fun _ => Or.inl rfl, fun _ entry hMem _ => hMem⟩
  cases written with
  | false =>
    rw [removeIds_unwritten]
    exact ⟨fun _ => Or.inr (Or.inl rfl), fun _ entry hMem _ => hMem⟩
  | true =>
    by_cases hRead : ∃ text, readToString readable scheduler.file = .ok text
    · obtain ⟨text, hText⟩ := hRead
      constructor
      · intro _
        exact Or.inr (Or.inr (Or.inl ⟨text, hText⟩))
      · intro _ entry hMem hId
        exact (mem_removeIds_read hIds hText).mpr ⟨hMem, hId⟩
    · rw [entriesOf_removeIds_unread hIds (not_exists.mp hRead)]
      constructor
      · intro hKept
        refine Or.inr (Or.inr (Or.inr fun entry hMem => ?_))
        by_contra hId
        exact absurd (hKept entry hMem hId) List.not_mem_nil
      · intro hKeeps entry hMem hId
        rcases hKeeps with hNil | hUnwritten | hText | hAll
        · exact absurd hNil hIds
        · cases hUnwritten
        · exact absurd hText hRead
        · exact absurd (hAll entry hMem) hId

/-! ### New ids -/

/-- The next id is above the ids in the file. -/
def Below (scheduler : DelayedScheduler) : Prop :=
  ∀ entry ∈ entriesOf scheduler.file, entry.id < scheduler.nextId

/-- A restart reads the file, and it writes back what it keeps or keeps all entries. No id that
it keeps is the last one. -/
def SafeRestart (file : File) (now : UInt64) (readable written : Bool) : Prop :=
  entriesOf file = [] ∨
    ((∃ text, readToString readable file = .ok text) ∧
      (∀ entry ∈ entriesOf file, now < entry.deliverAtMs → entry.id.toNat + 1 < 2 ^ 64) ∧
      (written = true ∨ ((entriesOf file).length ≤ maxDelayedPending ∧
        ∀ entry ∈ entriesOf file, now < entry.deliverAtMs)))

def WholeAppend (file : File) (line : Str) (io : AppendIO) : Prop :=
  io.stored line = [] ∨ (Lines.AtStart 10 (file.getD []) ∧ io.stored line = lineBytes line)

def SafeIds (scheduler : DelayedScheduler) : DelayedEvent → Prop
  | .publish request clock io _ =>
    scheduler.nextId.toNat + 1 < 2 ^ 64 ∧
      (scheduler.refusal (request.entry scheduler.nextId clock) request.delaySecs = none →
        WholeAppend scheduler.file (encodeEntry (request.entry scheduler.nextId clock)) io)
  | .tickDue _ => True
  | .removeIds _ _ _ => True
  | .restart _ now readable written => SafeRestart scheduler.file now readable written

theorem lt_succ {n : UInt64} (hLast : n.toNat + 1 < 2 ^ 64) : n < n + 1 := by
  have hNext : (n + 1).toNat = n.toNat + 1 := by
    rw [UInt64.toNat_add]
    exact Nat.mod_eq_of_lt hLast
  rw [UInt64.lt_iff_toNat_lt, hNext]
  exact Nat.lt_succ_self _

theorem le_max (first second : UInt64) : first ≤ max first second ∧ second ≤ max first second := by
  change first ≤ (if first ≤ second then second else first) ∧
    second ≤ if first ≤ second then second else first
  grind

/-- The counter ends above every id that is loaded. -/
theorem le_foldl_max (next : UInt64) (entries : List DelayedEntry) :
    next ≤ entries.foldl (fun next entry => max next (entry.id + 1)) next ∧
      ∀ entry ∈ entries,
        entry.id + 1 ≤ entries.foldl (fun next entry => max next (entry.id + 1)) next := by
  induction entries generalizing next with
  | nil => exact ⟨UInt64.le_refl next, fun entry hMem => absurd hMem List.not_mem_nil⟩
  | cons first entries ih => grind [le_max]

namespace DelayedScheduler

variable {scheduler : DelayedScheduler}

theorem nextId_removeIds (ids : List UInt64) (readable written : Bool) :
    (scheduler.removeIds ids readable written).nextId = scheduler.nextId := by
  rw [removeIds]
  split <;> rfl

end DelayedScheduler

variable {scheduler : DelayedScheduler}

variable {entry : DelayedEntry} {maxSecs : UInt64} {readable written : Bool}

theorem mem_publish {request : Request} {clock : UInt64} {io : AppendIO}
    (hSafe : SafeIds scheduler (.publish request clock io now))
    (hMem : entry ∈ entriesOf (scheduler.publish request clock io now).1.file) :
    entry ∈ entriesOf scheduler.file ∨ entry.id = scheduler.nextId := by
  cases hRefusal : scheduler.refusal (request.entry scheduler.nextId clock) request.delaySecs with
  | some error =>
    rw [file_publish_refused hRefusal] at hMem
    exact Or.inl hMem
  | none =>
    have hFile : (scheduler.publish request clock io now).1.file.getD [] = _ :=
      file_publish hRefusal
    rcases hSafe.2 hRefusal with hNothing | ⟨hStart, hWhole⟩
    · grind [entriesOf_congr]
    · have hStorable := request.storable scheduler.nextId clock
        (payload_of_admitted hRefusal)
      rw [hWhole] at hFile
      rw [entriesOf_append hStart hFile, entriesOf_lineBytes hStorable, List.mem_append,
        List.mem_singleton] at hMem
      exact hMem.imp_right fun hOwn => congrArg DelayedEntry.id hOwn

/-- A file that is read and written back, or whose entries are all kept, has no other entries
behind the restart. -/
theorem mem_restart {text : Str} (hRead : readToString readable scheduler.file = .ok text)
    (hWritten : written = true ∨ ((entriesOf scheduler.file).length ≤ maxDelayedPending ∧ ∀ entry ∈
      entriesOf scheduler.file, now < entry.deliverAtMs))
    (hMem : entry ∈ entriesOf (scheduler.restart maxSecs now readable written).1.file) :
    entry ∈ live now (entriesOf scheduler.file) := by
  rw [restart_read hRead] at hMem
  cases written with
  | true =>
    change entry ∈ entriesOf (some (asBytes _)) at hMem
    rw [entriesOf_kept] at hMem
    exact hMem
  | false =>
    rcases hWritten with hFalse | ⟨hLength, hLive⟩
    · cases hFalse
    · exact mem_live_of_le hLength hMem (hLive entry hMem)

/-- A safe restart ends with a counter above the ids in the file. -/
theorem below_restart (hSafe : SafeRestart scheduler.file now readable written) :
    Below (scheduler.restart maxSecs now readable written).1 := by
  intro entry hMem
  by_cases hRead : ∃ text, readToString readable scheduler.file = .ok text
  · obtain ⟨text, hText⟩ := hRead
    have hKept : entry ∈ live now (entriesOf scheduler.file) := by
      rcases hSafe with hEmpty | ⟨-, -, hWritten⟩
      · grind [mem_restart]
      · exact mem_restart hText hWritten hMem
    obtain ⟨hOld, hLive⟩ := mem_live hKept
    have hLast : entry.id.toNat + 1 < 2 ^ 64 := by
      rcases hSafe with hEmpty | ⟨-, hIds, -⟩
      · rw [hEmpty] at hOld
        cases hOld
      · exact hIds entry hOld hLive
    rw [restart_read hText]
    exact UInt64.lt_of_lt_of_le (lt_succ hLast) ((le_foldl_max 1 _).2 entry hKept)
  · rw [restart_unread (not_exists.mp hRead)] at hMem
    rcases hSafe with hEmpty | ⟨hText, -⟩
    · exact absurd (hEmpty ▸ hMem) List.not_mem_nil
    · exact absurd hText hRead

theorem step_below {next : DelayedScheduler} {event : DelayedEvent} {answer : DelayedAnswer}
    (hStep : step scheduler event = some (next, answer)) (hSafe : SafeIds scheduler event)
    (hBelow : Below scheduler) : Below next := by
  cases event with
  | publish request clock io now =>
    have hNext : (scheduler.publish request clock io now).1 = next :=
      congrArg Prod.fst (Option.some.inj hStep)
    rw [← hNext]
    intro entry hMem
    rw [show (scheduler.publish request clock io now).1.nextId = scheduler.nextId + 1 by
      grind [publish_eq]]
    have hLast := lt_succ hSafe.1
    rcases mem_publish hSafe hMem with hOld | hOwn
    · exact UInt64.lt_trans (hBelow entry hOld) hLast
    · rw [hOwn]
      exact hLast
  | tickDue now =>
    have hNext : { scheduler with wheel := (scheduler.wheel.tick now).2 } = next :=
      congrArg Prod.fst (Option.some.inj hStep)
    rw [← hNext]
    exact hBelow
  | removeIds ids readable written =>
    have hNext : scheduler.removeIds ids readable written = next :=
      congrArg Prod.fst (Option.some.inj hStep)
    rw [← hNext]
    intro entry hMem
    rw [nextId_removeIds]
    exact hBelow entry (mem_of_mem_removeIds hMem)
  | restart maxSecs now readable written =>
    have hNext : (scheduler.restart maxSecs now readable written).1 = next :=
      congrArg Prod.fst (Option.some.inj hStep)
    rw [← hNext]
    exact below_restart hSafe

/-- Along a run of safe events the next id is above the ids in the file. -/
theorem run_below {last : DelayedScheduler}
    {run : List (Transition DelayedScheduler DelayedEvent DelayedAnswer)}
    (hRun : Run step scheduler run last) (hSafe : ∀ t ∈ run, SafeIds t.before t.input)
    (hBelow : Below scheduler) : ∀ t ∈ run, Below t.before := by
  induction hRun with
  | nil scheduler =>
    intro t hMem
    cases hMem
  | cons hStep _ ih =>
    rw [List.forall_mem_cons] at hSafe ⊢
    exact ⟨hBelow, ih hSafe.2 (step_below hStep hSafe.1 hBelow)⟩

def held : DelayedEntry := (soon later [3]).entry 1 0

def stoppedWithOne : DelayedScheduler := .new 60 (some (lineBytes (encodeEntry held)))

def stoppedInvalid : DelayedScheduler := .new 60 (some (lineBytes (encodeEntry held) ++ [255]))

theorem held_storable : Storable held := (soon later [3]).storable 1 0 (by decide)

theorem entriesOf_stoppedWithOne : entriesOf stoppedWithOne.file = [held] :=
  entriesOf_lineBytes held_storable

theorem entriesOf_stoppedInvalid : entriesOf stoppedInvalid.file = [held] := by
  have hStart : Lines.AtStart 10 (stoppedWithOne.file.getD []) := atStart_lineBytes _
  have hNext : stoppedInvalid.file.getD [] = stoppedWithOne.file.getD [] ++ [255] := rfl
  have hByte : entriesOf (some [255]) = [] := by decide +kernel
  rw [entriesOf_append hStart hNext, entriesOf_stoppedWithOne, hByte, List.append_nil]

theorem read_stoppedWithOne :
    readToString true stoppedWithOne.file = .ok (encodeEntry held ++ ['\n']) :=
  readToString_eq_ok.mpr ⟨rfl, rfl⟩

def startedWithOne : DelayedScheduler := (stoppedWithOne.restart 60 500 true true).1

theorem startedWithOne_eq : entriesOf startedWithOne.file = [held] ∧ startedWithOne.nextId = 2 := by
  have hLive : live 500 [held] = [held] := by decide +kernel
  have hKept := entriesOf_kept 500 stoppedWithOne.file
  rw [entriesOf_stoppedWithOne, hLive] at hKept
  rw [startedWithOne, restart_read read_stoppedWithOne, entriesOf_stoppedWithOne,
    hLive]
  exact ⟨hKept, rfl⟩

end IndraMqtt.Delayed

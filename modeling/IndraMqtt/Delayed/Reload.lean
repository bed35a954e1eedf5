import IndraMqtt.Delayed.Rows

/-! Acknowledged publications over restarts. The file is read again as long as every append that
stores bytes starts on a line of its own and does not stop inside a character, and as long as
there is room for its line. A part of a line hides the publication that is acknowledged behind
it. -/
namespace IndraMqtt.Delayed

open Protocol Sessions Bytes Runs DelayedScheduler

variable {entry : DelayedEntry} {file : File}

/-- A file in UTF-8 that has no more lines than the wheel has places. -/
structure Readable (file : File) : Prop where
  utf8 : ∃ text, file.getD [] = asBytes text
  bounded : (rawLines (file.getD [])).length ≤ maxDelayedPending

/-- An append that stores bytes finds the file at the start of a line, with room for one more,
and stops between two characters. -/
def SafeAppend (file : File) (line : Str) (io : AppendIO) : Prop :=
  io.stored line = [] ∨
    (Lines.AtStart 10 (file.getD []) ∧ (rawLines (file.getD [])).length < maxDelayedPending ∧
      ∃ front, front <+: line ++ ['\n'] ∧ io.stored line = asBytes front)

def Safe (scheduler : DelayedScheduler) : DelayedEvent → Prop
  | .publish request clock io _ =>
    scheduler.refusal (request.entry scheduler.nextId clock) request.delaySecs = none →
      SafeAppend scheduler.file (encodeEntry (request.entry scheduler.nextId clock)) io
  | .tickDue _ => True
  | .removeIds ids readable written => ids = [] ∨ readable = true ∨ written = false
  | .restart _ _ _ _ => True

/-- The events that leave an entry pending: its id is not removed, and a restart comes before
its deadline. -/
def Spares (entry : DelayedEntry) : DelayedEvent → Prop
  | .publish _ _ _ _ => True
  | .tickDue _ => True
  | .removeIds ids _ _ => entry.id ∉ ids
  | .restart _ now _ _ => now < entry.deliverAtMs

def acknowledged (t : Transition DelayedScheduler DelayedEvent DelayedAnswer) :
    Option DelayedEntry :=
  match t.input, t.output with
  | .publish request clock _ _, .published (.ok _) => some (request.entry t.before.nextId clock)
  | _, _ => none

/-! ### Publications -/

namespace DelayedScheduler

variable {scheduler : DelayedScheduler} {request : Request} {clock now : UInt64} {io : AppendIO}

/-- A publication is refused by the checks or ends as its append does. -/
theorem publish_eq (scheduler : DelayedScheduler) (request : Request) (clock : UInt64)
    (io : AppendIO) (now : UInt64) :
    let entry := request.entry scheduler.nextId clock
    let next := { scheduler with nextId := scheduler.nextId + 1 }
    scheduler.publish request clock io now =
      match scheduler.refusal entry request.delaySecs with
      | some error => (next, .error error)
      | none =>
        match appendLine scheduler.file (encodeEntry entry) io with
        | (file, .error reason) => ({ next with file }, .error (.persistFailed reason))
        | (file, .ok _) => ({ next with file, wheel := next.wheel.place now entry }, .ok ()) :=
  rfl

theorem file_publish_refused {error : ScheduleError}
    (hRefused : scheduler.refusal (request.entry scheduler.nextId clock) request.delaySecs =
      some error) : (scheduler.publish request clock io now).1.file = scheduler.file := by
  rw [publish_eq, hRefused]

theorem file_publish
    (hAdmitted : scheduler.refusal (request.entry scheduler.nextId clock) request.delaySecs = none) :
    (scheduler.publish request clock io now).1.file.getD [] =
      scheduler.file.getD [] ++ io.stored (encodeEntry (request.entry scheduler.nextId clock)) := by
  rw [publish_eq, hAdmitted]
  cases io with
  | noDirectory error => exact (List.append_nil _).symm
  | notOpened error => exact (List.append_nil _).symm
  | notWritten stored error => rfl
  | notSynced error => rfl
  | done => rfl

/-- What is acknowledged was admitted and appended. -/
theorem publish_ok {result : Unit} (hOk : (scheduler.publish request clock io now).2 = .ok result) :
    scheduler.refusal (request.entry scheduler.nextId clock) request.delaySecs = none ∧
      io = .done := by
  rw [publish_eq] at hOk
  cases hRefusal : scheduler.refusal (request.entry scheduler.nextId clock) request.delaySecs with
  | some error =>
    rw [hRefusal] at hOk
    cases hOk
  | none =>
    rw [hRefusal] at hOk
    cases io with
    | done => exact ⟨rfl, rfl⟩
    | noDirectory error => cases hOk
    | notOpened error => cases hOk
    | notWritten stored error => cases hOk
    | notSynced error => cases hOk

theorem payload_of_admitted {delaySecs : UInt64}
    (hAdmitted : scheduler.refusal entry delaySecs = none) :
    entry.payload.length ≤ maxDelayedPayloadBytes := by
  grind [refusal]

end DelayedScheduler

theorem Request.storable (request : Request) (id now : UInt64)
    (hPayload : request.payload.length ≤ maxDelayedPayloadBytes) :
    Storable (request.entry id now) where
  topic := request.topic.text_ne_nil
  qos := by
    change request.qos.toU8 ≤ 2
    cases request.qos with
    | atMostOnce => decide
    | atLeastOnce => decide
    | exactlyOnce => decide
  payload := hPayload

/-! ### Files that stay readable -/

namespace Readable

theorem none : Readable none where
  utf8 := ⟨[], rfl⟩
  bounded := Nat.zero_le _

theorem congr {next : File} (hReadable : Readable file) (hSame : next.getD [] = file.getD []) :
    Readable next where
  utf8 := hSame ▸ hReadable.utf8
  bounded := hSame ▸ hReadable.bounded

theorem written {ls : List Str} (hLines : ∀ line ∈ ls, '\n' ∉ line)
    (hLength : ls.length ≤ maxDelayedPending) :
    Readable (some (asBytes (Lines.unlines '\n' ls))) where
  utf8 := ⟨_, rfl⟩
  bounded := by
    rw [Option.getD_some, rawLines_asBytes, lines_unlines hLines, List.length_map, List.length_map]
    exact hLength

theorem read (hReadable : Readable file) (hMem : entry ∈ entriesOf file) :
    ∃ text, readToString true file = .ok text := by
  cases file with
  | none => cases hMem
  | some bytes =>
    obtain ⟨text, hText⟩ := hReadable.utf8
    exact ⟨text, readToString_eq_ok.mpr ⟨rfl, congrArg some hText⟩⟩

theorem append {next : File} (hReadable : Readable file) {io : AppendIO}
    (hSafe : SafeAppend file (encodeEntry entry) io)
    (hNext : next.getD [] = file.getD [] ++ io.stored (encodeEntry entry)) :
    Readable next ∧ entriesOf file ⊆ entriesOf next := by
  rcases hSafe with hNothing | ⟨hStart, hRoom, front, hFront, hStored⟩
  · grind [entriesOf_congr, congr]
  · obtain ⟨text, hText⟩ := hReadable.utf8
    have hPart : (rawLines (asBytes front)).length ≤ 1 := by
      rw [rawLines_asBytes, List.length_map]
      exact Lines.length_lines_part (lf_not_mem_encodeEntry entry) hFront
    rw [hStored] at hNext
    refine ⟨⟨⟨text ++ front, ?_⟩, ?_⟩, ?_⟩
    · rw [hNext, hText, asBytes_append]
    · rw [hNext, rawLines_append hStart, List.length_append]
      omega
    · rw [entriesOf_append hStart hNext]
      exact List.subset_append_left _ _

theorem removeIds {scheduler : DelayedScheduler} (hReadable : Readable scheduler.file)
    {ids : List UInt64} {readable written : Bool}
    (hSafe : ids = [] ∨ readable = true ∨ written = false) :
    Readable (scheduler.removeIds ids readable written).file ∧
      ∀ entry ∈ entriesOf scheduler.file, entry.id ∉ ids →
        entry ∈ entriesOf (scheduler.removeIds ids readable written).file := by
  by_cases hIds : ids = []
  · rw [hIds]
    exact ⟨hReadable, fun entry hMem _ => hMem⟩
  · cases written with
    | false =>
      rw [removeIds_unwritten]
      exact ⟨hReadable, fun entry hMem _ => hMem⟩
    | true =>
      obtain rfl : readable = true := by simp_all
      constructor
      · rw [file_removeIds hIds]
        exact Readable.written lf_not_mem_kept
          ((length_kept_le true scheduler.file ids).trans hReadable.bounded)
      · intro entry hMem hId
        obtain ⟨text, hText⟩ := hReadable.read hMem
        exact (mem_removeIds_read hIds hText).mpr ⟨hMem, hId⟩

theorem restart {scheduler : DelayedScheduler} (hReadable : Readable scheduler.file)
    (maxSecs now : UInt64) (readable written : Bool) :
    Readable (scheduler.restart maxSecs now readable written).1.file ∧
      ∀ entry ∈ entriesOf scheduler.file, now < entry.deliverAtMs →
        entry ∈ entriesOf (scheduler.restart maxSecs now readable written).1.file := by
  by_cases hRead : ∃ text, readToString readable scheduler.file = .ok text
  · obtain ⟨text, hText⟩ := hRead
    rw [restart_read hText]
    cases written with
    | false => exact ⟨hReadable, fun entry hMem _ => hMem⟩
    | true =>
      refine ⟨Readable.written (lf_not_mem_encoded _) ?_, ?_⟩
      · rw [List.length_map]
        exact List.length_take_le ..
      · intro entry hMem hLive
        change entry ∈ entriesOf (some (asBytes _))
        rw [entriesOf_kept]
        exact mem_live_of_le
          ((length_entriesOf_le _).trans hReadable.bounded) hMem hLive
  · rw [restart_unread (not_exists.mp hRead)]
    exact ⟨hReadable, fun entry hMem _ => hMem⟩

end Readable

/-! ### Runs -/

theorem step_readable {scheduler next : DelayedScheduler} {event : DelayedEvent}
    {answer : DelayedAnswer} (hStep : step scheduler event = some (next, answer))
    (hSafe : Safe scheduler event) (hReadable : Readable scheduler.file) :
    Readable next.file ∧ ∀ entry ∈ entriesOf scheduler.file, Spares entry event →
      entry ∈ entriesOf next.file := by
  cases event with
  | publish request clock io now =>
    have hNext : (scheduler.publish request clock io now).1 = next :=
      congrArg Prod.fst (Option.some.inj hStep)
    rw [← hNext]
    cases hRefusal :
        scheduler.refusal (request.entry scheduler.nextId clock) request.delaySecs with
    | some error =>
      rw [file_publish_refused hRefusal]
      exact ⟨hReadable, fun entry hMem _ => hMem⟩
    | none =>
      obtain ⟨hAfter, hSubset⟩ :=
        hReadable.append (hSafe hRefusal) (file_publish hRefusal)
      exact ⟨hAfter, fun entry hMem _ => hSubset hMem⟩
  | tickDue now =>
    have hNext : { scheduler with wheel := (scheduler.wheel.tick now).2 } = next :=
      congrArg Prod.fst (Option.some.inj hStep)
    rw [← hNext]
    exact ⟨hReadable, fun entry hMem _ => hMem⟩
  | removeIds ids readable written =>
    have hNext : scheduler.removeIds ids readable written = next :=
      congrArg Prod.fst (Option.some.inj hStep)
    rw [← hNext]
    exact hReadable.removeIds hSafe
  | restart maxSecs now readable written =>
    have hNext : (scheduler.restart maxSecs now readable written).1 = next :=
      congrArg Prod.fst (Option.some.inj hStep)
    rw [← hNext]
    exact hReadable.restart maxSecs now readable written

theorem mem_of_acknowledged {t : Transition DelayedScheduler DelayedEvent DelayedAnswer}
    (hStep : t.IsStep step) (hSafe : Safe t.before t.input)
    (hAck : acknowledged t = some entry) : entry ∈ entriesOf t.after.file := by
  obtain ⟨before, input, output, after⟩ := t
  cases input with
  | tickDue now => cases hAck
  | removeIds ids readable written => cases hAck
  | restart maxSecs now readable written => cases hAck
  | publish request clock io now =>
    have hNext : (before.publish request clock io now).1 = after :=
      congrArg Prod.fst (Option.some.inj hStep)
    have hOutput : DelayedAnswer.published (before.publish request clock io now).2 = output :=
      congrArg Prod.snd (Option.some.inj hStep)
    cases hResult : (before.publish request clock io now).2 with
    | error reason =>
      rw [← hOutput, hResult] at hAck
      cases hAck
    | ok result =>
      rw [← hOutput, hResult] at hAck
      cases hAck
      obtain ⟨hAdmitted, rfl⟩ := publish_ok hResult
      have hStorable := request.storable before.nextId clock
        (payload_of_admitted hAdmitted)
      have hFile : (before.publish request clock .done now).1.file.getD [] =
          before.file.getD [] ++ lineBytes (encodeEntry (request.entry before.nextId clock)) :=
        file_publish hAdmitted
      have hStart : Lines.AtStart 10 (before.file.getD []) := by
        rcases hSafe hAdmitted with hNothing | hLine
        · exact absurd (asBytes_eq_nil.mp hNothing)
            (List.append_ne_nil_of_right_ne_nil _ (List.cons_ne_nil '\n' []))
        · exact hLine.1
      rw [← hNext, entriesOf_append hStart hFile, entriesOf_lineBytes hStorable]
      exact List.mem_append_right _ List.mem_cons_self

/-- Along a run of safe events the file stays readable, and an entry that every event spares stays
in it. -/
theorem run_readable {scheduler last : DelayedScheduler}
    {run : List (Transition DelayedScheduler DelayedEvent DelayedAnswer)}
    (hRun : Run step scheduler run last) (hSafe : ∀ t ∈ run, Safe t.before t.input)
    (hReadable : Readable scheduler.file) : Readable last.file ∧ ∀ entry ∈ entriesOf scheduler.file,
      (∀ t ∈ run, Spares entry t.input) → entry ∈ entriesOf last.file := by
  induction hRun with
  | nil scheduler => exact ⟨hReadable, fun entry hMem _ => hMem⟩
  | cons hStep _ ih =>
    rw [List.forall_mem_cons] at hSafe
    obtain ⟨hNext, hKept⟩ := step_readable hStep hSafe.1 hReadable
    simp_all

theorem Readable.scheduled {scheduler : DelayedScheduler} (hReadable : Readable scheduler.file)
    (hMem : entry ∈ entriesOf scheduler.file) (maxSecs : UInt64) {now : UInt64} (written : Bool)
    (hLive : now < entry.deliverAtMs) :
    entry ∈ (scheduler.restart maxSecs now true written).1.wheel.entries := by
  obtain ⟨text, hText⟩ := hReadable.read hMem
  rw [restart_read hText]
  apply WheelInner.mem_entries_foldl_place.mpr
  exact Or.inl (mem_live_of_le
    ((length_entriesOf_le _).trans hReadable.bounded) hMem hLive)

def soon (topic : Topic) (payload : Payload) : Request where
  topic := topic
  qos := .atLeastOnce
  retain := false
  payload := payload
  publisher := none
  publisherTenant := defaultTenantId
  delaySecs := 1

def later : Topic := ⟨"later".toList, rfl⟩

def accented : Topic := ⟨"né".toList, rfl⟩

/-- What some events acknowledge, and what a restart at time 500 finds. -/
def publishesThenRestarts (events : List DelayedEvent) :
    Option (List DelayedEntry × List DelayedEntry × DelayedScheduler.Loaded) :=
  (exec step (.new 60 none) events).map fun result =>
    let (next, counts) := result.2.restart 60 500 true true
    (result.1.filterMap acknowledged, next.wheel.entries, counts)

def refusedOnce : DelayedScheduler :=
  ((new 60 none).publish (soon later [1]) 0 (.notWritten 0 []) 0).1

def storedSecond : DelayedScheduler := (refusedOnce.publish (soon later [2]) 0 .done 0).1

end IndraMqtt.Delayed

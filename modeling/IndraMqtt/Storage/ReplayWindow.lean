import IndraMqtt.Lib.Runs
import IndraMqtt.Storage.QueueFile

/-! The offline queue of a session over whole runs. A replay takes the queue from memory and
leaves the file until it is confirmed, while further messages arrive. The file keeps what
was taken unless an arrival that finds the queue full rewrites it. -/
namespace IndraMqtt.Storage

open Sessions FrameLog Runs

variable {state : QueueState}

/-- The offline queue of one session with a store: the queue in memory, the bytes of the
file (none without a file), and what a replay has taken and not confirmed yet. -/
structure QueueState where
  queue : List QueuedMessage
  file : List UInt8
  taken : Option (List QueuedMessage)

/-- The operations on a queue, with what the file system does to each of them. They run one
after the other under the persist mutex. -/
inductive QueueEvent where
  | push (message : QueuedMessage) (limit : Option Nat) (now : Nat) (fault : Option Nat)
      (rewritten : Bool)
  | take
  | confirm (unrouted : List QueuedMessage) (rewritten : Bool)

/-- `rewrite_in_tenant`: the new content is renamed into place or the old one stays. No
records are no file. -/
def rewriteFile (file : List UInt8) (records : List OfflineRecord) (rewritten : Bool) :
    List UInt8 :=
  if rewritten then queueFormat.frames records else file

def stamped (message : QueuedMessage) (now : Nat) : QueuedMessage :=
  { message with publishAtMs := message.publishAtMs.or (some now) }

/-- `push_offline_with_limit` of a session with a store. -/
def pushFile (state : QueueState) (message : QueuedMessage) (limit : Option Nat) (now : Nat)
    (fault : Option Nat) (rewritten : Bool) : QueueState :=
  let message := stamped message now
  let (file, appended) := appendFile state.file message fault
  if appended then
    let kept := Session.evictOldest limit state.queue
    let queue := kept ++ [message]
    let file :=
      if kept.length < state.queue.length then rewriteFile file queue rewritten else file
    { state with queue, file }
  else { state with file }

/-- One operation. A replay takes the queue with `take_offline_retained` and ends with
`confirm_offline_consumed`, which puts back a part of what was taken. -/
def queueStep (state : QueueState) (event : QueueEvent) : Option (QueueState × Unit) :=
  match event, state.taken with
  | .push message limit now fault rewritten, _ =>
    some (pushFile state message limit now fault rewritten, ())
  | .take, none => some ({ state with queue := [], taken := some state.queue }, ())
  | .confirm unrouted rewritten, some taken =>
    if unrouted.isSublist taken then
      let queue := unrouted ++ state.queue
      some ({ queue, file := rewriteFile state.file queue rewritten, taken := none }, ())
    else none
  | _, _ => none

def WholeFile (file : List UInt8) : Prop :=
  ∃ records : List OfflineRecord, (∀ record ∈ records, Storable record) ∧
    file = queueFormat.frames records

/-- An arrival that does no harm to a replay: it is appended to a file of whole frames as a
record that can be read back, and while a replay is under way it finds room in the queue. -/
def HarmlessPush (state : QueueState) : QueueEvent → Prop
  | .push message limit now fault rewritten =>
    fault = none → WholeFile state.file ∧ Storable (stamped message now) ∧
      (state.taken.isSome → rewritten = true →
        ∀ limit', limit = some limit' → state.queue.length < max limit' 1)
  | _ => True

/-- The messages of the queue and those of a replay can be read from the file. -/
structure FileHolds (state : QueueState) : Prop where
  queued : ∀ message ∈ state.queue, Storable message ∧ message ∈ (scanFile state.file).1
  taken : ∀ taken, state.taken = some taken →
    ∀ message ∈ taken, Storable message ∧ message ∈ (scanFile state.file).1

theorem evictOldest_sublist (limit : Option Nat) (queue : List QueuedMessage) :
    (Session.evictOldest limit queue).Sublist queue := by
  cases limit with
  | none => exact List.Sublist.refl _
  | some limit => exact List.drop_sublist _ _

/-- A failed append leaves what the file holds. -/
theorem FileHolds.extend (hHolds : FileHolds state) {file : List UInt8}
    (hExtends : state.file <+: file) : FileHolds { state with file } := by
  obtain ⟨more, rfl⟩ := hExtends
  have hKept : ∀ message ∈ (scanFile state.file).1,
      message ∈ (scanFile (state.file ++ more)).1 := fun message hMem =>
    (queueFormat.scan_append state.file more).subset hMem
  constructor
  · intro message hMem
    obtain ⟨hStorable, hFound⟩ := hHolds.queued message hMem
    exact ⟨hStorable, hKept message hFound⟩
  · intro taken hTaken message hMem
    obtain ⟨hStorable, hFound⟩ := hHolds.taken taken hTaken message hMem
    exact ⟨hStorable, hKept message hFound⟩

theorem pushFile_appended (state : QueueState) (message : QueuedMessage) (limit : Option Nat)
    (now : Nat) (rewritten : Bool) :
    let kept := Session.evictOldest limit state.queue
    let queue := kept ++ [stamped message now]
    pushFile state message limit now none rewritten =
      { state with
        queue
        file :=
          if kept.length < state.queue.length ∧ rewritten = true then queueFormat.frames queue
          else state.file ++ recordFrame (stamped message now) } := by
  grind [pushFile, appendFile, rewriteFile]

theorem frames_snoc (records : List OfflineRecord) (record : OfflineRecord) :
    queueFormat.frames (records ++ [record]) = queueFormat.frames records ++ recordFrame record := by
  rw [Format.frames_append, frames_record]

theorem scanFile_append {records : List OfflineRecord}
    (hRecords : ∀ record ∈ records, Storable record) {record : OfflineRecord}
    (hStorable : Storable record) :
    (scanFile (queueFormat.frames records ++ recordFrame record)).1 = records ++ [record] := by
  grind [frames_snoc, scanFile_frames]

theorem FileHolds.push (hHolds : FileHolds state) {message : QueuedMessage} {limit : Option Nat}
    {now : Nat} {fault : Option Nat} {rewritten : Bool}
    (hHarmless : HarmlessPush state (.push message limit now fault rewritten)) :
    FileHolds (pushFile state message limit now fault rewritten) := by
  cases fault with
  | some stored => exact hHolds.extend (appendFile_extends state.file _ (some stored))
  | none =>
    obtain ⟨⟨records, hRecords, hFile⟩, hStorable, hRoom⟩ := hHarmless rfl
    let added := stamped message now
    let kept := Session.evictOldest limit state.queue
    have hScan : (scanFile state.file).1 = records := by
      rw [hFile, scanFile_frames hRecords]
    have hQueued : ∀ message ∈ kept ++ [added],
        Storable message ∧ message ∈ records ++ [added] := by
      intro message hMem
      obtain hOld | hNew := List.mem_append.mp hMem
      · obtain ⟨hOwn, hFound⟩ :=
          hHolds.queued message ((evictOldest_sublist limit state.queue).subset hOld)
        exact ⟨hOwn, List.mem_append_left _ (hScan ▸ hFound)⟩
      · grind
    rw [pushFile_appended]
    split
    · next hRewrite =>
      -- The queue was full, so no replay is under way.
      have hFree : state.taken = none := by
        cases limit <;> grind [Session.evictOldest, Option.isSome_iff_ne_none]
      constructor
      · grind [scanFile_frames]
      · intro taken hTaken
        cases hFree.symm.trans hTaken
    · have hAppended : (scanFile (state.file ++ recordFrame added)).1 = records ++ [added] := by
        rw [hFile]
        exact scanFile_append hRecords hStorable
      constructor
      · grind
      · intro taken hTaken message hMem
        obtain ⟨hOwn, hFound⟩ := hHolds.taken taken hTaken message hMem
        grind

/-- The stored part of a frame for an answer of the file system that the store knows. -/
def faultOf (answer : DiskAnswer) (length : Nat) : Option Nat :=
  match answer with
  | .done => none
  | .failed => some 0
  | .unsynced => some length

theorem appendInTenant_eq (store : OfflineQueueStore) {key : SessionKey}
    (hPath : OfflineQueueStore.hasPath key = true) (record : OfflineRecord) {answer : DiskAnswer}
    (hAnswer : store.disk.headD .done = answer) :
    (store.appendInTenant key record).2 = (answer == .done) ∧
      (store.appendInTenant key record).1.load key =
        store.load key ++ (if answer = .failed then [] else [record]) ∧
      (store.appendInTenant key record).1.disk = store.disk.tail := by
  grind [OfflineQueueStore.appendInTenant, OfflineQueueStore.answer, OfflineQueueStore.load]

/-- Where no frame is torn, the bytes of the file hold the records that the store of the
sessions keeps, and the queue in memory is the same. -/
theorem pushFile_refines {session : Session} (store : OfflineQueueStore)
    (hStore : session.offlineStore = true) (hPath : OfflineQueueStore.hasPath session.key = true)
    (message : QueuedMessage) (limit : Option Nat) (now : Nat) :
    let fault := faultOf (store.disk.headD .done) (recordFrame (stamped message now)).length
    let rewritten := decide (store.disk.tail.headD .done = .done)
    let state : QueueState :=
      ⟨session.offlineQueue, queueFormat.frames (store.load session.key), none⟩
    let pushed := session.pushOfflineWithLimit store message limit now
    pushFile state message limit now fault rewritten =
      ⟨pushed.1.offlineQueue, queueFormat.frames (pushed.2.1.load session.key), none⟩ := by
  intro fault rewritten state pushed
  let added := stamped message now
  let kept := Session.evictOldest limit session.offlineQueue
  obtain ⟨answer, hAnswer⟩ : ∃ answer, store.disk.headD .done = answer := ⟨_, rfl⟩
  have hSpec := appendInTenant_eq store hPath added hAnswer
  generalize hAppend : store.appendInTenant session.key added = appended at hSpec
  obtain ⟨hAppended, hLoad, hDisk⟩ := hSpec
  let replaced := appended.1.rewriteInTenant session.key (kept ++ [added])
  have hFault : fault = faultOf answer (recordFrame added).length := congrArg (faultOf · _) hAnswer
  have hPushed : pushed =
      if appended.2 then
        if kept.length < session.offlineQueue.length then
          ({ session with offlineQueue := kept ++ [added] }, replaced.1, replaced.2)
        else ({ session with offlineQueue := kept ++ [added] }, appended.1, true)
      else (session, appended.1, false) := by
    subst hAppend
    exact if_pos hStore
  rw [hAppended] at hPushed
  rw [hFault]
  cases answer with
  | failed =>
    rw [hPushed]
    simp [pushFile, faultOf, appendFile, hLoad, state]
  | unsynced =>
    rw [hPushed]
    simp [pushFile, faultOf, appendFile, hLoad, state, added, frames_record]
  | done =>
    have hState := pushFile_appended state message limit now rewritten
    have hSame : rewritten = true ↔ appended.1.disk.headD .done = .done := by
      rw [hDisk]
      exact decide_eq_true_iff
    rw [faultOf, hState, hPushed]
    by_cases hEvicts : kept.length < session.offlineQueue.length
    · have hRewritten : replaced.1.load session.key = _ :=
        appended.1.load_rewriteInTenant session.key session.key (kept ++ [added])
      rw [hLoad] at hRewritten
      simp only [hPath, true_and, ← hSame, reduceCtorEq, if_false] at hRewritten
      simp only [beq_self_eq_true, if_true, if_pos hEvicts, hRewritten]
      cases hDone : rewritten with
      | true => simp [state, kept, added, hEvicts]
      | false => simp [state, kept, added, frames_record]
    · grind [frames_snoc]

theorem pushFile_refines_first :
    let session := { Session.new 0 ['a'] false 0 with offlineStore := true }
    let pushed := session.pushOfflineWithLimit ⟨∅, 0, []⟩ (note 1) none 0
    pushFile ⟨[], [], none⟩ (note 1) none 0 none true =
      ⟨pushed.1.offlineQueue, queueFormat.frames (pushed.2.1.load session.key), none⟩ := by
  intro session _
  exact pushFile_refines ⟨∅, 0, []⟩ (rfl : session.offlineStore = true) (by decide) _ none 0

theorem fileHolds_step {next : QueueState} {event : QueueEvent} {output : Unit}
    (hHolds : FileHolds state) (hStep : queueStep state event = some (next, output))
    (hHarmless : HarmlessPush state event) : FileHolds next := by
  cases event with
  | push message limit now fault rewritten =>
    obtain ⟨rfl, -⟩ := Prod.mk.inj (Option.some.inj hStep)
    exact hHolds.push hHarmless
  | take =>
    cases hTaken : state.taken with
    | some taken => simp [queueStep, hTaken] at hStep
    | none =>
      simp only [queueStep, hTaken, Option.some.injEq, Prod.mk.injEq] at hStep
      obtain ⟨rfl, -⟩ := hStep
      constructor
      · intro message hMem
        cases hMem
      · rintro taken hSame
        obtain rfl := Option.some.inj hSame
        exact hHolds.queued
  | confirm unrouted rewritten =>
    cases hTaken : state.taken with
    | none => simp [queueStep, hTaken] at hStep
    | some taken =>
      simp only [queueStep, hTaken] at hStep
      split at hStep
      · next hPart =>
        obtain ⟨rfl, -⟩ := Prod.mk.inj (Option.some.inj hStep)
        have hQueued : ∀ message ∈ unrouted ++ state.queue,
            Storable message ∧ message ∈ (scanFile state.file).1 := by
          intro message hMem
          obtain hBack | hOld := List.mem_append.mp hMem
          · exact hHolds.taken taken hTaken message
              ((List.isSublist_iff_sublist.mp hPart).subset hBack)
          · exact hHolds.queued message hOld
        refine ⟨?_, fun _ hNone => nomatch hNone⟩
        intro message hMem
        refine ⟨(hQueued message hMem).1, ?_⟩
        cases rewritten with
        | false => exact (hQueued message hMem).2
        | true =>
          show message ∈ (scanFile (queueFormat.frames (unrouted ++ state.queue))).1
          grind [scanFile_frames]
      · cases hStep

/-- In every run whose arrivals are harmless, from a queue that stands in its file, the file
can be read back to everything that a replay has taken until the replay is confirmed. -/
theorem taken_recoverable {queue : List QueuedMessage} {records : List OfflineRecord}
    (hStorable : ∀ record ∈ records, Storable record) (hQueue : queue.Sublist records)
    {run : List (Transition QueueState QueueEvent Unit)} {state : QueueState}
    (hRun : Run queueStep ⟨queue, queueFormat.frames records, none⟩ run state)
    (hHarmless : ∀ t ∈ run, HarmlessPush t.before t.input) {taken : List QueuedMessage}
    (hTaken : state.taken = some taken) : ∀ message ∈ taken, message ∈ (scanFile state.file).1 := by
  have hHolds : FileHolds state := by
    refine hRun.history (P := fun _ state => FileHolds state) ?_ ?_
    · refine ⟨?_, fun _ hNone => nomatch hNone⟩
      grind [scanFile_frames]
    · grind [fileHolds_step]
  intro message hMem
  exact (hHolds.taken taken hTaken message hMem).2

def arrives (payload : UInt8) : QueueEvent := .push (note payload) (some 1) 0 none true

/-- One arrival during the replay leaves the file readable. -/
theorem arrival_harmless :
    ∃ (run : List (Transition QueueState QueueEvent Unit)) (state : QueueState),
      Run queueStep ⟨[note 1], queueFormat.frames [note 1], none⟩ run state ∧
      run.map (·.input) = [.take, arrives 2] ∧ state.taken = some [note 1] ∧
      ∀ message ∈ [note 1], message ∈ (scanFile state.file).1 := by
  let start : QueueState := ⟨[note 1], queueFormat.frames [note 1], none⟩
  let drained : QueueState := ⟨[], queueFormat.frames [note 1], some [note 1]⟩
  have hOne : ∀ record ∈ [note 1], Storable record :=
    List.forall_mem_singleton.mpr (storable_note 1)
  have hRun : Run queueStep start
      [⟨start, .take, (), drained⟩,
        ⟨drained, arrives 2, (), pushFile drained (note 2) (some 1) 0 none true⟩]
      (pushFile drained (note 2) (some 1) 0 none true) :=
    .cons rfl (.cons rfl (.nil _))
  refine ⟨_, _, hRun, rfl, rfl, taken_recoverable hOne (List.Sublist.refl _) hRun ?_ rfl⟩
  intro t hMem
  simp only [List.mem_cons, List.not_mem_nil, or_false] at hMem
  obtain rfl | rfl := hMem
  · exact trivial
  · refine fun _ => ⟨⟨[note 1], hOne, rfl⟩, storable_note 2, ?_⟩
    intro _ _ limit hLimit
    obtain rfl := Option.some.inj hLimit
    decide

/-- The second arrival finds the queue full and rewrites the file without the message that
the replay has taken. -/
theorem full_queue_drops_taken :
    (exec queueStep ⟨[note 1], queueFormat.frames [note 1], none⟩
        [.take, arrives 2, arrives 3]).map
      (fun result => (result.2.taken, (scanFile result.2.file).1)) =
      some (some [note 1], [note 3]) := by
  decide +kernel

end IndraMqtt.Storage

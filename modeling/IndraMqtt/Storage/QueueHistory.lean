import IndraMqtt.Storage.ReplayWindow
import IndraMqtt.Storage.Restore

/-! The offline queue over whole histories. When no file operation fails, the file holds the
queue whenever no replay is under way. An arrival keeps the queue under its limit, but the confirm
of a replay puts entries back without looking at it. -/
namespace IndraMqtt.Storage

open Protocol Sessions Runs

/-! ### The file -/

/-- The operations of a session on its queue when no file operation fails. -/
inductive HistoryEvent where
  | push (message : QueuedMessage) (limit : Option Nat) (now : Nat)
  | drain
  | take
  | confirm (unrouted : List QueuedMessage)

/-- `drain_offline` of a session with a store. An empty queue leaves the file. -/
def drainOffline (state : QueueState) : QueueState :=
  { state with queue := [], file := if state.queue.isEmpty then state.file else [] }

/-- One operation. Several replays may overlap, and `taken` is what they have taken since the
last confirm. -/
def historyStep (state : QueueState) : HistoryEvent → QueueState
  | .push message limit now => pushFile state message limit now none true
  | .drain => drainOffline state
  | .take => { state with queue := [], taken := some (state.taken.getD [] ++ state.queue) }
  | .confirm unrouted =>
    let queue := unrouted ++ state.queue
    { queue, file := rewriteFile state.file queue true, taken := none }

def HistoryEvent.Fits : HistoryEvent → Prop
  | .push message _ now => Storable (stamped message now)
  | .confirm unrouted => ∀ message ∈ unrouted, Storable message
  | _ => True

structure Follows (state : QueueState) : Prop where
  storable : ∀ message ∈ state.queue, Storable message
  file : state.taken = none → state.file = queueFormat.frames state.queue

theorem Follows.step {state : QueueState} (hFollows : Follows state) {event : HistoryEvent}
    (hFits : event.Fits) : Follows (historyStep state event) := by
  cases event with
  | push message limit now =>
    rw [historyStep, pushFile_appended]
    have hSublist := evictOldest_sublist limit state.queue
    refine ⟨?_, fun hTaken => ?_⟩
    · intro queued hMem
      obtain hOld | hNew := List.mem_append.mp hMem
      · exact hFollows.storable queued (hSublist.subset hOld)
      · rw [List.mem_singleton.mp hNew]
        exact hFits
    · by_cases hEvicts : (Session.evictOldest limit state.queue).length < state.queue.length
      · simp [hEvicts]
      · have hKept := hSublist.eq_of_length_le (Nat.le_of_not_lt hEvicts)
        simp [hKept, hFollows.file hTaken, frames_record]
  | drain =>
    refine ⟨fun _ hMem => absurd hMem List.not_mem_nil, fun hTaken => ?_⟩
    have hFile := hFollows.file hTaken
    cases hQueue : state.queue with
    | nil => simp [historyStep, drainOffline, hFile, hQueue]
    | cons message queue => simp [historyStep, drainOffline, hQueue]
  | take => exact ⟨fun _ hMem => absurd hMem List.not_mem_nil, fun hNone => nomatch hNone⟩
  | confirm unrouted =>
    refine ⟨fun message hMem => ?_, fun _ => rfl⟩
    obtain hBack | hOld := List.mem_append.mp hMem
    · exact hFits message hBack
    · exact hFollows.storable message hOld

theorem Follows.run {state : QueueState} (hFollows : Follows state) {events : List HistoryEvent}
    (hFits : ∀ event ∈ events, event.Fits) : Follows (events.foldl historyStep state) := by
  induction events generalizing state with
  | nil => exact hFollows
  | cons event events ih =>
    rw [List.forall_mem_cons] at hFits
    exact ih (hFollows.step hFits.1) hFits.2

/-- After every history of messages within the limits, from a queue that stands in its file, the
file decodes to the queue unless a replay is under way. A restart over that file then builds the
newest entries of the queue under the cap of the node, which is the queue if it is within the
cap. -/
theorem file_follows_queue {queue : List QueuedMessage}
    (hStorable : ∀ message ∈ queue, Storable message) {events : List HistoryEvent}
    (hFits : ∀ event ∈ events, event.Fits) :
    let state := events.foldl historyStep ⟨queue, queueFormat.frames queue, none⟩
    state.taken = none →
      (scanFile state.file).1 = state.queue ∧
        ∀ (key : SessionKey) (name : Str) (manager : SessionManager) (store : FileStore)
          (listed : Str → Bool) (answers : Nat → BootAnswers) (now : Nat),
          logPathFor key = some name → (store.files.get? name).getD [] = state.file →
          listed name = true → (∀ visit, (answers visit).readFails = false) →
          manager.storeInstalled = true → manager.sessions.get? key = none →
          let restarted := restoreOfflineQueues manager store listed answers now
          let restored := ((restarted.manager.sessions.get? key).map (·.offlineQueue)).getD []
          restored = newest manager.maxOfflineQueue state.queue ∧
            ((∀ limit, manager.maxOfflineQueue = some limit →
                state.queue.length ≤ max limit 1) → restored = state.queue) := by
  intro state hTaken
  have hFollows : Follows state := Follows.run ⟨hStorable, fun _ => rfl⟩ hFits
  have hScan : (scanFile state.file).1 = state.queue := by
    rw [hFollows.file hTaken, scanFile_frames hFollows.storable]
  refine ⟨hScan, ?_⟩
  intro key name manager store listed answers now hPath hFile hListed hReads hStore hNone
  have hRecovered : store.recovered name = state.queue := by
    rw [← hScan, ← hFile]
    unfold FileStore.recovered
    cases store.files.get? name with
    | none => exact (congrArg Prod.fst queueFormat.scan_nil).symm
    | some bytes => rfl
  have hRestored := restoreOfflineQueues_queue now hPath hStore hNone store hListed hReads
  rw [hRecovered] at hRestored
  refine ⟨hRestored, fun hCap => hRestored.trans ?_⟩
  cases hLimit : manager.maxOfflineQueue with
  | none => rfl
  | some limit => rw [newest, Nat.sub_eq_zero_of_le (hCap limit hLimit), List.drop_zero]

def threeArrivals : List HistoryEvent :=
  [.push (note 1) none 0, .push (note 2) none 0, .push (note 3) (some 2) 0]

def afterArrivals : QueueState := threeArrivals.foldl historyStep ⟨[], [], none⟩

theorem arrivals_in_file : (scanFile afterArrivals.file).1 = [note 2, note 3] := by
  have hFits : ∀ event ∈ threeArrivals, event.Fits := by
    intro event hMem
    simp only [threeArrivals, List.mem_cons, List.not_mem_nil, or_false] at hMem
    obtain rfl | rfl | rfl := hMem
    · exact storable_note 1
    · exact storable_note 2
    · exact storable_note 3
  have hFile := (file_follows_queue (fun _ hMem => absurd hMem List.not_mem_nil) hFits rfl).1
  exact hFile.trans (by decide +kernel)

/-- A restart with a cap of one restores the newer of the two messages. A message that carries the
time that stands for none in a file is not read back as it was. -/
theorem restart_drops_older :
    afterArrivals.queue = [note 2, note 3] ∧
      ((restartOnly afterArrivals.file).manager.sessions.get? ⟨defaultTenantId, "c".toList⟩).map
        (·.offlineQueue) = some [note 3] ∧
      let late := { note 1 with publishAtMs := some noTimestamp }
      (scanFile (historyStep ⟨[], [], none⟩ (.push late none 0)).file).1 =
        [{ note 1 with publishAtMs := none }] := by
  decide +kernel

/-! ### The limit -/

/-- A session with its store, and the messages that its queue would hold without a limit. -/
structure CappedState where
  session : Session
  store : OfflineQueueStore
  unlimited : List QueuedMessage

inductive CappedEvent where
  | arrive (message : QueuedMessage) (now : Nat)
  | take
  | confirm (unrouted : List QueuedMessage)

/-- One operation under a limit. An arrival is queued unless the append to the file fails. -/
def cappedStep (limit : Nat) (state : CappedState) (event : CappedEvent) :
    Option (CappedState × Unit) :=
  match event with
  | .arrive message now =>
    let queued := !state.session.offlineStore ||
      (state.store.appendInTenant state.session.key (stamped message now)).2
    let (session, store, _) :=
      state.session.pushOfflineWithLimit state.store message (some limit) now
    some ({ session, store
            unlimited :=
              if queued then state.unlimited ++ [stamped message now] else state.unlimited }, ())
  | .take =>
    some ({ state with session := state.session.takeOfflineRetained.1, unlimited := [] }, ())
  | .confirm unrouted =>
    let (session, store) := state.session.confirmOfflineConsumed state.store unrouted
    some ({ session, store, unlimited := unrouted ++ state.unlimited }, ())

/-- What a confirm puts back has room under the limit. -/
def HasRoom (limit : Nat) (state : CappedState) : CappedEvent → Prop
  | .confirm unrouted =>
    unrouted ≠ [] → unrouted.length + state.session.offlineQueue.length ≤ max limit 1
  | _ => True

theorem pushOfflineWithLimit_queue (session : Session) (store : OfflineQueueStore)
    (message : QueuedMessage) (limit : Option Nat) (now : Nat) :
    (session.pushOfflineWithLimit store message limit now).1.offlineQueue =
      if (!session.offlineStore ||
          (store.appendInTenant session.key (stamped message now)).2) = true then
        Session.evictOldest limit session.offlineQueue ++ [stamped message now]
      else session.offlineQueue := by
  unfold Session.pushOfflineWithLimit
  simp only [stamped]
  grind

theorem cappedStep_newest {limit : Nat} {state next : CappedState} {event : CappedEvent}
    {output : Unit} (hQueue : state.session.offlineQueue = newest (some limit) state.unlimited)
    (hStep : cappedStep limit state event = some (next, output))
    (hRoom : HasRoom limit state event) :
    next.session.offlineQueue = newest (some limit) next.unlimited := by
  cases event with
  | arrive message now =>
    simp only [cappedStep, Option.some.injEq, Prod.mk.injEq] at hStep
    obtain ⟨rfl, -⟩ := hStep
    rw [pushOfflineWithLimit_queue]
    split
    · rw [hQueue, newest_snoc]
    · exact hQueue
  | take =>
    obtain ⟨rfl, -⟩ := Prod.mk.inj (Option.some.inj hStep)
    simp [Session.takeOfflineRetained, newest]
  | confirm unrouted =>
    simp only [cappedStep, Option.some.injEq, Prod.mk.injEq] at hStep
    obtain ⟨rfl, -⟩ := hStep
    rw [Session.confirmOfflineConsumed_eq]
    by_cases hNone : unrouted = []
    · rw [hNone, List.nil_append, List.nil_append, hQueue]
    · -- there is room, so no entry was evicted since the replay took the queue
      have hFits := hRoom hNone
      have hSome := List.length_pos_iff.mpr hNone
      simp only [hQueue, newest, List.length_drop] at hFits ⊢
      have hAll : state.unlimited.length - max limit 1 = 0 := by omega
      have hMore : (unrouted ++ state.unlimited).length - max limit 1 = 0 := by
        rw [List.length_append]
        omega
      rw [hAll, hMore, List.drop_zero, List.drop_zero]

/-- While every confirm finds room for what it puts back, the queue holds the newest messages and
no more than the limit, where a limit of 0 counts as 1. -/
theorem queue_newest {limit : Nat} {session : Session} (store : OfflineQueueStore)
    (hStart : session.offlineQueue.length ≤ max limit 1)
    {run : List (Transition CappedState CappedEvent Unit)} {state : CappedState}
    (hRun : Run (cappedStep limit) ⟨session, store, session.offlineQueue⟩ run state)
    (hRoom : ∀ t ∈ run, HasRoom limit t.before t.input) :
    state.session.offlineQueue = newest (some limit) state.unlimited ∧
      state.session.offlineQueue.length ≤ max limit 1 := by
  have hQueue : state.session.offlineQueue = newest (some limit) state.unlimited := by
    refine hRun.history
      (P := fun _ state => state.session.offlineQueue = newest (some limit) state.unlimited) ?_ ?_
    · simp [newest, Nat.sub_eq_zero_of_le hStart]
    · intro _ t hMem hStep hBefore
      exact cappedStep_newest hBefore hStep (hRoom t hMem)
  refine ⟨hQueue, ?_⟩
  rw [hQueue, newest, List.length_drop]
  omega

def plainSession : Session := Session.new 1 "c".toList false 0

def plainState (queue unlimited : List QueuedMessage) : CappedState :=
  ⟨{ plainSession with offlineQueue := queue }, ⟨∅, 0, []⟩, unlimited⟩

theorem newer_note_kept :
    ∃ run, Run (cappedStep 1) (plainState [] []) run (plainState [note 2] [note 1, note 2]) ∧
      (plainState [note 2] [note 1, note 2]).session.offlineQueue.length ≤ max 1 1 := by
  have hRun : Run (cappedStep 1) (plainState [] [])
      [⟨plainState [] [], .arrive (note 1) 0, (), plainState [note 1] [note 1]⟩,
        ⟨plainState [note 1] [note 1], .arrive (note 2) 0, (),
          plainState [note 2] [note 1, note 2]⟩]
      (plainState [note 2] [note 1, note 2]) :=
    .cons rfl (.cons rfl (.nil _))
  refine ⟨_, hRun, (queue_newest _ (Nat.zero_le _) hRun ?_).2⟩
  simp [HasRoom]

/-- A message arrives while a replay has taken another one. The confirm puts that back, and the
queue holds two messages under a limit of one. -/
theorem confirm_exceeds_limit :
    (exec (cappedStep 1) (plainState [] [])
        [.arrive (note 1) 0, .take, .arrive (note 2) 0, .confirm [note 1]]).map
      (fun result => result.2.session.offlineQueue) = some [note 1, note 2] := by
  decide +kernel

end IndraMqtt.Storage

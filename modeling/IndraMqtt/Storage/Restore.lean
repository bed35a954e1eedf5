import Mathlib.Data.Char
import Mathlib.Data.List.Lex
import IndraMqtt.Kernel.Step
import IndraMqtt.Storage.FileNames
import IndraMqtt.Storage.QueueFile

/-! The restart. Every queue file of the directory is read, cut behind its last good frame and
loaded into a session without a connection. A file with more records than the cap is rewritten
with the newest of them. -/
namespace IndraMqtt.Storage

open Protocol Sessions

variable {path : Str}

/-- The directory of the store, with the regular files by name. -/
structure FileStore where
  files : Dict Str (List UInt8)
  recoveryTorn : Nat
  persistFailed : Nat

/-- What the file system does while one queue is restored. -/
structure BootAnswers where
  readFails : Bool
  truncates : Bool
  removes : Bool
  rewrites : Bool

namespace FileStore

/-- The order of the pairs of tenant and client id. -/
def keyLe (key key' : SessionKey) : Bool :=
  decide (key.tenant < key'.tenant) ||
    (key.tenant == key'.tenant && decide (key.clientId ≤ key'.clientId))

section

variable (store : FileStore)

def queueKeys (listed : Str → Bool) : List SessionKey :=
  let names := store.files.keys.filter listed
  (names.filterMap fun name => (stripLog name).bind decodeKey).mergeSort keyLe

/-- `load_in_tenant`. A file that cannot be read counts as a torn one without records. -/
def loadInTenant (key : SessionKey) (answers : BootAnswers) :
    FileStore × List OfflineRecord × Nat :=
  match logPathFor key with
  | none => (store, [], 0)
  | some path =>
    if answers.readFails then ({ store with recoveryTorn := store.recoveryTorn + 1 }, [], 1)
    else
      match store.files.get? path with
      | none => (store, [], 0)
      | some bytes =>
        let (records, lastGood, complete) := scanFile bytes
        if complete then (store, records, 0)
        else
          let files :=
            if answers.truncates then store.files.set path (bytes.take lastGood)
            else store.files
          ({ store with files, recoveryTorn := store.recoveryTorn + 1 }, records, 1)

def removeInTenant (key : SessionKey) (answers : BootAnswers) : FileStore :=
  match logPathFor key with
  | none => store
  | some path =>
    if answers.removes then { store with files := store.files.remove path }
    else { store with persistFailed := store.persistFailed + 1 }

def rewriteInTenant (key : SessionKey) (records : List OfflineRecord)
    (answers : BootAnswers) : FileStore :=
  if records.isEmpty then store.removeInTenant key answers
  else
    match logPathFor key with
    | none => { store with persistFailed := store.persistFailed + 1 }
    | some path =>
      if answers.rewrites then
        { store with files := store.files.set path (queueFormat.frames records) }
      else { store with persistFailed := store.persistFailed + 1 }

def recovered (name : Str) : List OfflineRecord :=
  ((store.files.get? name).map fun bytes => (scanFile bytes).1).getD []

end

end FileStore

/-- `Session::push_restored_with_limit`, with the number of entries that the cap drops. -/
def pushRestoredWithLimit (session : Session) (messages : List QueuedMessage)
    (limit : Option Nat) : Session × Nat :=
  messages.foldl (fun (session, dropped) message =>
    let kept := Session.evictOldest limit session.offlineQueue
    ({ session with offlineQueue := kept ++ [message] },
      dropped + (session.offlineQueue.length - kept.length))) (session, 0)

structure OfflineRestoreStats where
  messages : Nat
  clients : Nat
  torn : Nat
  cappedDropped : Nat

structure RestoreState where
  manager : SessionManager
  store : FileStore
  stats : OfflineRestoreStats

def restoredSession (manager : SessionManager) (key : SessionKey) (now : Nat) : Session :=
  { manager.freshSession key.tenant key.clientId false now with connected := false }

/-- One round of the loop in `restore_offline_queues`. -/
def restoreQueue (now : Nat) (state : RestoreState) (key : SessionKey) (answers : BootAnswers) :
    RestoreState :=
  let (store, records, torn) := state.store.loadInTenant key answers
  let stats := { state.stats with torn := state.stats.torn + torn }
  if records.isEmpty then
    { state with store := if 0 < torn then store.removeInTenant key answers else store, stats }
  else if (state.manager.sessions.get? key).isSome then { state with store, stats }
  else
    let (session, dropped) := pushRestoredWithLimit (restoredSession state.manager key now) records
      state.manager.maxOfflineQueue
    let restored := session.offlineQueue.length
    { manager :=
        { state.manager with
          nextSessionId := state.manager.nextSessionId + 1
          sessions := state.manager.sessions.put session }
      store :=
        if 0 < dropped then store.rewriteInTenant key session.offlineQueue answers else store
      stats :=
        { stats with
          cappedDropped := stats.cappedDropped + dropped
          messages := stats.messages + restored
          clients := stats.clients + if 0 < restored then 1 else 0 } }

def visits (store : FileStore) (listed : Str → Bool) : List (SessionKey × Nat) :=
  (store.queueKeys listed).zipIdx

/-- `restore_offline_queues`. The answers of the file system are those to each round. -/
def restoreOfflineQueues (manager : SessionManager) (store : FileStore) (listed : Str → Bool)
    (answers : Nat → BootAnswers) (now : Nat) : RestoreState :=
  let start := { manager, store, stats := ⟨0, 0, 0, 0⟩ }
  if manager.storeInstalled then
    (visits store listed).foldl (fun state visit =>
      restoreQueue now state visit.1 (answers visit.2)) start
  else start

def newest (limit : Option Nat) (records : List OfflineRecord) : List OfflineRecord :=
  match limit with
  | none => records
  | some limit => records.drop (records.length - max limit 1)

variable (limit : Option Nat) (records : List OfflineRecord) (record : OfflineRecord)

theorem newest_newest : newest limit (newest limit records) = newest limit records := by
  cases limit with
  | none => rfl
  | some limit =>
    have hFits : (newest (some limit) records).length - max limit 1 = 0 := by
      rw [newest, List.length_drop]
      omega
    rw [newest, hFits, List.drop_zero]

theorem newest_ne_nil {limit : Option Nat} {records : List OfflineRecord} (hSome : records ≠ []) :
    newest limit records ≠ [] := by
  have hPos := List.length_pos_iff.mpr hSome
  cases limit with
  | none => exact hSome
  | some limit =>
    apply List.length_pos_iff.mp
    rw [newest, List.length_drop]
    omega

theorem newest_sublist : (newest limit records).Sublist records := by
  cases limit with
  | none => exact List.Sublist.refl _
  | some limit => exact List.drop_sublist _ _

theorem newest_snoc : Session.evictOldest limit (newest limit records) ++ [record] =
      newest limit (records ++ [record]) := by
  cases limit with
  | none => rfl
  | some limit => grind [Session.evictOldest, newest, List.drop_drop]

theorem length_evictOldest_newest : records.length - (newest limit records).length +
        ((newest limit records).length -
          (Session.evictOldest limit (newest limit records)).length) =
      (records ++ [record]).length - (newest limit (records ++ [record])).length := by
  cases limit with
  | none => simp [Session.evictOldest, newest]
  | some limit => grind [Session.evictOldest, newest]

/-- A restored queue has the newest records, and the rest are counted as dropped. -/
theorem pushRestoredWithLimit_eq (session : Session) (hEmpty : session.offlineQueue = [])
    (messages : List QueuedMessage) (limit : Option Nat) :
    pushRestoredWithLimit session messages limit =
      ({ session with offlineQueue := newest limit messages },
        messages.length - (newest limit messages).length) := by
  induction messages using List.reverseRecOn with
  | nil =>
    have hNone : newest limit [] = [] := by
      cases limit with
      | none => rfl
      | some limit => exact List.drop_nil
    have hSame : { session with offlineQueue := [] } = session := by rw [← hEmpty]
    rw [hNone, hSame]
    rfl
  | append_singleton messages message ih =>
    grind [pushRestoredWithLimit, newest_snoc, length_evictOldest_newest]

namespace FileStore

variable (store : FileStore) {key : SessionKey} (answers : BootAnswers) {name : Str}

theorem removeInTenant_other (hOther : logPathFor key ≠ some name) :
    (store.removeInTenant key answers).recovered name = store.recovered name := by
  grind [removeInTenant, recovered]

/-- What is cut off stands behind the last good frame. -/
theorem scanFile_cut (bytes : List UInt8) :
    (scanFile (bytes.take (scanFile bytes).2.1)).1 = (scanFile bytes).1 := by
  have hCut : bytes.take (scanFile bytes).2.1 = queueFormat.frames (scanFile bytes).1 :=
    queueFormat.take_scan bytes
  rw [hCut]
  exact scanFile_frames (queueFormat.scan_valid bytes)

theorem loadInTenant_recovered (key : SessionKey) (name : Str) :
    (store.loadInTenant key answers).1.recovered name = store.recovered name := by
  unfold loadInTenant
  cases hPath : logPathFor key with
  | none => rfl
  | some path => grind [recovered, scanFile_cut]

section

variable (hPath : logPathFor key = some name)
include hPath

theorem loadInTenant_records (hReads : answers.readFails = false) :
    (store.loadInTenant key answers).2.1 = store.recovered name := by
  grind [loadInTenant, recovered]

theorem recovered_removed (hNone : store.recovered name = []) :
    (store.removeInTenant key answers).recovered name = [] := by
  grind [removeInTenant, recovered]

theorem recovered_rewritten {records : List OfflineRecord} (hSome : records ≠ [])
    (hStorable : ∀ record ∈ records, Storable record) :
    (store.rewriteInTenant key records answers).recovered name = store.recovered name ∨
      (store.rewriteInTenant key records answers).recovered name = records := by
  grind [rewriteInTenant, recovered, scanFile_frames]

end

theorem recovered_storable (name : Str) : ∀ record ∈ store.recovered name, Storable record := by
  intro record hMem
  unfold recovered at hMem
  cases hGet : store.files.get? name with
  | none =>
    rw [hGet] at hMem
    cases hMem
  | some bytes =>
    rw [hGet] at hMem
    exact queueFormat.scan_valid bytes record hMem

end FileStore

section Round

variable {now : Nat} {state : RestoreState} {key : SessionKey} {answers : BootAnswers}

section

variable (now : Nat) (state : RestoreState) (key : SessionKey) (answers : BootAnswers)

/-- The three outcomes of a round, by what the load returned. -/
theorem restoreQueue_cases :
    let loaded := state.store.loadInTenant key answers
    let after := restoreQueue now state key answers
    let kept := newest state.manager.maxOfflineQueue loaded.2.1
    (loaded.2.1 = [] ∧ after.manager = state.manager ∧
        (after.store = loaded.1 ∨ after.store = loaded.1.removeInTenant key answers)) ∨
      (loaded.2.1 ≠ [] ∧ (state.manager.sessions.get? key).isSome ∧
        after.manager = state.manager ∧ after.store = loaded.1) ∨
      (loaded.2.1 ≠ [] ∧ state.manager.sessions.get? key = none ∧
        after.manager =
          { state.manager with
            nextSessionId := state.manager.nextSessionId + 1
            sessions := state.manager.sessions.put
              { restoredSession state.manager key now with offlineQueue := kept } } ∧
        (after.store = loaded.1 ∨ after.store = loaded.1.rewriteInTenant key kept answers)) := by
  intro loaded after kept
  have hLoaded : state.store.loadInTenant key answers = loaded := rfl
  have hAfter : restoreQueue now state key answers = after := rfl
  rw [restoreQueue, hLoaded] at hAfter
  by_cases hNone : loaded.2.1 = []
  · grind
  · right
    have hIsSome : loaded.2.1.isEmpty = false := by simpa using hNone
    cases hGet : state.manager.sessions.get? key with
    | some existing => grind
    | none =>
      right
      simp only [hIsSome, hGet, Option.isSome_none, Bool.false_eq_true, if_false,
        pushRestoredWithLimit_eq (restoredSession state.manager key now) rfl] at hAfter
      grind

theorem restoreQueue_limit : (restoreQueue now state key answers).manager.maxOfflineQueue =
      state.manager.maxOfflineQueue := by
  obtain ⟨-, hManager, -⟩ | ⟨-, -, hManager, -⟩ | ⟨-, -, hManager, -⟩ :=
    restoreQueue_cases now state key answers
  · rw [hManager]
  · rw [hManager]
  · rw [hManager]

end

/-- The files of the other queues stay as they are. -/
theorem restoreQueue_other {name : Str} (hOther : logPathFor key ≠ some name) :
    (restoreQueue now state key answers).store.recovered name = state.store.recovered name := by
  have hLoaded := state.store.loadInTenant_recovered answers key name
  obtain ⟨-, -, hStore | hStore⟩ | ⟨-, -, -, hStore⟩ | ⟨-, -, -, hStore | hStore⟩ :=
    restoreQueue_cases now state key answers
  · rw [hStore, hLoaded]
  · rw [hStore, FileStore.removeInTenant_other _ _ hOther, hLoaded]
  · rw [hStore, hLoaded]
  · rw [hStore, hLoaded]
  · grind [FileStore.rewriteInTenant, FileStore.removeInTenant_other, FileStore.recovered]

theorem restoreQueue_recovered {name : Str}
    (hReads : logPathFor key = some name → answers.readFails = false) :
    (restoreQueue now state key answers).store.recovered name = state.store.recovered name ∨
      (restoreQueue now state key answers).store.recovered name =
        newest state.manager.maxOfflineQueue (state.store.recovered name) := by
  by_cases hPath : logPathFor key = some name
  · have hRecords := state.store.loadInTenant_records answers hPath (hReads hPath)
    have hLoaded := state.store.loadInTenant_recovered answers key name
    have hCases := restoreQueue_cases now state key answers
    simp only [hRecords] at hCases
    obtain ⟨hNone, -, hStore | hStore⟩ | ⟨-, -, -, hStore⟩ | ⟨hSome, -, -, hStore | hStore⟩ := hCases
    · exact .inl (by rw [hStore, hLoaded])
    · left
      rw [hStore, FileStore.recovered_removed _ _ hPath (hLoaded.trans hNone), hNone]
    · exact .inl (by rw [hStore, hLoaded])
    · exact .inl (by rw [hStore, hLoaded])
    · rw [hStore, ← hLoaded]
      apply FileStore.recovered_rewritten _ _ hPath
      · rw [hLoaded]
        exact newest_ne_nil hSome
      · intro record hMem
        exact FileStore.recovered_storable _ name record ((newest_sublist _ _).subset hMem)
  · exact .inl (restoreQueue_other hPath)

end Round

theorem rounds_recovered {now : Nat} {answers : Nat → BootAnswers} {name : Str}
    (rounds : List (SessionKey × Nat)) (state : RestoreState)
    (hReads : ∀ round ∈ rounds, logPathFor round.1 = some name →
      (answers round.2).readFails = false) :
    let after := rounds.foldl (fun state round =>
      restoreQueue now state round.1 (answers round.2)) state
    after.store.recovered name = state.store.recovered name ∨
      after.store.recovered name =
        newest state.manager.maxOfflineQueue (state.store.recovered name) := by
  induction rounds generalizing state with
  | nil => exact .inl rfl
  | cons round rounds ih => grind [restoreQueue_limit, restoreQueue_recovered, newest_newest]

/-- A restart keeps what can be read from a queue file, or the newest records of it under the
cap, whatever else fails, when the reads of this file do not fail. -/
theorem restart_keeps_readable (manager : SessionManager) (store : FileStore)
    (listed : Str → Bool) (answers : Nat → BootAnswers) (now : Nat) (name : Str)
    (hReads : ∀ visit ∈ visits store listed, logPathFor visit.1 = some name →
      (answers visit.2).readFails = false) :
    let after := restoreOfflineQueues manager store listed answers now
    after.store.recovered name = store.recovered name ∨
      after.store.recovered name = newest manager.maxOfflineQueue (store.recovered name) := by
  intro after
  have hAfter : restoreOfflineQueues manager store listed answers now = after := rfl
  rw [restoreOfflineQueues] at hAfter
  split at hAfter
  · rw [← hAfter]
    exact rounds_recovered (visits store listed) _ hReads
  · rw [← hAfter]
    exact .inl rfl

def onlyFile (bytes : List UInt8) : FileStore :=
  { files := (∅ : Dict Str (List UInt8)).set "c.log".toList bytes, recoveryTorn := 0
    persistFailed := 0 }

def allDone : BootAnswers := { readFails := false, truncates := true, removes := true, rewrites := true }

def restartOnly (bytes : List UInt8) : RestoreState :=
  let manager := { SessionManager.newWithAllLimits (some 1) 1 1 with storeInstalled := true }
  restoreOfflineQueues manager (onlyFile bytes) (fun _ => true) (fun _ => allDone) 0

/-- A torn tail costs the record in front of it nothing. -/
theorem note_survives_restart :
    (restartOnly (recordFrame (note 1) ++ [0])).store.recovered "c.log".toList = [note 1] := by
  have hBefore : (onlyFile (recordFrame (note 1) ++ [0])).recovered "c.log".toList = [note 1] := by
    decide +kernel
  have hKept := restart_keeps_readable
    { SessionManager.newWithAllLimits (some 1) 1 1 with storeInstalled := true }
    (onlyFile (recordFrame (note 1) ++ [0])) (fun _ => true) (fun _ => allDone) 0 "c.log".toList
    (fun _ _ _ => rfl)
  rw [hBefore] at hKept
  exact hKept.elim id id

/-- Intact frames that a restart takes from a file: an old one above the cap, and one that
stands behind a damaged place. -/
theorem restart_drops_intact :
    (restartOnly (recordFrame (note 1) ++ recordFrame (note 2))).store.files.get?
        "c.log".toList = some (recordFrame (note 2)) ∧
      (restartOnly (recordFrame (note 1) ++ 0 :: recordFrame (note 2))).store.files.get?
        "c.log".toList = some (recordFrame (note 1)) := by
  decide +kernel

/-! ### What a restart builds -/

section Built

variable {now : Nat} {state : RestoreState} {key : SessionKey} {name : Str}

/-- What one round does to the session of a key. -/
theorem restoreQueue_session (now : Nat) (state : RestoreState)
    (hPath : logPathFor key = some name) (round : SessionKey) {answers : BootAnswers}
    (hReads : round = key → answers.readFails = false) :
    let after := restoreQueue now state round answers
    let kept := newest state.manager.maxOfflineQueue (state.store.recovered name)
    (round = key ∧ state.manager.sessions.get? key = none ∧ state.store.recovered name ≠ [] ∧
        (after.manager.sessions.get? key).map (·.offlineQueue) = some kept) ∨
      ((round = key → (state.manager.sessions.get? key).isSome ∨
          state.store.recovered name = []) ∧
        after.manager.sessions.get? key = state.manager.sessions.get? key) := by
  intro after kept
  have hCases := restoreQueue_cases now state round answers
  by_cases hRound : round = key
  · subst hRound
    simp only [state.store.loadInTenant_records answers hPath (hReads rfl)] at hCases
    obtain ⟨hNone, hManager, -⟩ | ⟨-, hSome, hManager, -⟩ | ⟨hSome, hNone, hManager, -⟩ := hCases
    · exact .inr ⟨fun _ => .inr hNone, by rw [← hManager]⟩
    · exact .inr ⟨fun _ => .inl hSome, by rw [← hManager]⟩
    · refine .inl ⟨rfl, hNone, hSome, ?_⟩
      show ((restoreQueue now state round answers).manager.sessions.get? round).map _ = _
      rw [hManager]
      exact congrArg (Option.map _) (KeyedMap.get?_put_of_key _ rfl)
  · refine .inr ⟨fun hSame => absurd hSame hRound, ?_⟩
    show (restoreQueue now state round answers).manager.sessions.get? key = _
    obtain ⟨-, hManager, -⟩ | ⟨-, -, hManager, -⟩ | ⟨-, -, hManager, -⟩ := hCases
    · rw [hManager]
    · rw [hManager]
    · rw [hManager]
      exact KeyedMap.get?_put_ne fun hKey => hRound hKey.symm

/-- The rounds build the session of a queue from its file, unless it was built before. -/
theorem rounds_session (hPath : logPathFor key = some name) {answers : Nat → BootAnswers}
    {limit : Option Nat} {records : List OfflineRecord} (rounds : List (SessionKey × Nat))
    (hReads : ∀ round ∈ rounds, round.1 = key → (answers round.2).readFails = false)
    (hLimit : state.manager.maxOfflineQueue = limit)
    (hState : (state.manager.sessions.get? key = none ∧ state.store.recovered name = records ∧
        (records ≠ [] → key ∈ rounds.map (·.1))) ∨
      (state.manager.sessions.get? key).map (·.offlineQueue) = some (newest limit records)) :
    let after := rounds.foldl (fun state round =>
      restoreQueue now state round.1 (answers round.2)) state
    ((after.manager.sessions.get? key).map (·.offlineQueue)).getD [] = newest limit records := by
  induction rounds generalizing state with
  | nil =>
    obtain ⟨hNone, -, hListed⟩ | hSome := hState
    · obtain rfl : records = [] := by
        by_contra hSome
        cases hListed hSome
      cases limit <;> simp [hNone, newest]
    · simp [hSome]
  | cons round rounds ih =>
    rw [List.forall_mem_cons] at hReads
    have hRound := restoreQueue_session now state hPath round.1 hReads.1
    apply ih hReads.2 ((restoreQueue_limit ..).trans hLimit)
    obtain ⟨hNone, rfl, hListed⟩ | hSome := hState
    · rw [hLimit, hNone] at hRound
      obtain ⟨-, -, -, hBuilt⟩ | ⟨hEmpty, hSame⟩ := hRound
      · exact .inr hBuilt
      · replace hEmpty : round.1 = key → state.store.recovered name = [] := fun hKey =>
          (hEmpty hKey).resolve_left Bool.false_ne_true
        refine .inl ⟨hSame, ?_, fun hSome => ?_⟩
        · by_cases hKey : round.1 = key
          · obtain hKept | hKept := @restoreQueue_recovered now state round.1 _ name
              fun _ => hReads.1 hKey
            · exact hKept
            · rw [hKept, hEmpty hKey]
              cases state.manager.maxOfflineQueue <;> simp [newest]
          · refine restoreQueue_other fun hOther => hKey ?_
            have hBack := decodeKey_of_logPathFor hOther
            rw [decodeKey_of_logPathFor hPath] at hBack
            exact (Option.some.inj hBack).symm
        · obtain hKey | hRest := List.mem_cons.mp (hListed hSome)
          · exact absurd (hEmpty hKey.symm) hSome
          · exact hRest
    · obtain ⟨-, hNone, -⟩ | ⟨-, hSame⟩ := hRound
      · simp [hNone] at hSome
      · exact .inr (by rw [hSame, hSome])

/-- A restart without sessions builds the session of every queue with the newest records of its
file under the cap. -/
theorem restoreOfflineQueues_queue (now : Nat) (hPath : logPathFor key = some name)
    {manager : SessionManager} (hStore : manager.storeInstalled = true)
    (hNone : manager.sessions.get? key = none) (store : FileStore) {listed : Str → Bool}
    (hListed : listed name = true) {answers : Nat → BootAnswers}
    (hReads : ∀ visit, (answers visit).readFails = false) :
    (((restoreOfflineQueues manager store listed answers now).manager.sessions.get? key).map
        (·.offlineQueue)).getD [] = newest manager.maxOfflineQueue (store.recovered name) := by
  rw [restoreOfflineQueues, if_pos hStore]
  refine rounds_session hPath _ (fun _ _ _ => hReads _) rfl (.inl ⟨hNone, rfl, fun hSome => ?_⟩)
  have hFile : name ∈ store.files := by
    by_contra hAbsent
    have hGet : store.files.get? name = none := AList.lookup_eq_none.mpr hAbsent
    simp [FileStore.recovered, hGet] at hSome
  have hNames : name ∈ store.files.keys.filter listed := List.mem_filter.mpr ⟨hFile, hListed⟩
  rw [visits, List.zipIdx_map_fst, FileStore.queueKeys, List.mem_mergeSort, List.mem_filterMap]
  exact ⟨name, hNames, decodeKey_of_logPathFor hPath⟩

end Built

end IndraMqtt.Storage

import IndraMqtt.Session.State

/-! The offline queue of a session and the queue files behind it. The file
system is a list of answers, one for each operation on a file, so that a run
can fail at any of them; past the end of the list every operation succeeds. -/
namespace IndraMqtt.Sessions

open Protocol

structure SessionKey where
  tenant : Str
  clientId : Str
  deriving DecidableEq

/-- What the file system does with one operation. An append can also fail after
the record was written, when the data cannot be flushed. -/
inductive DiskAnswer where
  | done
  | failed
  | unsynced
  deriving DecidableEq, Repr

/-- The queue files with their records in order; a file without records is the
same as no file. -/
structure OfflineQueueStore where
  files : Dict SessionKey (List OfflineRecord)
  persistFailed : Nat
  disk : List DiskAnswer

namespace OfflineQueueStore

variable (store : OfflineQueueStore) (key : SessionKey)

def answer : DiskAnswer × OfflineQueueStore :=
  (store.disk.headD .done, { store with disk := store.disk.tail })

def load : List OfflineRecord :=
  (store.files.get? key).getD []

/-- `log_path_for` refuses an empty client id and an empty tenant. -/
def hasPath : Bool :=
  key.clientId != [] && key.tenant != []

/-- `append_in_tenant`. A key without a path fails before the failure counter. -/
def appendInTenant (record : OfflineRecord) : OfflineQueueStore × Bool :=
  if hasPath key then
    let (answer, store) := store.answer
    let written := store.files.set key (store.load key ++ [record])
    match answer with
    | .done => ({ store with files := written }, true)
    | .failed => ({ store with persistFailed := store.persistFailed + 1 }, false)
    | .unsynced =>
      ({ store with files := written, persistFailed := store.persistFailed + 1 }, false)
  else (store, false)

def removeInTenant : OfflineQueueStore :=
  if hasPath key then
    let (answer, store) := store.answer
    match answer with
    | .done => { store with files := store.files.remove key }
    | _ => { store with persistFailed := store.persistFailed + 1 }
  else store

/-- `rewrite_in_tenant`. The new content is renamed into place, so a failure
leaves the old file. -/
def rewriteInTenant (records : List OfflineRecord) : OfflineQueueStore × Bool :=
  if records.isEmpty then (store.removeInTenant key, true)
  else if hasPath key then
    let (answer, store) := store.answer
    match answer with
    | .done => ({ store with files := store.files.set key records }, true)
    | _ => ({ store with persistFailed := store.persistFailed + 1 }, false)
  else ({ store with persistFailed := store.persistFailed + 1 }, false)

theorem answer_of_headD {store : OfflineQueueStore} {verdict : DiskAnswer}
    (hAnswer : store.disk.headD .done = verdict) : store.answer = (verdict, { store with disk :=store.disk.tail }) := by
  rw [answer, hAnswer]

/-- An append writes to its own file. -/
theorem load_appendInTenant_other {key key' : SessionKey}
    (record : OfflineRecord) (hOther : key' ≠ key) :
    (store.appendInTenant key record).1.load key' = store.load key' := by
  unfold appendInTenant
  split
  · cases hAnswer : store.disk.headD .done with
    | done =>
      rw [answer_of_headD hAnswer]
      simp [load, hOther]
    | failed =>
      rw [answer_of_headD hAnswer]
      simp [load]
    | unsynced =>
      rw [answer_of_headD hAnswer]
      simp [load, hOther]
  · rfl

theorem load_rewriteInTenant (key key' : SessionKey) (records : List OfflineRecord) :
    (store.rewriteInTenant key records).1.load key' =
      if key' = key ∧ hasPath key = true ∧
          store.disk.headD .done = .done then records
      else store.load key' := by
  unfold rewriteInTenant removeInTenant
  cases hPath : hasPath key with
  | false => split <;> simp [load]
  | true =>
    cases hAnswer : store.disk.headD .done with
    | done =>
      rw [answer_of_headD hAnswer]
      grind [load]
    | failed =>
      rw [answer_of_headD hAnswer]
      cases records <;> simp [load]
    | unsynced =>
      rw [answer_of_headD hAnswer]
      cases records <;> simp [load]

end OfflineQueueStore

namespace Session

variable (session : Session)

def key : SessionKey :=
  { tenant := session.tenantId, clientId := session.clientId }

/-- The eviction loop of the push: the oldest entries go until one more fits. -/
def evictOldest (limit : Option Nat) (queue : List QueuedMessage) : List QueuedMessage :=
  match limit with
  | none => queue
  | some limit => queue.drop (queue.length + 1 - max limit 1)

/-- `Session::push_offline_with_limit`. Without a store the message is always
queued. With one, nothing is queued when the append fails, and a failed rewrite
after an eviction answers `false` for a message that is queued. -/
def pushOfflineWithLimit (store : OfflineQueueStore) (message : QueuedMessage)
    (limit : Option Nat) (now : Nat) : Session × OfflineQueueStore × Bool :=
  let message := { message with publishAtMs := message.publishAtMs.or (some now) }
  let kept := evictOldest limit session.offlineQueue
  let pushed := { session with offlineQueue := kept ++ [message] }
  if session.offlineStore then
    let (store, appended) := store.appendInTenant session.key message
    if appended then
      if kept.length < session.offlineQueue.length then
        let (store, rewritten) := store.rewriteInTenant session.key pushed.offlineQueue
        (pushed, store, rewritten)
      else (pushed, store, true)
    else (session, store, false)
  else (pushed, store, true)

/-- A push writes to the file of its own session. -/
theorem load_pushOfflineWithLimit_other (store : OfflineQueueStore)
    (message : QueuedMessage) (limit : Option Nat) (now : Nat) {key : SessionKey}
    (hOther : key ≠ session.key) :
    (session.pushOfflineWithLimit store message limit now).2.1.load key = store.load key := by
  grind [OfflineQueueStore.load_appendInTenant_other, Session.pushOfflineWithLimit,
    OfflineQueueStore.load_rewriteInTenant]

/-- `Session::take_offline_retained`: the memory queue empties, the file stays. -/
def takeOfflineRetained : Session × List QueuedMessage :=
  ({ session with offlineQueue := [] }, session.offlineQueue)

/-- `Session::confirm_offline_consumed`. Unrouted entries go back in front of
what arrived meanwhile, and the file follows the queue. -/
def confirmOfflineConsumed (store : OfflineQueueStore)
    (unrouted : List QueuedMessage) : Session × OfflineQueueStore :=
  let merged := { session with offlineQueue := unrouted ++ session.offlineQueue }
  if session.offlineStore then
    (merged, (store.rewriteInTenant session.key merged.offlineQueue).1)
  else (merged, store)

theorem confirmOfflineConsumed_eq (store : OfflineQueueStore) (unrouted : List QueuedMessage) :
    (session.confirmOfflineConsumed store unrouted).1 =
      { session with offlineQueue := unrouted ++ session.offlineQueue } := by
  unfold confirmOfflineConsumed
  split <;> rfl

def dropsStateAtDisconnect : Bool :=
  if session.protocolVersion == 5 then session.sessionExpiry == defaultSessionExpirySecs
  else session.cleanStart

def sessionExpired (now : Nat) : Bool :=
  if session.connected then false
  else if session.protocolVersion != 5 then false
  else if session.sessionExpiry == sessionExpiryNever then false
  else if session.sessionExpiry == defaultSessionExpirySecs then true
  else
    match session.endedAtMs with
    | none => false
    | some endedAt => decide (session.sessionExpiry * 1000 < now - endedAt)

def applyV5Connect (version expiry receiveMax maxPacket : Nat) : Session :=
  { session with
    protocolVersion := version
    sessionExpiry := if version == 5 then expiry else defaultSessionExpirySecs
    clientReceiveMax := if version == 5 then max receiveMax 1 else defaultClientReceiveMaximum
    clientMaxPacketSize := if version == 5 then maxPacket else defaultClientMaxPacketSize }

def isEndedStateless : Bool :=
  !session.connected && session.subscriptions.entries.isEmpty &&
    session.offlineQueue.isEmpty &&
    session.inflight.length + session.inflightSpill.length == 0 &&
    session.qos2Inbound.entries.isEmpty && session.qos2Outbound.isEmpty

def clearAliases : Session :=
  { session with inboundAliases := ∅, outboundAliases := ∅ }

end Session

end IndraMqtt.Sessions

import IndraMqtt.Kernel.QuietRules

/-! What a refused CONNECT leaves behind. The refusal is decided in
`apply_bind_request`, but the slot of the user may already be taken there, and
the connection is registered and a backlog replayed to it afterwards. -/
namespace IndraMqtt.Kernel

open Protocol Sessions SessionManager

variable {req : BindRequest} {env : Env} {queue : List QueuedMessage} {connId : Nat}
  {session : Session} {shared : Shared} {clientId : Str}

/-! ### Slots -/

variable (sessions : SessionManager) (tenant username tenant' username' : Str)

theorem slotCount_release :
    (sessions.releaseConnectionSlotInTenant tenant username).slotCount tenant' username' =
      if (tenant', username') = (tenant, username) then sessions.slotCount tenant username - 1
      else sessions.slotCount tenant' username' := by
  grind [releaseConnectionSlotInTenant, slotCount]

/-- The count after an acquisition: it grows below the cap, and without a cap nothing
is counted. -/
def acquired (cap : Option Nat) (count : Nat) : Nat :=
  match cap with
  | none => count
  | some cap => if count < cap then count + 1 else count

theorem slotCount_acquire (cap : Option Nat) :
    ((sessions.acquireConnectionSlotInTenant tenant username cap).1).slotCount tenant' username' =
      if (tenant', username') = (tenant, username) then
        acquired cap (sessions.slotCount tenant username)
      else sessions.slotCount tenant' username' := by
  cases cap with
  | none => grind [acquireConnectionSlotInTenant, acquired]
  | some cap =>
    grind [acquireConnectionSlotInTenant, acquired, slotCount]

/-- The count comes back to what it was: an uncapped user loses nothing only without a
counted live session, and a capped one gets back the slot that was released, or finds
the cap reached. -/
def SlotBalanced (live : Bool) (cap : Option Nat) (count : Nat) : Prop :=
  match cap with
  | none => live = false ∨ count = 0
  | some cap => if live = true ∧ 0 < count then count ≤ cap else cap ≤ count

theorem acquired_eq_iff (live : Bool) (cap : Option Nat) (count : Nat) :
    acquired cap (if live then count - 1 else count) = count ↔ SlotBalanced live cap count := by
  cases cap with
  | none => grind [acquired, SlotBalanced]
  | some cap => grind [acquired, SlotBalanced]

theorem slotCount_admitConnection {sessions : SessionManager} {identity : Identity}
    {name username : Str} (hName : req.username = some name)
    (hUser : effectiveUsername req identity = some username) (tenant' username' : Str) :
    (admitConnection sessions env req identity).1.slotCount tenant' username' =
      let tenant := bindTenantForReq env req identity.principal
      let count := sessions.slotCount tenant username
      if (tenant', username') = (tenant, username) then
        acquired (connectionCap env tenant username identity)
          (if alreadyLive sessions tenant req.clientId then count - 1 else count)
      else sessions.slotCount tenant' username' := by
  grind [admitConnection, slotCount_acquire, slotCount_release]

/-! ### The replay -/

/-- The lengths that `BrokerFrame::new` accepts. -/
def Sendable (metaLength payloadLength : Nat) : Prop :=
  metaLength ≤ 65535 ∧ payloadLength ≤ 4294967295

theorem newFrame_eq_none_iff (metaLength payloadLength : Nat) (frame : OutFrame) :
    newFrame metaLength payloadLength frame = none ↔ ¬ Sendable metaLength payloadLength := by
  simp [newFrame, Sendable]

theorem Shared.route_open (hOpen : shared.conns.get? connId = some ⟨true⟩) (frame : OutFrame) :
    shared.route connId frame = (shared, true) := by
  simp [Shared.route, hOpen]

theorem routeAll_open (hOpen : shared.conns.get? connId = some ⟨true⟩) (frames : List OutFrame) :
    routeAll shared (frames.map fun frame => (connId, frame)) =
      (shared, frames.map fun frame => (connId, frame)) := by
  induction frames with
  | nil => rfl
  | cons frame frames ih =>
    simp [List.map_cons, routeAll, Shared.route_open hOpen, ih]

theorem replayOfflineClient_counts {after : Shared} {routed : List (Nat × OutFrame)}
    (hReplay : replayOfflineClient shared connId clientId = some (after, routed)) :
    after.sessions.connCounts = shared.sessions.connCounts := by
  unfold replayOfflineClient at hReplay
  split at hReplay
  · cases hReplay
    rfl
  · next session _ =>
    obtain ⟨replay, hQueue, hResult⟩ := Option.map_eq_some_iff.mp hReplay
    obtain ⟨rfl, -⟩ := Prod.mk.inj hResult
    have hSessions := (replayQueue_sessions hQueue).trans (routeAll_sessions shared _)
    show replay.shared.sessions.connCounts = _
    rw [hSessions]

def drawIds (session : Session) : List QueuedMessage → Option Session
  | [] => some session
  | queued :: rest =>
    (packetIdFor session queued.qos).bind fun allocated => drawIds allocated.2 rest

theorem packetIdFor_withQueue (session : Session) (qos : QoS) (queue : List QueuedMessage) :
    packetIdFor { session with offlineQueue := queue } qos =
      (packetIdFor session qos).map fun allocated =>
        (allocated.1, { allocated.2 with offlineQueue := queue }) := by
  unfold packetIdFor
  split
  · rfl
  · rw [Session.allocatePacketId, Session.allocatePacketId, Session.nextPacketIdLoop_eq_scan,
      Session.nextPacketIdLoop_eq_scan, Option.map_map]
    rfl

theorem drawIds_moves {drawn : Session} (hDraw : drawIds session queue = some drawn) :
    ∃ counter, drawn = { session with nextPacketId := counter } := by
  induction queue generalizing session with
  | nil =>
    cases hDraw
    exact ⟨_, rfl⟩
  | cons queued rest ih =>
    obtain ⟨allocated, hAllocate, hRest⟩ := Option.bind_eq_some_iff.mp hDraw
    grind [packetIdFor_moves]

theorem drawIds_withQueue (session : Session) (kept queue : List QueuedMessage) :
    drawIds { session with offlineQueue := kept } queue =
      (drawIds session queue).map fun drawn => { drawn with offlineQueue := kept } := by
  induction queue generalizing session with
  | nil => rfl
  | cons queued rest ih => grind [drawIds, packetIdFor_withQueue]

/-- A queue in which no message fits a frame goes back as it was, minus the packet ids
that were drawn for it. -/
theorem replayQueue_unsendable (connId : Nat) (shared : Shared) (session : Session)
    (hLong : ∀ queued ∈ queue, ¬ Sendable (plainMetaLength queued.topic) queued.payload.length) :
    replayQueue connId shared session queue =
      (drawIds session queue).map fun drawn => ⟨shared, drawn, [], queue⟩ := by
  induction queue generalizing session with
  | nil => rfl
  | cons queued rest ih =>
    rw [replayQueue, drawIds]
    cases packetIdFor session queued.qos with
    | none => rfl
    | some allocated =>
      have hNone : queuedFrame queued allocated.1 = none :=
        (newFrame_eq_none_iff _ _ _).mpr (hLong queued List.mem_cons_self)
      have hRest := ih allocated.2 fun queued hQueued =>
        hLong queued (List.mem_cons_of_mem _ hQueued)
      simp only [Option.bind_some, hNone, hRest, Option.map_map]
      rfl

theorem replayQueue_sends {replay : QueueReplay} (hOpen : shared.conns.get? connId = some ⟨true⟩)
    (hReplay : replayQueue connId shared session queue = some replay)
    (hSilent : ∀ frame, (connId, frame) ∉ replay.routed) :
    ∀ queued ∈ queue, ¬ Sendable (plainMetaLength queued.topic) queued.payload.length := by
  induction queue generalizing session replay with
  | nil =>
    intro queued hQueued
    cases hQueued
  | cons first rest ih =>
    obtain ⟨allocated, -, hRest⟩ := Option.bind_eq_some_iff.mp hReplay
    grind [queuedFrame, Option.map_eq_some_iff, newFrame_eq_none_iff, Shared.route_open]

/-- A session that a replay neither sends anything from nor changes. In practice its
stores are empty: an entry stays only when no frame can hold it, and a queued message
above QoS 0 also needs the packet ids drawn for the queue to bring the counter back. -/
structure NothingToReplay (session : Session) : Prop where
  window : ∀ held ∈ session.inflight, ¬ Sendable (plainMetaLength held.topic) held.payload.length
  spill : session.spillCount ≠ 0 → ∀ held ∈ session.inflightSpill,
    ¬ Sendable (plainMetaLength held.topic) held.payload.length
  outbound : ∀ held ∈ session.qos2Outbound,
    held.recReceived = false ∧ ¬ Sendable (aliasMetaLength held.topic) held.payload.length
  queue : ∀ queued ∈ session.offlineQueue,
    ¬ Sendable (plainMetaLength queued.topic) queued.payload.length
  ids : drawIds session session.offlineQueue = some session

theorem replayUnacked_eq_nil_iff (session : Session) : replayUnacked session = [] ↔
      (∀ held ∈ session.inflight,
        ¬ Sendable (plainMetaLength held.topic) held.payload.length) ∧
      (session.spillCount ≠ 0 → ∀ held ∈ session.inflightSpill,
        ¬ Sendable (plainMetaLength held.topic) held.payload.length) ∧
      ∀ held ∈ session.qos2Outbound,
        held.recReceived = false ∧ ¬ Sendable (aliasMetaLength held.topic) held.payload.length := by
  have hInflight (held : InflightMessage) : replayInflight held = none ↔
      ¬ Sendable (plainMetaLength held.topic) held.payload.length := newFrame_eq_none_iff _ _ _
  have hQos2 (held : Qos2OutboundEntry) : replayQos2 held = none ↔
      held.recReceived = false ∧
        ¬ Sendable (aliasMetaLength held.topic) held.payload.length := by
    grind [replayQos2, newFrame_eq_none_iff]
  unfold replayUnacked
  simp_all

/-- The replay writes the queue back to its file, and this changes nothing when the file
has the same content already or the write does not happen. -/
def FileKept (store : OfflineQueueStore) (session : Session) : Prop :=
  session.offlineStore = true → OfflineQueueStore.hasPath session.key = true →
    store.disk.headD .done = .done → store.load session.key = session.offlineQueue

/-- A replay that sends nothing puts the session back under the ids it drew and writes
the queue to its file. -/
theorem replayOfflineClient_unsendable
    (hTarget : replayTarget shared connId clientId = some session)
    (hUnacked : replayUnacked session = [])
    (hQueue : ∀ queued ∈ session.offlineQueue, ¬ Sendable (plainMetaLength queued.topic)
      queued.payload.length) : replayOfflineClient shared connId clientId =
      (drawIds session session.offlineQueue).map fun drawn =>
        ({ shared with
            sessions :=
              { shared.sessions.putSession drawn with
                store :=
                  if session.offlineStore then
                    (shared.sessions.store.rewriteInTenant session.key session.offlineQueue).1
                  else shared.sessions.store } }, []) := by
  have hReplay := replayQueue_unsendable connId shared { session with offlineQueue := [] } hQueue
  rw [drawIds_withQueue] at hReplay
  simp only [replayOfflineClient, hTarget, hUnacked, List.map_nil, routeAll,
    Session.takeOfflineRetained, hReplay, Option.map_map]
  cases hDraw : drawIds session session.offlineQueue with
  | none => rfl
  | some drawn =>
    obtain ⟨counter, rfl⟩ := drawIds_moves hDraw
    simp only [Option.map_some, Function.comp, Session.confirmOfflineConsumed, List.append_nil]
    cases session.offlineStore with
    | false => rfl
    | true => rfl

theorem replayOfflineClient_silent_iff (hOpen : shared.conns.get? connId = some ⟨true⟩)
    (hTarget : replayTarget shared connId clientId = some session) :
    (∃ after routed, replayOfflineClient shared connId clientId = some (after, routed) ∧
      (∀ key, after.sessions.sessions.get? key = shared.sessions.sessions.get? key) ∧
      (∀ key, after.sessions.store.load key = shared.sessions.store.load key) ∧
      ∀ frame, (connId, frame) ∉ routed) ↔
      NothingToReplay session ∧ FileKept shared.sessions.store session := by
  have hStored := replayTarget_stored hTarget
  constructor
  · intro ⟨after, routed, hReplay, hSessions, hFiles, hSilent⟩
    have hExpanded := hReplay
    simp only [replayOfflineClient, hTarget, routeAll_open hOpen] at hExpanded
    obtain ⟨replay, hQueueReplay, hAfter⟩ := Option.map_eq_some_iff.mp hExpanded
    obtain ⟨-, hRouted⟩ := Prod.mk.inj hAfter
    rw [← hRouted] at hSilent
    have hUnacked : replayUnacked session = [] := by
      apply List.eq_nil_iff_forall_not_mem.mpr
      grind [List.mem_map_of_mem]
    have hQueue := replayQueue_sends hOpen hQueueReplay fun frame hFrame =>
      hSilent frame (List.mem_append_right _ hFrame)
    rw [replayOfflineClient_unsendable hTarget hUnacked hQueue] at hReplay
    obtain ⟨drawn, hDraw, hResult⟩ := Option.map_eq_some_iff.mp hReplay
    obtain ⟨rfl, -⟩ := Prod.mk.inj hResult
    have hKey : drawn.key = session.key := by
      obtain ⟨counter, rfl⟩ := drawIds_moves hDraw
      rfl
    have hSame : drawn = session := by
      have hPut := hSessions drawn.key
      rw [hKey, hStored, ← hKey] at hPut
      exact Option.some.inj ((KeyedMap.get?_put_self _ _).symm.trans hPut)
    obtain ⟨hWindow, hSpill, hOutbound⟩ := (replayUnacked_eq_nil_iff session).mp hUnacked
    refine ⟨⟨hWindow, hSpill, hOutbound, hQueue, hSame ▸ hDraw⟩, ?_⟩
    intro hStore hPath hDone
    grind [OfflineQueueStore.load_rewriteInTenant]
  · intro ⟨hNothing, hKept⟩
    have hUnacked := (replayUnacked_eq_nil_iff session).mpr
      ⟨hNothing.window, hNothing.spill, hNothing.outbound⟩
    rw [replayOfflineClient_unsendable hTarget hUnacked hNothing.queue, hNothing.ids]
    refine ⟨_, _, rfl, ?_, ?_, fun frame hFrame => nomatch hFrame⟩
    · intro key
      show (shared.sessions.sessions.put session).get? key = _
      grind
    · intro key
      show OfflineQueueStore.load (if session.offlineStore then _ else _) key = _
      split
      · next hStore =>
        rw [OfflineQueueStore.load_rewriteInTenant]
        split
        · next hWritten =>
          obtain ⟨rfl, hPath, hDone⟩ := hWritten
          exact (hKept hStore hPath hDone).symm
        · rfl
      · rfl

/-! ### The refusal -/

/-- Every user keeps the count of its connections when the request is refused. -/
def SlotsKept (sessions : SessionManager) (env : Env) (req : BindRequest) : Prop :=
  ∀ identity name username, authenticate env req = .ok identity → req.username = some name →
    effectiveUsername req identity = some username →
    SlotBalanced (alreadyLive sessions (bindTenantForReq env req identity.principal) req.clientId)
      (connectionCap env (bindTenantForReq env req identity.principal) username identity)
      (sessions.slotCount (bindTenantForReq env req identity.principal) username)

theorem slotCount_admitConnection_iff {sessions : SessionManager} {identity : Identity}
    (hAuthenticated : authenticate env req = .ok identity) :
    (∀ tenant username, (admitConnection sessions env req identity).1.slotCount tenant username =
      sessions.slotCount tenant username) ↔ SlotsKept sessions env req := by
  constructor
  · intro hSlots identity' name username hIdentity hName hUser
    obtain rfl : identity = identity' := Except.ok.inj (hAuthenticated.symm.trans hIdentity)
    simp_all [slotCount_admitConnection, acquired_eq_iff]
  · intro hKept tenant username
    cases hName : req.username with
    | none => rw [admitConnection, hName]
    | some name =>
      cases hUser : effectiveUsername req identity with
      | none => rw [admitConnection, hName, hUser]
      | some counted =>
        rw [slotCount_admitConnection hName hUser]
        have hBalanced := hKept identity name counted hAuthenticated hName hUser
        grind [acquired_eq_iff]

theorem applyBindRequest_refused {looksV5 : Bool}
    (hRefused : returnCode (applyBindRequest shared env connId (.ok req) looksV5).2 ≠ 0) :
    ∃ sessions, (applyBindRequest shared env connId (.ok req) looksV5).1 =
        { shared with sessions } ∧
      CountsOnly shared.sessions sessions ∧
      ((∀ tenant username, sessions.slotCount tenant username =
        shared.sessions.slotCount tenant username) ↔ SlotsKept shared.sessions env req) := by
  cases hIdentity : authenticate env req with
  | error rc =>
    refine ⟨shared.sessions, ?_, ⟨shared.sessions.connCounts, rfl⟩, ?_⟩
    · simp [applyBindRequest, hIdentity]
    · simp [SlotsKept, hIdentity]
  | ok identity =>
    refine ⟨(admitConnection shared.sessions env req identity).1, ?_,
      countsOnly_admitConnection _ _ _ _, slotCount_admitConnection_iff hIdentity⟩
    simp only [applyBindRequest, hIdentity] at hRefused ⊢
    split
    · rfl
    · next hAdmitted =>
      rw [if_neg hAdmitted] at hRefused
      cases hWill : willFromBind req with
      | error text => rfl
      | ok will =>
        simp only [hWill] at hRefused
        exact absurd rfl hRefused

/-- Sessions with their memory queues, queue files and connection counts are the same. -/
structure Undisturbed (before after : SessionManager) : Prop where
  sessions : ∀ key, after.sessions.get? key = before.sessions.get? key
  files : ∀ key, after.store.load key = before.store.load key
  slots : ∀ tenant username, after.slotCount tenant username = before.slotCount tenant username

/-- The requests whose refusal has no effect. The session that a replay picks for the
client id of the request, if there is one, must have nothing to replay. -/
structure HarmlessRefusal (shared : Shared) (env : Env) (connId : Nat) (req : BindRequest) :
    Prop where
  slots : SlotsKept shared.sessions env req
  replay : ∀ session, replayTarget shared connId req.clientId = some session →
    NothingToReplay session ∧ FileKept shared.sessions.store session

theorem refusedBind_undisturbed_iff (shared : Shared) (env : Env) (connId : Nat)
    (parsed : Except String BindRequest) (looksV5 : Bool)
    (hRefused : returnCode (applyBindRequest shared env connId parsed looksV5).2 ≠ 0) :
    (∃ after effects, handleBind shared env connId parsed looksV5 = some (after, effects) ∧
      Undisturbed shared.sessions after.sessions ∧
      ∀ frame, (connId, frame) ∉ effects.routed) ↔
      ∀ req, parsed = .ok req → HarmlessRefusal shared env connId req := by
  cases parsed with
  | error text =>
    have hHandled : handleBind shared env connId (.error text) looksV5 =
        some (shared.register connId, ⟨[refusalMalformed shared looksV5], [], []⟩) := rfl
    simp only [reduceCtorEq, false_implies, implies_true, iff_true]
    refine ⟨_, _, hHandled, ⟨fun _ => rfl, fun _ => rfl, fun _ _ => rfl⟩, ?_⟩
    intro frame hFrame
    cases hFrame
  | ok req =>
    obtain ⟨sessions, hState, hOnly, hSlots⟩ := applyBindRequest_refused hRefused
    obtain ⟨counts, rfl⟩ := hOnly
    let refused : Shared :=
      { shared with sessions := { shared.sessions with connCounts := counts } }
    have hOpen : (refused.register connId).conns.get? connId = some ⟨true⟩ := by
      simp [Shared.register]
    have hHandled : handleBind shared env connId (.ok req) looksV5 =
        (replayOfflineClient (refused.register connId) connId req.clientId).map fun result =>
          (result.1, ⟨[(applyBindRequest shared env connId (.ok req) looksV5).2],
            result.2, []⟩) := by grind [handleBind, autoSubscribed]
    have hSlots' {after : Shared} (hCounts : after.sessions.connCounts = counts) :
        (∀ tenant username, after.sessions.slotCount tenant username =
          shared.sessions.slotCount tenant username) ↔ SlotsKept shared.sessions env req := by
      rw [← hSlots]
      simp [slotCount, hCounts]
    simp only [Except.ok.injEq, forall_eq']
    constructor
    · intro ⟨after, effects, hAfter, hUndisturbed, hSilent⟩
      rw [hHandled] at hAfter
      obtain ⟨⟨final, routed⟩, hReplay, hResult⟩ := Option.map_eq_some_iff.mp hAfter
      obtain ⟨rfl, rfl⟩ := Prod.mk.inj hResult
      refine ⟨(hSlots' (replayOfflineClient_counts hReplay)).mp hUndisturbed.slots, ?_⟩
      intro session hTarget
      exact (replayOfflineClient_silent_iff hOpen hTarget).mp
        ⟨final, routed, hReplay, hUndisturbed.sessions, hUndisturbed.files, hSilent⟩
    · intro hHarmless
      rw [hHandled]
      cases hTarget : replayTarget (refused.register connId) connId req.clientId with
      | none =>
        rw [replayOfflineClient, hTarget]
        refine ⟨_, _, rfl, ⟨fun _ => rfl, fun _ => rfl, ?_⟩, fun frame hFrame => nomatch hFrame⟩
        exact (hSlots' rfl).mpr hHarmless.slots
      | some session =>
        obtain ⟨after, routed, hReplay, hSessions, hFiles, hSilent⟩ :=
          (replayOfflineClient_silent_iff hOpen hTarget).mpr
            (hHarmless.replay session hTarget)
        rw [hReplay]
        refine ⟨_, _, rfl, ⟨hSessions, hFiles, ?_⟩, hSilent⟩
        exact (hSlots' (replayOfflineClient_counts hReplay)).mpr hHarmless.slots

/-- On an empty node a banned client changes nothing. -/
theorem bannedBind_undisturbed :
    ∃ after effects,
      handleBind (.start .new) bannedEnv 7 (.ok (plainRequest "meter".toList)) false =
          some (after, effects) ∧
        Undisturbed new after.sessions ∧ ∀ frame, (7, frame) ∉ effects.routed := by
  apply (refusedBind_undisturbed_iff (.start .new) bannedEnv 7
    (.ok (plainRequest "meter".toList)) false (by decide +kernel)).mpr
  intro req hReq
  obtain rfl := Except.ok.inj hReq
  have hBanned : authenticate bannedEnv (plainRequest "meter".toList) = .error 0x8A := rfl
  refine ⟨?_, ?_⟩
  · intro identity name username hIdentity
    rw [hBanned] at hIdentity
    cases hIdentity
  · intro session hTarget
    cases hTarget

def meterOffline : Shared :=
  .start (new.putSession
    { Session.new 1 "meter".toList false 0 with
      connected := false
      offlineQueue := [{ topic := ⟨"key".toList, rfl⟩, qos := .atLeastOnce, retain := false,
                         payload := [42], publishAtMs := some 0 }] })

/-- A banned client that names another one gets the other's message, and the queue is
empty afterwards. -/
theorem bannedBind_takes_queue :
    returnCode (applyBindRequest meterOffline bannedEnv 7 (.ok (plainRequest "meter".toList))
        false).2 = 0x8A ∧
      (handleBind meterOffline bannedEnv 7 (.ok (plainRequest "meter".toList)) false).map
          (fun result => (result.2.routed,
            (result.1.sessions.getInTenant defaultTenantId "meter".toList).map (·.offlineQueue))) =
        some ([(7, .publishOut
          { topic := ⟨"key".toList, rfl⟩, packetId := 1, qos := .atLeastOnce, retain := false,
            dup := false, topicAlias := 0, subscriptionId := 0, props := .empty,
            payload := [42] })], some []) := by
  decide +kernel

end IndraMqtt.Kernel

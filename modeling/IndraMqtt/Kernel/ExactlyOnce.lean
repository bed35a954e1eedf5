import IndraMqtt.Kernel.Inbound

/-! The release of QoS 2 publications. A publication that a session took is handed on by
the PUBREL that finds it, and by no other, as long as the queue files and the delay store
take what the release gives them. -/
namespace IndraMqtt.Kernel

open Protocol Sessions Routing Runs
open OfflineQueueStore (answer appendInTenant hasPath)
open SessionManager (Bound)

variable {entry : Qos2InboundEntry}

/-! ### Queue files that can be written -/

def AllDone (store : OfflineQueueStore) : Prop := ∀ answer ∈ store.disk, answer = .done

/-- No failure is counted between two stores of which the first can be written. -/
def Written (before after : OfflineQueueStore) : Prop :=
  AllDone before → AllDone after ∧ after.persistFailed = before.persistFailed

theorem Written.trans {first second third : OfflineQueueStore} (hFirst : Written first second)
    (hSecond : Written second third) : Written first third := by
  intro hDone
  obtain ⟨hMiddle, hCount⟩ := hFirst hDone
  obtain ⟨hLast, hCount'⟩ := hSecond hMiddle
  exact ⟨hLast, hCount'.trans hCount⟩

variable {store : OfflineQueueStore} {message : Ingress} {result : Shared × Effects}
  {after : Shared} {session : Session} {effects : Effects}

theorem answer_of_allDone (hDone : AllDone store) : store.answer = (.done, { store with disk :=store.disk.tail }) ∧
      AllDone { store with disk := store.disk.tail } := by
  constructor
  · unfold answer
    cases hDisk : store.disk with
    | nil => rfl
    | cons first rest =>
      have hFirst : first = .done := hDone first (by simp [hDisk])
      rw [hFirst]
      rfl
  · intro answer hMem
    exact hDone answer (List.mem_of_mem_tail hMem)

theorem written_appendInTenant (store : OfflineQueueStore) (key : SessionKey)
    (record : OfflineRecord) : Written store (store.appendInTenant key record).1 := by
  intro hDone
  obtain ⟨hAnswer, hRest⟩ := answer_of_allDone hDone
  unfold appendInTenant
  split
  · simp only [hAnswer]
    exact ⟨hRest, trivial⟩
  · exact ⟨hDone, rfl⟩

variable {key : SessionKey} {shared : Shared} {env : Env} {packetId other : UInt16} {t : Handled}

theorem written_rewriteInTenant (hPath : hasPath key = true)
    (store : OfflineQueueStore) (records : List OfflineRecord) :
    Written store (store.rewriteInTenant key records).1 := by
  intro hDone
  obtain ⟨hAnswer, hRest⟩ := answer_of_allDone hDone
  unfold OfflineQueueStore.rewriteInTenant
  split
  · simp only [OfflineQueueStore.removeInTenant, hPath, if_true, hAnswer]
    exact ⟨hRest, trivial⟩
  · simp only [hAnswer]
    exact ⟨hRest, trivial⟩

theorem written_pushOfflineWithLimit (session : Session) (store : OfflineQueueStore)
    (message : QueuedMessage) (limit : Option Nat) (now : Nat) :
    Written store (session.pushOfflineWithLimit store message limit now).2.1 := by
  unfold Session.pushOfflineWithLimit
  simp only
  split
  · have hAppend := written_appendInTenant store session.key
      { message with publishAtMs := message.publishAtMs.or (some now) }
    split
    · next hAppended =>
      split
      · have hPath : hasPath session.key = true := by
          grind [appendInTenant]
        exact hAppend.trans (written_rewriteInTenant hPath _ _)
      · exact hAppend
    · exact hAppend
  · exact fun hDone => ⟨hDone, rfl⟩

/-- A release counts no failure when the queue files can be written. -/
theorem written_delivery : DeliveryRule fun before after => Written before.store after.store ∧
      after.storeInstalled = before.storeInstalled where
  refl _ := ⟨fun hDone => ⟨hDone, rfl⟩, rfl⟩
  trans _ _ _ hFirst hSecond := ⟨hFirst.1.trans hSecond.1, hSecond.2.trans hFirst.2⟩
  live _ _ _ _ _ _ _ _ _ _ _ := ⟨fun hDone => ⟨hDone, rfl⟩, rfl⟩
  detached manager session message effective retain now _ _ := by
    unfold deliverDetached
    split
    · exact ⟨fun hDone => ⟨hDone, rfl⟩, rfl⟩
    · exact ⟨written_pushOfflineWithLimit _ _ _ _ _, rfl⟩

/-- Queue files are off, or every operation on them succeeds. -/
def DiskWorks (sessions : SessionManager) : Prop :=
  sessions.storeInstalled = false ∨ AllDone sessions.store

/-! ### Releases -/

structure Publication where
  topic : Topic
  retain : Bool
  payload : Payload
  deriving DecidableEq

def Ingress.publication (message : Ingress) : Publication :=
  ⟨message.topic, message.retain, message.payload⟩

def DelayedEntry.publication (delayed : DelayedEntry) : Publication :=
  ⟨delayed.topic, delayed.retain, delayed.payload⟩

/-- The publication that a session took, on the topic behind its delayed prefix. -/
def publicationOf (entry : Qos2InboundEntry) : Publication where
  topic :=
    match stripDelayedPrefix entry.topic.text with
    | some (_, inner) => (Topic.new inner).toOption.getD entry.topic
    | none => entry.topic
  retain := entry.retain
  payload := entry.payload

/-- What a frame handed on: messages that entered the pipeline and entries that the delay
store took. -/
def handedOn (before after : Shared) (effects : Effects) : List Publication :=
  effects.ingress.map Ingress.publication ++
    (after.delayed.drop before.delayed.length).map DelayedEntry.publication

theorem publishRuleOutputs_delayed {outputs : List RuleOutput}
    {result : Shared × List (Nat × OutFrame)}
    (hPublish : publishRuleOutputs env shared outputs = some result) :
    result.1.delayed = shared.delayed := by
  induction outputs generalizing shared result with
  | nil =>
    cases hPublish
    rfl
  | cons output outputs ih =>
    obtain ⟨first, hFirst, hRest⟩ := Option.bind_eq_some_iff.mp hPublish
    obtain ⟨rest, hTail, rfl⟩ := Option.map_eq_some_iff.mp hRest
    obtain ⟨built, hBuilt, rfl⟩ := Option.map_eq_some_iff.mp hFirst
    obtain ⟨delivered, -, rfl⟩ := Option.map_eq_some_iff.mp hBuilt
    have hRest := ih hTail
    rw [routeAll_conns] at hRest
    exact hRest

theorem release_delayed (hRelease : release shared env message = some result) :
    result.1.delayed = shared.delayed ∧ result.2.ingress = [message] := by
  obtain ⟨piped, hPiped, rfl⟩ := Option.map_eq_some_iff.mp hRelease
  obtain ⟨ruled, hRuled, hBuilt⟩ := Option.bind_eq_some_iff.mp hPiped
  obtain ⟨built, hBuild, rfl⟩ := Option.map_eq_some_iff.mp hBuilt
  obtain ⟨delivered, -, rfl⟩ := Option.map_eq_some_iff.mp hBuild
  have hRules := publishRuleOutputs_delayed hRuled
  grind [storeRetained_retained, routeAll_conns]

/-- The delay store takes what the release of an entry gives it. -/
def DelayTaken (env : Env) (entry : Qos2InboundEntry) : Prop :=
  ∀ delayed delay, delayed.publication = publicationOf entry →
    env.scheduleDelayed delayed delay = true

theorem releaseQos2_handsOn {topic : Topic}
    (hRelease : releaseQos2 shared env session packetId entry topic = some (after, effects))
    (hDisk : DiskWorks shared.sessions) :
    handedOn shared after effects = [⟨topic, entry.retain, entry.payload⟩] ∧
      ∀ T, FrameRule T → T shared.sessions after.sessions := by
  obtain ⟨released, hReleased, hResult⟩ := Option.map_eq_some_iff.mp hRelease
  obtain ⟨hDelayed, hIngress⟩ := release_delayed hReleased
  have hStored : persistFailedSince shared released.1 = false := by
    obtain hOff | hDone := hDisk
    · rw [persistFailedSince, hOff, Bool.false_and]
    · simp [persistFailedSince, ((written_delivery.release hReleased).1 hDone).2]
  rw [hStored] at hResult
  obtain ⟨rfl, rfl⟩ := Prod.mk.inj hResult
  constructor
  · show released.2.ingress.map _ ++ (released.1.delayed.drop _).map _ = _
    rw [hIngress, hDelayed, List.drop_length]
    rfl
  · intro T hT
    exact hT.release hReleased

/-- A release of a taken entry that meets no failure hands its publication on once, and
otherwise changes sessions only quietly. -/
theorem releaseTaken_handsOn {taken : Session}
    (hRelease : releaseTaken shared env taken packetId entry = some (after, effects))
    (hDisk : DiskWorks shared.sessions) (hDelay : DelayTaken env entry) :
    handedOn shared after effects = [publicationOf entry] ∧
      ∀ T, FrameRule T → T shared.sessions after.sessions := by
  unfold releaseTaken at hRelease
  cases hStrip : stripDelayedPrefix entry.topic.text with
  | none => grind [publicationOf, releaseQos2_handsOn]
  | some stripped =>
    obtain ⟨delay, inner⟩ := stripped
    obtain ⟨valid, hInner⟩ := stripDelayedPrefix_valid hStrip
    have hPublication : publicationOf entry =
        ⟨⟨inner, valid⟩, entry.retain, entry.payload⟩ := by
      simp only [publicationOf, hStrip, hInner]
      rfl
    simp only [hStrip, hInner] at hRelease
    rw [hPublication]
    split at hRelease
    · exact releaseQos2_handsOn hRelease hDisk
    · let delayed : DelayedEntry :=
        { deliverAtMs := env.now + delay * 1000, topic := ⟨inner, valid⟩, qos := .exactlyOnce,
          retain := entry.retain, payload := entry.payload, publisher := some taken.clientId,
          publisherTenant := taken.tenantId }
      have hTaken : env.scheduleDelayed delayed delay = true :=
        hDelay delayed delay hPublication.symm
      rw [if_pos hTaken] at hRelease
      obtain ⟨rfl, rfl⟩ := Prod.mk.inj (Option.some.inj hRelease)
      constructor
      · show [] ++ ((shared.delayed ++ [_]).drop shared.delayed.length).map _ = _
        rw [List.drop_left]
        rfl
      · intro T hT
        exact hT.refl _

/-! ### Conservation -/

section Conservation

variable (key : SessionKey) (packetId : UInt16)

/-- The publication that the session holds under the packet id. -/
def heldPublications (shared : Shared) : List Publication :=
  (heldInbound shared.sessions key packetId).toList.map publicationOf

/-- The publication that the session took with this frame: a PUBLISH under a packet id
that held none. -/
def takenBy (t : Handled) : List Publication :=
  match t.input.2 with
  | .publish _ _ =>
    if (heldInbound t.before.sessions key packetId).isNone then
      heldPublications key packetId t.after
    else []
  | _ => []

def isPubrel (t : Handled) : Bool :=
  match t.input.2 with
  | .pubrel connId released =>
    released == packetId && (resolveSession t.before connId).map Session.key == some key
  | _ => false

/-- The publications that the PUBREL of the session handed on. -/
def releasedBy (t : Handled) : List Publication :=
  if isPubrel key packetId t then handedOn t.before t.after t.output else []

/-- What a frame must not do to a publication that a session holds: end the session with
its state, or release it while the queue files or the delay store fail. -/
structure Orderly (t : Handled) (session : Session) (entry : Qos2InboundEntry) : Prop where
  durable : t.input.2.detaches = true → session.dropsStateAtDisconnect = false
  unexpired : ∀ connId req looksV5, t.input.2 = .bind connId (.ok req) looksV5 →
    session.sessionExpired t.input.1.now = false
  resumed : ∀ connId req looksV5 identity, t.input.2 = .bind connId (.ok req) looksV5 →
    authenticate t.input.1 req = .ok identity → requestKey t.input.1 req identity = key →
      req.cleanStart = false
  disk : isPubrel key packetId t = true →
    t.before.sessions.storeInstalled = false ∨ ∀ answer ∈ t.input.1.disk, answer = .done
  delay : isPubrel key packetId t = true → DelayTaken t.input.1 entry

/-- The frame is orderly for the publication that the session holds under the packet id,
if it holds one. -/
def OrderlyStep (t : Handled) : Prop :=
  ∀ session entry, t.before.sessions.sessions.get? key = some session →
    session.qos2Inbound.get? packetId = some entry → Orderly key packetId t session entry

end Conservation

/-! ### Publications that a frame does not release -/

/-- Nothing is held under the packet id, and nothing comes to be. -/
def KeepsNone (key : SessionKey) (packetId : UInt16) (before after : SessionManager) : Prop :=
  heldInbound before key packetId = none → heldInbound after key packetId = none

theorem keepsNone_quiet (key : SessionKey) (packetId : UInt16) :
    QuietRule (KeepsNone key packetId) :=
  ViewRule.quiet
    ⟨fun _ _ _ hFirst hSecond hNone => hSecond (hFirst hNone),
      fun _ _ hSame hNone => (heldInbound_of_views hSame key packetId).trans hNone⟩

/-- Taking an entry that is not the one under the packet id. -/
theorem get?_takeQos2Inbound_ne (session : Session) (hNe : packetId ≠ other) :
    (session.takeQos2Inbound other).1.qos2Inbound.get? packetId =
      session.qos2Inbound.get? packetId :=
  Dict.get?_remove_ne _ _ _ hNe

theorem get?_storeQos2Inbound_ne (session : Session) (entry : Qos2InboundEntry)
    (hNe : packetId ≠ other) : (session.storeQos2Inbound other entry).1.qos2Inbound.get? packetId =
      session.qos2Inbound.get? packetId := by
  grind [Session.storeQos2Inbound]

section OtherPubrel

variable {shared : Shared} {env : Env} {connId : Nat} {key : SessionKey}
  {packetId other : UInt16} {result : Shared × Effects}
  (hPubrel : applyQos2Pubrel shared env connId other = some result)
  (hOther : ∀ session, resolveSession shared connId = some session → key = session.key →
    packetId ≠ other)
include hPubrel hOther

theorem keepsNone_pubrel : KeepsNone key packetId shared.sessions result.1.sessions := by
  apply (keepsNone_quiet key packetId).applyQos2Pubrel hPubrel
  intro session entry hSession _
  have hKey : (session.takeQos2Inbound other).1.key = session.key := rfl
  constructor
  · intro hNone
    refine (heldInbound_putSession_same (resolveSession_stored hSession) hKey ?_).trans hNone
    simp_all [get?_takeQos2Inbound_ne]
  · intro released hNone
    unfold restoreQos2Inbound
    split
    · next found hGet =>
      obtain ⟨inbound, hInbound⟩ := storeQos2Inbound_inbound found other entry
      refine (heldInbound_putSession_same (stored_of_get? hGet) (by rw [hInbound]; rfl)
        ?_).trans hNone
      grind [get?_storeQos2Inbound_ne]
    · exact hNone

theorem keepsHeld_pubrel (Detaches : Prop) (entry : Qos2InboundEntry) :
    KeepsHeld (fun session => Detaches → session.dropsStateAtDisconnect = false) key packetId entry
      shared.sessions result.1.sessions := by
  apply (keepsHeld_unbind env Detaches key packetId entry).applyQos2Pubrel hPubrel
  intro session taken hSession _
  have hKey : (session.takeQos2Inbound other).1.key = session.key := rfl
  constructor
  · intro hBound
    refine ⟨(keepsBound_inbound env).inbound _ _ _ (resolveSession_stored hSession) hBound, ?_⟩
    intro hHolds
    apply hHolds.putSession (resolveSession_stored hSession) hKey
    intro hOwner hDurable hEntry
    rw [get?_takeQos2Inbound_ne session (hOther session hSession hOwner)]
    exact ⟨hDurable, hEntry⟩
  · intro released hBound
    refine ⟨(keepsBound_inbound env).restoreQos2Inbound released session.key other taken hBound, ?_⟩
    intro hHolds
    unfold restoreQos2Inbound
    split
    · next found hGet =>
      obtain ⟨inbound, hInbound⟩ := storeQos2Inbound_inbound found other taken
      apply hHolds.putSession (stored_of_get? hGet) (by rw [hInbound]; rfl)
      intro hOwner hDurable hEntry
      rw [KeyedMap.key_of_get? hGet] at hOwner
      rw [get?_storeQos2Inbound_ne found taken (hOther session hSession hOwner), hInbound]
      exact ⟨hDurable, hEntry⟩
    · exact hHolds

end OtherPubrel

/-- A PUBLISH never takes the place of a publication that is held. -/
theorem keepsHeld_applyQos2Publish (Detaches : Prop) (key : SessionKey) (packetId : UInt16)
    (entry : Qos2InboundEntry) (shared : Shared) (connId : Nat) (topic : Topic)
    (publish : PublishIn) :
    KeepsHeld (fun session => Detaches → session.dropsStateAtDisconnect = false) key packetId entry
      shared.sessions (applyQos2Publish shared connId topic publish).1.sessions := by
  intro hBound
  refine ⟨(keepsBound_inbound .plain).applyQos2Publish shared connId topic publish hBound, ?_⟩
  intro hHolds
  unfold applyQos2Publish
  split
  · exact hHolds
  · split
    · exact hHolds
    · next session hSession =>
      split
      · exact hHolds
      · next hFree =>
        let stored : Qos2InboundEntry :=
          { topic, retain := publish.retain, payload := publish.payload }
        obtain ⟨inbound, hInbound⟩ :=
          storeQos2Inbound_inbound session publish.packetId stored
        simp only
        split
        · apply hHolds.putSession (resolveSession_stored hSession) (by rw [hInbound]; rfl)
          intro _ hDurable hEntry
          have hNe : packetId ≠ publish.packetId := by
            rintro rfl
            exact hFree (by simp [Session.hasQos2Inbound, hEntry])
          rw [get?_storeQos2Inbound_ne session stored hNe, hInbound]
          exact ⟨hDurable, hEntry⟩
        · exact hHolds

theorem heldInbound_of_holdsOn {good : Session → Prop} {sessions : SessionManager}
    (hHolds : HoldsOn good key packetId entry sessions) :
    heldInbound sessions key packetId = some entry := by
  obtain ⟨session, hGet, -, hEntry⟩ := hHolds
  exact heldInbound_eq_some_iff.mpr ⟨session, hGet, hEntry⟩

/-- A PUBREL that is not one of the session for the packet id. -/
theorem ne_of_not_isPubrel {connId : Nat} (hInput : t.input.2 = .pubrel connId other)
    (hNot : isPubrel key packetId t = false) (session : Session)
    (hSession : resolveSession t.before connId = some session) (hOwner : key = session.key) :
    packetId ≠ other := by
  rintro rfl
  simp [isPubrel, hInput, hSession, hOwner] at hNot

section Step

variable {key : SessionKey} {packetId : UInt16} {t : Handled}
  (hBound : Bound t.before.sessions) (hStep : t.IsStep step)
include hBound hStep

/-- An orderly frame that does not release a publication leaves it where it is. -/
theorem held_kept (hGet : t.before.sessions.sessions.get? key = some session)
    (hEntry : session.qos2Inbound.get? packetId = some entry)
    (hOrderly : Orderly key packetId t session entry) (hNot : isPubrel key packetId t = false) :
    heldInbound t.after.sessions key packetId = some entry := by
  obtain ⟨before, ⟨env, event⟩, effects, after⟩ := t
  have hRule := keepsHeld_unbind env (event.detaches = true) key packetId entry
  have hHolds : HoldsOn (fun session => event.detaches = true →
      session.dropsStateAtDisconnect = false) key packetId entry before.sessions :=
    ⟨session, hGet, hOrderly.durable, hEntry⟩
  obtain ⟨hEnvBound, hEnv⟩ := hRule.withEnv before env hBound
  obtain ⟨connId, req, looksV5, rfl⟩ | ⟨connId, publish, rfl⟩ | ⟨connId, other, rfl⟩ | hPlain :=
    event.kinds
  · change handleBind (before.withEnv env) env connId (.ok req) looksV5 = _ at hStep
    have hResumed : ∀ identity, authenticate env req = .ok identity →
        requestKey env req identity = key → req.cleanStart = false :=
      fun identity => hOrderly.resumed connId req looksV5 identity rfl
    have hUnexpired := hOrderly.unexpired connId req looksV5 rfl
    obtain ⟨-, hKeeps⟩ :=
      (keepsHeld_bind env req key packetId entry hResumed).handleBind
        (keepsHeld_unexpired env.now key packetId entry).quiet hStep hEnvBound
    exact heldInbound_of_holdsOn (hKeeps ⟨session, hGet, hUnexpired, hEntry⟩)
  · obtain ⟨-, hKeeps⟩ := hRule.applyPublish hStep
      (fun hRejected => Event.detaches_of_unbinds (Event.unbinds_of_rejected hRejected))
      (fun shared topic => keepsHeld_applyQos2Publish _ key packetId entry shared connId topic
        publish) hEnvBound
    exact heldInbound_of_holdsOn (hKeeps (hEnv hHolds))
  · obtain ⟨-, hKeeps⟩ := keepsHeld_pubrel hStep (ne_of_not_isPubrel rfl hNot) _ entry hEnvBound
    exact heldInbound_of_holdsOn (hKeeps (hEnv hHolds))
  · obtain ⟨-, hKeeps⟩ := hRule.plainStep hStep hPlain
      (fun _ hUnbinds => Event.detaches_of_unbinds hUnbinds)
      (fun _ => keepsHeld_durable _ key packetId entry) hBound
    exact heldInbound_of_holdsOn (hKeeps hHolds)

/-- Under a packet id that holds nothing, only a PUBLISH puts something. -/
theorem none_kept (hNone : heldInbound t.before.sessions key packetId = none)
    (hNot : isPubrel key packetId t = false)
    (hPublish : ∀ connId publish, t.input.2 ≠ .publish connId publish) :
    heldInbound t.after.sessions key packetId = none := by
  obtain ⟨before, ⟨env, event⟩, effects, after⟩ := t
  obtain ⟨hEnvBound, -⟩ := noGain_quiet.withEnv before env hBound
  have hGained (hOld : ∀ entry, heldInbound after.sessions key packetId = some entry →
      heldInbound before.sessions key packetId = some entry) :
      heldInbound after.sessions key packetId = none := by
    simp_all [Option.eq_none_iff_forall_ne_some]
  obtain ⟨connId, req, looksV5, rfl⟩ | ⟨connId, publish, rfl⟩ | ⟨connId, other, rfl⟩ | hPlain :=
    event.kinds
  · change handleBind (before.withEnv env) env connId (.ok req) looksV5 = _ at hStep
    obtain ⟨-, hOld⟩ := (noGain_bind env req).handleBind noGain_quiet hStep hEnvBound
    exact hGained (hOld key packetId)
  · exact absurd rfl (hPublish connId publish)
  · exact keepsNone_pubrel hStep (ne_of_not_isPubrel rfl hNot) hNone
  · obtain ⟨-, hOld⟩ := (noGain_unbind env).plainStep hStep hPlain (fun _ _ => trivial)
      (fun _ => noGain_quiet) hBound
    exact hGained (hOld key packetId)

end Step

theorem isPubrel_elim (hPubrel : isPubrel key packetId t = true) :
    ∃ connId session, t.input.2 = .pubrel connId packetId ∧
      resolveSession t.before connId = some session ∧ session.key = key := by
  grind [isPubrel, Option.map_eq_some_iff]

theorem handedOn_reply (shared : Shared) (frame : Option OutFrame) :
    handedOn shared shared (.reply frame) = [] := by
  simp [handedOn, Effects.reply]

theorem pubrel_releases (hStep : t.IsStep step)
    (hOrderly : OrderlyStep key packetId t) (hPubrel : isPubrel key packetId t = true)
    (hId : packetId ≠ 0) :
    handedOn t.before t.after t.output = heldPublications key packetId t.before ∧
      heldInbound t.after.sessions key packetId = none := by
  obtain ⟨connId, session, hInput, hSession, rfl⟩ := isPubrel_elim hPubrel
  obtain ⟨before, ⟨env, event⟩, effects, after⟩ := t
  obtain rfl : event = .pubrel connId packetId := hInput
  have hStored := resolveSession_stored hSession
  have hHeld : heldInbound before.sessions session.key packetId =
      session.qos2Inbound.get? packetId := by
    rw [heldInbound, hStored]
    rfl
  have hResolve : resolveSession (before.withEnv env) connId = some session := hSession
  change applyQos2Pubrel (before.withEnv env) env connId packetId = some (after, effects) at hStep
  have hId' : ¬ (packetId == 0) = true := by simpa using hId
  simp only [applyQos2Pubrel, if_neg hId', hResolve, Session.takeQos2Inbound] at hStep
  show handedOn (before.withEnv env) after effects = _ ∧ _
  rw [heldPublications, hHeld]
  cases hEntry : session.qos2Inbound.get? packetId with
  | none =>
    rw [hEntry] at hStep
    obtain ⟨rfl, rfl⟩ := Prod.mk.inj (Option.some.inj hStep)
    exact ⟨handedOn_reply _ _, hHeld.trans hEntry⟩
  | some entry =>
    rw [hEntry] at hStep
    have hSafe := hOrderly session entry hStored hEntry
    let taken : Session := (session.takeQos2Inbound packetId).1
    have hDisk : DiskWorks ((before.withEnv env).putSession taken).sessions :=
      hSafe.disk hPubrel
    obtain ⟨hHanded, hQuiet⟩ := releaseTaken_handsOn hStep hDisk (hSafe.delay hPubrel)
    refine ⟨hHanded, hQuiet _ (keepsNone_quiet session.key packetId).toFrameRule ?_⟩
    grind [Shared.putSession, Session.key, heldInbound_putSession]

/-- A PUBREL with packet id 0 is not answered and changes nothing. -/
theorem pubrel_zero (hStep : t.IsStep step)
    (hPubrel : isPubrel key 0 t = true) :
    handedOn t.before t.after t.output = [] ∧ t.output.replies = [] ∧
      heldPublications key 0 t.after = heldPublications key 0 t.before := by
  obtain ⟨connId, session, hInput, hSession, rfl⟩ := isPubrel_elim hPubrel
  obtain ⟨before, ⟨env, event⟩, effects, after⟩ := t
  obtain rfl : event = .pubrel connId 0 := hInput
  have hSame : step before (env, .pubrel connId 0) = some (before.withEnv env, .none) := rfl
  rw [Transition.IsStep, hSame] at hStep
  obtain ⟨rfl, rfl⟩ := Prod.mk.inj (Option.some.inj hStep)
  exact ⟨handedOn_reply (before.withEnv env) none, rfl, rfl⟩

/-- An orderly frame accounts for the publications of the session: those it held and took
are those it released and still holds. -/
theorem conserves_step (hBound : Bound t.before.sessions)
    (hStep : t.IsStep step)
    (hOrderly : OrderlyStep key packetId t) :
    heldPublications key packetId t.before ++ takenBy key packetId t =
      releasedBy key packetId t ++ heldPublications key packetId t.after := by
  cases hPubrel : isPubrel key packetId t with
  | true =>
    grind [isPubrel_elim, takenBy, releasedBy, pubrel_zero, pubrel_releases, heldPublications]
  | false =>
    rw [releasedBy, hPubrel, if_neg Bool.false_ne_true, List.nil_append]
    cases hHeld : heldInbound t.before.sessions key packetId with
    | some entry =>
      obtain ⟨session, hGet, hEntry⟩ := heldInbound_eq_some_iff.mp hHeld
      have hKept := held_kept hBound hStep hGet hEntry (hOrderly session entry hGet hEntry)
        hPubrel
      grind [takenBy, heldPublications]
    | none => grind [heldPublications, takenBy, none_kept]

def Completed (key : SessionKey) (packetId : UInt16) (t : Handled) : Prop :=
  isPubrel key packetId t = true ∧ .pubCompOut packetId ∈ t.output.replies

def qos2Reading (topic : String) : PublishIn :=
  { topic := topic.toList, packetId := 5, qos := 2, retain := false, topicAlias := none,
    props := .empty, payload := [42] }

def qos2Exchange (topic : String) (releases : List Env) : List (Env × Event) :=
  [(Env.plain, .bind 7 (.ok (plainRequest "meter".toList)) false),
    (Env.plain, .publish 7 (qos2Reading topic))] ++
    releases.map fun env => (env, .pubrel 7 5)

/-- The publications that `meter` took and released under packet id 5, and the PUBCOMPs it
got for them. -/
def tally (run : List Handled) : List Publication × List Publication × Nat :=
  (run.flatMap (takenBy meter 5), run.flatMap (releasedBy meter 5),
    (run.filter fun t => isPubrel meter 5 t && t.output.replies.contains (.pubCompOut 5)).length)

def sample : Publication := ⟨topicA, false, [42]⟩

theorem orderlyStep_plain (hEnv : t.input.1 = Env.plain) (hDetaches : t.input.2.detaches = false)
    (hBind : ∀ connId req looksV5, t.input.2 ≠ .bind connId (.ok req) looksV5) :
    OrderlyStep key packetId t := by
  intro session entry _ _
  constructor
  · intro hDetaches'
    rw [hDetaches] at hDetaches'
    cases hDetaches'
  · intro connId req looksV5 hInput
    exact absurd hInput (hBind connId req looksV5)
  · simp_all
  · intro _
    rw [hEnv]
    exact Or.inr nofun
  · intro _
    rw [hEnv]
    exact fun _ _ _ => rfl

def durableNode : SessionManager := { SessionManager.new with storeInstalled := true }

def archive : List (Env × Event) :=
  [(Env.plain, .bind 2 (.ok (plainRequest "archive".toList)) false),
    (Env.plain, .subscribe 2 (subscribeTo "archive".toList "a".toList 1)),
    (Env.plain, .unbind 2 (some "archive".toList) false)]

end IndraMqtt.Kernel

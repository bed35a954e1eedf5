import IndraMqtt.Edge.Conn

/-! What one event can do to a connection. The handlers of a connected client only add frames
that are requests, only add writes, and leave the client id and the last will of the session
alone. Bind frames come from a CONNECT and from the announcement of a core. -/
namespace IndraMqtt.Edge

variable {metadata : List UInt8}

/-! ### Traces -/

def LinkFrame.isRequest (frame : LinkFrame) : Bool :=
  match frame.body with
  | .request _ _ _ => true
  | .bind _ _ => false

def AddsRequests (frames next : List LinkFrame) : Prop :=
  ∃ new, next = frames ++ new ∧ ∀ frame ∈ new, frame.isRequest = true

theorem AddsRequests.refl (frames : List LinkFrame) : AddsRequests frames frames :=
  ⟨[], (List.append_nil frames).symm, by simp⟩

theorem AddsRequests.trans {frames middle next : List LinkFrame} (hFirst : AddsRequests frames middle)
    (hSecond : AddsRequests middle next) : AddsRequests frames next := by
  obtain ⟨new, rfl, hNew⟩ := hFirst
  obtain ⟨newer, rfl, hNewer⟩ := hSecond
  exact ⟨new ++ newer, List.append_assoc .., List.forall_mem_append.mpr ⟨hNew, hNewer⟩⟩

open List (prefix_refl prefix_append)

theorem AddsRequests.isPrefix {frames next : List LinkFrame} (hAdds : AddsRequests frames next) :
    frames <+: next := by
  obtain ⟨new, rfl, -⟩ := hAdds
  exact prefix_append frames new

def Process.frames : Process → List LinkFrame
  | .awaitConnect conn => conn.frames
  | .connected conn => conn.frames
  | .awaitCore conn => conn.frames
  | .ended _ frames _ => frames

def Process.writes : Process → List (List UInt8)
  | .awaitConnect conn => conn.writes
  | .connected conn => conn.writes
  | .awaitCore conn => conn.writes
  | .ended _ _ writes => writes

def Process.pending : Process → Option Pending
  | .awaitConnect conn => conn.state
  | _ => none

def Process.session : Process → Option Session
  | .connected conn => some conn.state
  | .awaitCore conn => some conn.state
  | _ => none

/-- What the events of a bound session do, those apart that rebind it. -/
structure Follows (conn : Conn Session) (frames : List LinkFrame) (writes : List (List UInt8))
    (pending : Option Pending) (session : Option Session) : Prop where
  frames : AddsRequests conn.frames frames
  writes : conn.writes <+: writes
  pending : pending = none
  clientId : ∀ found ∈ session, found.clientId = conn.state.clientId
  will : ∀ found ∈ session, found.will = conn.state.will

/-- The same for the data after it. -/
abbrev Conn.Carries (conn next : Conn Session) : Prop :=
  Follows conn next.frames next.writes none (some next.state)

abbrev Process.Carries (process : Process) (conn : Conn Session) : Prop :=
  Follows conn process.frames process.writes process.pending process.session

variable {conn middle next : Conn Session} {frames : List LinkFrame} {writes : List (List UInt8)}
  {pending : Option Pending} {session : Option Session} {process : Process}

theorem Follows.ended (hFollows : Follows conn frames writes pending session) :
    Follows conn frames writes none none where
  frames := hFollows.frames
  writes := hFollows.writes
  pending := rfl
  clientId := by simp
  will := by simp

theorem Conn.Carries.kept (hFrames : next.frames = conn.frames)
    (hWrites : conn.writes <+: next.writes) (hClient : next.state.clientId = conn.state.clientId)
    (hWill : next.state.will = conn.state.will) : conn.Carries next where
  frames := hFrames ▸ AddsRequests.refl _
  writes := hWrites
  pending := rfl
  clientId := by simpa using hClient
  will := by simpa using hWill

theorem Conn.Carries.refl (conn : Conn Session) : conn.Carries conn :=
  .kept rfl (prefix_refl _) rfl rfl

variable {opcode : Opcode} {payload : List UInt8} (env : Env)

/-- The data after a request was handed to the link. -/
theorem Conn.Carries.sent
    (hFrames : next.frames = (conn.send (.request opcode metadata payload)).frames)
    (hWrites : conn.writes <+: next.writes) (hClient : next.state.clientId = conn.state.clientId)
    (hWill : next.state.will = conn.state.will) : conn.Carries next where
  frames := ⟨_, hFrames, by simp [LinkFrame.isRequest]⟩
  writes := hWrites
  pending := rfl
  clientId := by simpa using hClient
  will := by simpa using hWill

theorem Conn.Carries.trans (hFirst : conn.Carries middle)
    (hSecond : Follows middle frames writes pending session) :
    Follows conn frames writes pending session where
  frames := hFirst.frames.trans hSecond.frames
  writes := hFirst.writes.trans hSecond.writes
  pending := hSecond.pending
  clientId := fun found hFound =>
    (hSecond.clientId found hFound).trans (hFirst.clientId middle.state rfl)
  will := fun found hFound => (hSecond.will found hFound).trans (hFirst.will middle.state rfl)

theorem Conn.Carries.written (conn : Conn Session) (bytes : List UInt8) :
    conn.Carries (conn.write bytes) :=
  .kept rfl (prefix_append _ _) rfl rfl

theorem Conn.Carries.emptied (conn : Conn Session) : conn.Carries { conn with buffer := [] } :=
  .kept rfl (prefix_refl _) rfl rfl

open Conn

/-! ### Packets -/

/-- What the handler of a packet does: the bytes that wait are none of its business. -/
structure Conn.Handled (conn next : Conn Session) : Prop where
  carries : conn.Carries next
  buffer : next.buffer = conn.buffer

theorem Conn.Handled.refl (conn : Conn Session) : conn.Handled conn := ⟨.refl conn, rfl⟩

/-- A request was handed to the link, whatever the link answers. -/
theorem Conn.Handled.sent
    (hFrames : next.frames = (conn.send (.request opcode metadata payload)).frames)
    (hWrites : next.writes = conn.writes) (hClient : next.state.clientId = conn.state.clientId)
    (hWill : next.state.will = conn.state.will) (hBuffer : next.buffer = conn.buffer) :
    conn.Handled next :=
  ⟨.sent hFrames (hWrites ▸ prefix_refl _) hClient hWill, hBuffer⟩

theorem handleSubscribePacket_handled (payload : List UInt8) (conn : Conn Session) :
    conn.Handled (handleSubscribePacket env payload conn).conn := by
  unfold handleSubscribePacket
  split
  · exact .refl conn
  split
  · exact .refl conn
  dsimp only
  split <;> exact .sent rfl rfl rfl rfl rfl

theorem handlePublishPacket_handled (payload : List UInt8) (flags : Nat)
    (conn : Conn Session) : conn.Handled (handlePublishPacket env payload flags conn).conn := by
  unfold handlePublishPacket
  split
  · exact .refl conn
  split
  · exact .refl conn
  dsimp only
  split
  · exact .sent rfl rfl rfl rfl rfl
  · split <;> exact .sent rfl rfl rfl rfl rfl

theorem handlePingreq_handled (conn : Conn Session) :
    conn.Handled (handlePingreq env conn).conn := by
  have hWritten : conn.Handled (conn.write [0xD0, 0x00]) := ⟨.written conn _, rfl⟩
  unfold handlePingreq
  split <;> exact hWritten

theorem handleDisconnect_handled (payload : List UInt8) (conn : Conn Session) :
    conn.Handled (handleDisconnect payload conn).conn := by
  unfold handleDisconnect
  split
  · split
    · exact .refl conn
    · exact .sent rfl rfl rfl rfl rfl
  · exact .sent rfl rfl rfl rfl rfl

theorem handleAck_handled (opcode : Opcode) (encode : Nat → Option (List UInt8))
    (payload : List UInt8) (conn : Conn Session) :
    conn.Handled (handleAck env opcode encode payload conn).conn := by
  unfold handleAck
  split
  · exact .refl conn
  split
  · exact .refl conn
  split
  · exact .refl conn
  dsimp only
  split
  · exact .sent rfl rfl rfl rfl rfl
  · split <;> exact .sent rfl rfl rfl rfl rfl

theorem handleMqttPacket_handled (packet : Packet) (conn : Conn Session) :
    conn.Handled (handleMqttPacket env packet conn).conn := by
  unfold handleMqttPacket
  split
  · exact handleSubscribePacket_handled env packet.payload conn
  split
  · exact handlePublishPacket_handled env packet.payload packet.flags conn
  split
  · exact handlePingreq_handled env conn
  split
  · exact handleDisconnect_handled packet.payload conn
  split
  · exact handleAck_handled env _ _ packet.payload conn
  split
  · exact handleAck_handled env _ _ packet.payload conn
  split
  · exact handleAck_handled env _ _ packet.payload conn
  split
  · exact handleAck_handled env _ _ packet.payload conn
  · exact .refl conn

section Loop

variable (env : Env) {buf rest : List UInt8} {packet : Packet}
  (hFramed : decodePacket buf = .ok packet rest)

include hFramed

theorem handleConnectedBytes_ok (hNext : handleMqttPacket env packet conn = .ok next) :
    handleConnectedBytes env buf conn = handleConnectedBytes env rest next := by
  rw [handleConnectedBytes, hFramed]
  simp [hNext]

theorem handleConnectedBytes_stop {cause : StopCause}
    (hNext : handleMqttPacket env packet conn = .stop cause next) :
    handleConnectedBytes env buf conn = next.stop cause := by
  rw [handleConnectedBytes, hFramed]
  simp [hNext]

theorem handleConnectedBytes_raise (hNext : handleMqttPacket env packet conn = .raise next) :
    handleConnectedBytes env buf conn = next.crash := by
  rw [handleConnectedBytes, hFramed]
  simp [hNext]

end Loop

section

variable (env : Env) (bytes : List UInt8)

variable (buf : List UInt8) (conn : Conn Session)

/-- A run over the packets of a buffer. -/
theorem handleConnectedBytes_carries : (handleConnectedBytes env buf conn).Carries conn := by
  induction buf, conn using handleConnectedBytes.induct env with
  | case1 buf conn packet rest hFramed next hNext ih =>
    have hHandled := handleMqttPacket_handled env packet conn
    rw [hNext] at hHandled
    rw [handleConnectedBytes_ok env hFramed hNext]
    exact hHandled.carries.trans ih
  | case2 buf conn packet rest hFramed cause next hNext =>
    have hHandled := handleMqttPacket_handled env packet conn
    rw [hNext] at hHandled
    rw [handleConnectedBytes_stop env hFramed hNext]
    exact hHandled.carries.ended
  | case3 buf conn packet rest hFramed next hNext =>
    have hHandled := handleMqttPacket_handled env packet conn
    rw [hNext] at hHandled
    rw [handleConnectedBytes_raise env hFramed hNext]
    exact hHandled.carries.ended
  | case4 buf conn need hFramed =>
    rw [handleConnectedBytes, hFramed]
    exact Carries.kept rfl (prefix_refl _) rfl rfl
  | case5 buf conn reason hFramed =>
    rw [handleConnectedBytes, hFramed]
    exact (Carries.refl conn).ended

theorem drainBuffer_carries : (drainBuffer env bytes conn).Carries conn :=
  (Carries.emptied conn).trans (handleConnectedBytes_carries env _ _)

/-! ### Holding -/

theorem holdScan_carries (held : List UInt8) : (holdScan env buf conn held).Carries conn := by
  induction buf, conn, held using holdScan.induct env with
  | case1 buf conn held packet rest hFramed hPing written hAnswer ih =>
    rw [holdScan, hFramed]
    simp only [if_pos hPing, if_pos hAnswer]
    exact (Carries.written conn _).trans ih
  | case2 buf conn held packet rest hFramed hPing hAnswer =>
    rw [holdScan, hFramed]
    simp only [if_pos hPing, if_neg hAnswer]
    exact (Carries.written conn _).ended
  | case3 buf conn held packet rest hFramed hOther ih =>
    rw [holdScan, hFramed]
    simp only [if_neg hOther]
    exact ih
  | case4 buf conn held need hFramed =>
    rw [holdScan, hFramed]
    exact Carries.kept rfl (prefix_refl _) rfl rfl
  | case5 buf conn held reason hFramed =>
    rw [holdScan, hFramed]
    exact (Carries.refl conn).ended

theorem holdBytes_carries : (holdBytes env bytes conn).Carries conn := by
  unfold holdBytes
  split
  · exact (Carries.refl conn).ended
  · exact (Carries.emptied conn).trans (holdScan_carries env _ _ _)

theorem resubscribe_carries (subs : List (List UInt8 × Tracked)) (conn : Conn Session) :
    conn.Carries (resubscribe env subs conn).1 := by
  induction subs generalizing conn with
  | nil => exact .refl conn
  | cons entry rest ih =>
    cases hMeta : resubscribeMeta conn.state entry.1 entry.2 with
    | none =>
      simp only [resubscribe, hMeta]
      exact .refl conn
    | some metadata =>
      cases hAnswer : conn.sendAnswer env with
      | none =>
        simp only [resubscribe, hMeta, hAnswer]
        have hSent : conn.Carries (conn.send (.request .subscribeIn metadata [])).advance :=
          .sent rfl (prefix_refl _) rfl rfl
        exact hSent.trans (ih _)
      | some reason =>
        simp only [resubscribe, hMeta, hAnswer]
        exact .sent rfl (prefix_refl _) rfl rfl

theorem resubscribeAll_carries : conn.Carries (resubscribeAll env conn).1 := by
  have hAll := resubscribe_carries env conn.state.subs conn
  unfold resubscribeAll
  dsimp only
  split
  · exact ⟨hAll.frames, hAll.writes, rfl, by simp, by simp⟩
  · exact ⟨hAll.frames, prefix_refl _, rfl, by simp, by simp⟩

theorem handleRebindBinding_carries (metadata : List UInt8) (conn : Conn Session) :
    (handleRebindBinding env metadata conn).Carries conn := by
  cases hBinding : decodeSessionBindingMeta metadata with
  | none =>
    simp only [handleRebindBinding, hBinding]
    exact (Carries.refl conn).ended
  | some binding =>
    simp only [handleRebindBinding, hBinding]
    split
    · exact (Carries.refl conn).ended
    · have hBound : conn.Carries { conn with
          state := { conn.state with sessionId := binding.sessionId, rebinding := false } } :=
        .kept rfl (prefix_refl _) rfl rfl
      split
      · exact hBound.trans (drainBuffer_carries env [] _)
      · have hAgain := hBound.trans (resubscribeAll_carries env _)
        split
        · exact Carries.trans hAgain (drainBuffer_carries env [] _)
        · exact hAgain

/-! ### Frames of the kernel -/

theorem writeThen_carries (next : Session → Session) (conn : Conn Session)
    (hClient : (next conn.state).clientId = conn.state.clientId)
    (hWill : (next conn.state).will = conn.state.will) :
    (writeThen env bytes next conn).Carries conn := by
  unfold writeThen
  dsimp only
  split
  · exact Carries.kept rfl (prefix_append _ _) hClient hWill
  · exact (Carries.written conn bytes).ended

end

section

variable (env : Env) (metadata : List UInt8) (conn : Conn Session)

theorem handleSuback_carries : (handleSuback env metadata conn).Carries conn := by
  cases hId : decodeIdMeta metadata with
  | none =>
    simp only [handleSuback, hId]
    exact (Carries.refl conn).ended
  | some found =>
    simp only [handleSuback, hId]
    split
    · exact Carries.kept rfl (prefix_refl _) rfl rfl
    split
    · split
      · exact (Carries.refl conn).ended
      · exact writeThen_carries env _ _ conn rfl rfl
    · exact Carries.refl conn

theorem handlePubackOut_carries : (handlePubackOut env metadata conn).Carries conn := by
  unfold handlePubackOut
  split
  · split
    · exact writeThen_carries env _ _ conn rfl rfl
    · exact Carries.refl conn
  · exact (Carries.refl conn).ended

theorem handlePubrecOut_carries : (handlePubrecOut env metadata conn).Carries conn := by
  unfold handlePubrecOut
  split
  · exact writeThen_carries env _ _ conn rfl rfl
  · grind [writeThen_carries]
  · exact (Carries.refl conn).ended

end

theorem handleRun_carries (packets : List (List UInt8)) (credit : Option (List UInt8))
    (conn : Conn Session) : (handleRun env packets credit conn).Carries conn := by
  have hWritten := Carries.written conn packets.flatten
  unfold handleRun
  split
  · exact Carries.refl conn
  · dsimp only
    split
    · exact hWritten.ended
    · cases credit with
      | none => exact hWritten
      | some metadata =>
        cases (conn.write packets.flatten).sendAnswer env with
        | none => exact Carries.sent rfl (prefix_append _ _) rfl rfl
        | some reason => exact Carries.sent rfl (prefix_append _ _) rfl rfl

/-! ### Binds -/

/-- The data after the bind frame of a rebind, if it was encoded. -/
structure Rebinds (conn next : Conn Session) : Prop where
  frames : next.frames = conn.frames ∨ ∃ broker seq peer cert,
    next.frames = conn.frames ++
      [{ broker, seq, body := .bind .rebind (conn.state.bindInfo peer cert) }]
  writes : next.writes = conn.writes
  clientId : next.state.clientId = conn.state.clientId
  will : next.state.will = conn.state.will

theorem startRebind_rebinds (conn : Conn Session) : Rebinds conn (startRebind env conn) := by
  unfold startRebind
  dsimp only
  split
  · exact ⟨.inl rfl, rfl, rfl, rfl⟩
  · cases conn.sendAnswer env with
    | none => exact ⟨.inr ⟨_, _, _, _, rfl⟩, rfl, rfl, rfl⟩
    | some reason => exact ⟨.inr ⟨_, _, _, _, rfl⟩, rfl, rfl, rfl⟩

theorem rebindOnce_rebinds (conn : Conn Session) : Rebinds conn (rebindOnce env conn) := by
  unfold rebindOnce
  split
  · exact ⟨.inl rfl, rfl, rfl, rfl⟩
  · exact startRebind_rebinds env conn

/-- Another broker changes nothing else. -/
theorem Conn.adopt_eq_some {σ : Type} {conn adopted : Conn σ} {pid : Nat} {pinnedAlive : Bool}
    {own : Option Nat} (hAdopt : conn.adopt pid pinnedAlive own = some adopted) :
    ∃ broker brokers, adopted = { conn with broker, brokers } := by
  grind [Conn.adopt, Option.map_eq_some_iff]

section

variable (env : Env) (pid : Nat) (pinnedAlive : Bool) (own : Option Nat) (conn : Conn Session)

theorem brokerUpConnected_cases : brokerUpConnected env pid pinnedAlive own conn = .connected conn ∨
      ∃ next, brokerUpConnected env pid pinnedAlive own conn = .awaitCore next ∧
        Rebinds conn next := by
  unfold brokerUpConnected
  split
  · exact .inl rfl
  · cases hAdopt : conn.adopt pid pinnedAlive own with
    | none => exact .inl rfl
    | some adopted =>
      obtain ⟨broker, brokers, rfl⟩ := Conn.adopt_eq_some hAdopt
      have hRebinds := startRebind_rebinds env { conn with broker, brokers }
      exact .inr ⟨_, rfl, hRebinds.frames, hRebinds.writes, hRebinds.clientId, hRebinds.will⟩

theorem brokerUpAwaitCore_rebinds :
    Rebinds conn (brokerUpAwaitCore env pid pinnedAlive own conn) := by
  unfold brokerUpAwaitCore
  split
  · exact ⟨.inl rfl, rfl, rfl, rfl⟩
  split
  · exact rebindOnce_rebinds env conn
  · cases hAdopt : conn.adopt pid pinnedAlive own with
    | none => exact ⟨.inl rfl, rfl, rfl, rfl⟩
    | some adopted =>
      obtain ⟨broker, brokers, rfl⟩ := Conn.adopt_eq_some hAdopt
      have hRebinds := rebindOnce_rebinds env { conn with broker, brokers }
      exact ⟨hRebinds.frames, hRebinds.writes, hRebinds.clientId, hRebinds.will⟩

end

/-- The first bind of a CONNECT says what is kept as pending. -/
def FirstBind (pending : Pending) (info : BindInfo (List UInt8)) : Prop :=
  ∃ cleanStart peer cert, info = pending.bindInfo cleanStart peer cert

def bindsSession (payload : List UInt8) (conn : Conn (Option Pending)) : Bool :=
  match decodeConnect payload with
  | .error _ => false
  | .ok connect =>
    match makePending conn.pskIdentity connect with
    | none => false
    | some pending =>
      (encodeBindMeta env.isPeerIp (pending.bindInfo connect.cleanStart
        (env.peer conn.frames.length) (env.cert conn.frames.length))).isSome &&
        (conn.sendAnswer env).isNone

/-- What a CONNECT does, as far as the bytes behind it matter. -/
inductive ConnectSteps (env : Env) (payload : List UInt8) (conn : Conn (Option Pending)) : Prop where
  | refused (cause : StopCause) (hBinds : bindsSession env payload conn = false)
      (hStep : ∀ rest, handleConnectPacket env payload rest conn = conn.stop cause)
  | unsent (cause : StopCause) (pending : Pending) (info : BindInfo (List UInt8))
      (hBinds : bindsSession env payload conn = false)
      (hFirst : FirstBind pending info)
      (hStep : ∀ rest, handleConnectPacket env payload rest conn =
        (conn.send (.bind .first info)).stop cause)
  | bound (pending : Pending) (info : BindInfo (List UInt8))
      (hBinds : bindsSession env payload conn = true)
      (hFirst : FirstBind pending info)
      (hStep : ∀ rest, handleConnectPacket env payload rest conn =
        .awaitConnect { (conn.send (.bind .first info)).advance with
          state := some pending, buffer := rest })

theorem handleConnectPacket_steps (payload : List UInt8)
    (conn : Conn (Option Pending)) : ConnectSteps env payload conn := by
  cases hConnect : decodeConnect payload with
  | error reason =>
    apply ConnectSteps.refused .protocolError
    · simp [bindsSession, hConnect]
    · simp [handleConnectPacket, hConnect]
  | ok connect =>
    cases hPending : makePending conn.pskIdentity connect with
    | none =>
      apply ConnectSteps.refused .protocolError
      · simp [bindsSession, hConnect, hPending]
      · simp [handleConnectPacket, hConnect, hPending]
    | some pending =>
      have hFirst : FirstBind pending (pending.bindInfo connect.cleanStart
          (env.peer conn.frames.length) (env.cert conn.frames.length)) := ⟨_, _, _, rfl⟩
      cases hMeta : encodeBindMeta env.isPeerIp (pending.bindInfo connect.cleanStart
          (env.peer conn.frames.length) (env.cert conn.frames.length)) with
      | none =>
        apply ConnectSteps.refused .protocolError
        · simp [bindsSession, hConnect, hPending, hMeta]
        · simp [handleConnectPacket, hConnect, hPending, hMeta]
      | some metadata =>
        cases hAnswer : conn.sendAnswer env with
        | none =>
          apply ConnectSteps.bound pending _ ?_ hFirst
          · simp [handleConnectPacket, hConnect, hPending, hMeta, hAnswer]
          · simp [bindsSession, hConnect, hPending, hMeta, hAnswer]
        | some reason =>
          apply ConnectSteps.unsent (classifySendError reason) pending _ ?_ hFirst
          · simp [handleConnectPacket, hConnect, hPending, hMeta, hAnswer]
          · simp [bindsSession, hConnect, hPending, hMeta, hAnswer]

/-- The data after a core was announced to a connection that waits: the pending bind may have
been sent again. -/
structure Resends (conn next : Conn (Option Pending)) : Prop where
  frames : next.frames = conn.frames ∨ ∃ pending broker seq peer cert, conn.state = some pending ∧
    next.frames = conn.frames ++
      [{ broker, seq, body := .bind .resend (pending.bindInfo false peer cert) }]
  state : next.state = conn.state

theorem resendBind_resends {pending : Pending} {conn : Conn (Option Pending)}
    (hPending : conn.state = some pending) : Resends conn (resendBind env pending conn) := by
  unfold resendBind
  dsimp only
  split
  · exact ⟨.inl rfl, rfl⟩
  · cases conn.sendAnswer env with
    | none => exact ⟨.inr ⟨pending, _, _, _, _, hPending, rfl⟩, rfl⟩
    | some reason => exact ⟨.inr ⟨pending, _, _, _, _, hPending, rfl⟩, rfl⟩

theorem brokerUpAwaitConnect_resends (pid : Nat) (pinnedAlive : Bool)
    (own : Option Nat) (conn : Conn (Option Pending)) :
    Resends conn (brokerUpAwaitConnect env pid pinnedAlive own conn) := by
  unfold brokerUpAwaitConnect
  split
  · exact ⟨.inl rfl, rfl⟩
  · cases hAdopt : conn.adopt pid pinnedAlive own with
    | none => exact ⟨.inl rfl, rfl⟩
    | some adopted =>
      obtain ⟨broker, brokers, rfl⟩ := Conn.adopt_eq_some hAdopt
      cases hPending : conn.state with
      | none => exact ⟨.inl rfl, hPending.symm⟩
      | some pending =>
        have hResends : Resends { conn with broker, brokers }
            (resendBind env pending { conn with broker, brokers }) :=
          resendBind_resends env hPending
        simp only [hPending] at hResends ⊢
        exact ⟨hPending ▸ hResends.frames, hPending ▸ hResends.state⟩

section

variable {binding : Binding} {pending : Pending} {conn : Conn (Option Pending)} (env : Env)
  (hBinding : decodeSessionBindingMeta metadata = some binding)
  (hPending : conn.state = some pending)
include hBinding hPending

/-- A binding that can be decoded and answered: its CONNACK is written, and where it accepts the
session, the bytes that wait are handled. -/
theorem handleSessionBinding_eq {bytes : List UInt8}
    (hConnack : connack pending.protoLevel binding = some bytes) (buffer : List UInt8) :
    handleSessionBinding env metadata { conn with buffer } =
      if !conn.writeAnswer env then
        .ended (some .sendFailed) conn.frames (conn.writes ++ [bytes])
      else if binding.returnCode = 0 then
        handleConnectedBytes env buffer { conn.write bytes with
          buffer := [], state := pending.session binding.sessionId }
      else .ended (some .kernelClose) conn.frames (conn.writes ++ [bytes]) := by
  simp only [handleSessionBinding, hBinding, hPending, hConnack, drainBuffer, List.append_nil]
  rfl

/-- Such a binding, as far as the bytes that wait matter. -/
theorem handleSessionBinding_cases :
    (∀ buffer, handleSessionBinding env metadata { conn with buffer } =
        .ended none conn.frames conn.writes) ∨
      ∃ bytes, (∃ cause, ∀ buffer, handleSessionBinding env metadata { conn with buffer } =
          .ended (some cause) conn.frames (conn.writes ++ [bytes])) ∨
        ∀ buffer, handleSessionBinding env metadata { conn with buffer } =
          handleConnectedBytes env buffer { conn.write bytes with
            buffer := [], state := pending.session binding.sessionId } := by
  cases hConnack : connack pending.protoLevel binding with
  | none =>
    simp only [handleSessionBinding, hBinding, hPending, hConnack]
    exact .inl fun _ => rfl
  | some bytes =>
    have hAnswer := handleSessionBinding_eq env hBinding hPending hConnack
    apply Or.inr
    cases hWrite : conn.writeAnswer env with
    | false => simp_all
    | true =>
      by_cases hAccepted : binding.returnCode = 0
      · simp only [hWrite, if_pos hAccepted] at hAnswer
        exact ⟨bytes, .inr hAnswer⟩
      · simp_all

end

/-! ### Whole events -/

/-- What an event does to a client with a session. -/
inductive BoundSteps (conn : Conn Session) : Process → Prop where
  | follows {process : Process} (hCarries : process.Carries conn) : BoundSteps conn process
  | rebinds {next : Conn Session} (hRebinds : Rebinds conn next) : BoundSteps conn (.awaitCore next)

variable (conn : Conn Session)

/-- A client that stays as it is, connected or held. -/
theorem BoundSteps.connected : BoundSteps conn (.connected conn) :=
  .follows (Carries.refl conn)

theorem BoundSteps.awaitCore : BoundSteps conn (.awaitCore conn) :=
  .follows (Carries.refl conn)

theorem BoundSteps.stop (cause : StopCause) : BoundSteps conn (conn.stop cause) :=
  .follows (Carries.refl conn).ended

variable (env : Env) (event : Event)

theorem stepConnected_steps (conn : Conn Session) :
    BoundSteps conn (stepConnected env event conn) := by
  cases event with
  | tcp bytes => exact .follows (drainBuffer_carries env bytes conn)
  | tcpClosed => exact .stop conn .peerClosed
  | tcpError => exact .stop conn .tcpError
  | brokerUp pid pinnedAlive own =>
    rw [stepConnected]
    cases brokerUpConnected_cases env pid pinnedAlive own conn with
    | inl hKept =>
      rw [hKept]
      exact .connected conn
    | inr hAdopted =>
      obtain ⟨next, hNext, hRebinds⟩ := hAdopted
      rw [hNext]
      exact .rebinds hRebinds
  | brokerDown pid =>
    cases pid with
    | none => exact .awaitCore conn
    | some pid =>
      rw [stepConnected]
      split
      · exact .awaitCore conn
      · exact .connected conn
  | brokerFrame opcode metadata =>
    cases opcode with
    | sessionBinding => exact .connected conn
    | subackOut => exact .follows (handleSuback_carries env metadata conn)
    | pubackOut => exact .follows (handlePubackOut_carries env metadata conn)
    | pubrecOut => exact .follows (handlePubrecOut_carries env metadata conn)
    | pubrelOut | pubcompOut =>
      simp only [stepConnected, handlePubrelOut, handlePubcompOut]
      split
      · exact .follows (writeThen_carries env _ _ conn rfl rfl)
      · exact .follows (Carries.refl conn).ended
    | connClose =>
      simp only [stepConnected, handleConnClose]
      split
      · exact .follows (Carries.written conn _).ended
      · exact .follows (Carries.refl conn).ended
    | other => exact .connected conn
  | publishRun packets credit => exact .follows (handleRun_carries env packets credit conn)
  | connectTimeout => exact .connected conn
  | keepaliveTimeout => exact .stop conn .keepaliveTimeout

theorem stepAwaitCore_steps (conn : Conn Session) :
    BoundSteps conn (stepAwaitCore env event conn) := by
  cases event with
  | tcp bytes => exact .follows (holdBytes_carries env bytes conn)
  | tcpClosed => exact .stop conn .peerClosed
  | tcpError => exact .stop conn .tcpError
  | brokerUp pid pinnedAlive own =>
    exact .rebinds (brokerUpAwaitCore_rebinds env pid pinnedAlive own conn)
  | brokerDown pid => exact .awaitCore conn
  | brokerFrame opcode metadata =>
    cases opcode with
    | sessionBinding => exact .follows (handleRebindBinding_carries env metadata conn)
    | _ => exact .awaitCore conn
  | publishRun packets credit => exact .awaitCore conn
  | connectTimeout => exact .awaitCore conn
  | keepaliveTimeout => exact .awaitCore conn

/-- What an event does to a connection that waits for its CONNECT or for its binding. -/
inductive AwaitSteps (conn : Conn (Option Pending)) : Process → Prop where
  | ended (cause : Option StopCause) (writes : List (List UInt8)) :
      AwaitSteps conn (.ended cause conn.frames writes)
  | waits {next : Conn (Option Pending)} (hResends : Resends conn next) :
      AwaitSteps conn (.awaitConnect next)
  | unsent {pending : Pending} {info : BindInfo (List UInt8)} (cause : Option StopCause)
      (writes : List (List UInt8)) (hFirst : FirstBind pending info) :
      AwaitSteps conn (.ended cause (conn.send (.bind .first info)).frames writes)
  | binds {pending : Pending} {info : BindInfo (List UInt8)} {next : Conn (Option Pending)}
      (hFirst : FirstBind pending info)
      (hFrames : next.frames = (conn.send (.bind .first info)).frames)
      (hState : next.state = some pending) : AwaitSteps conn (.awaitConnect next)
  | bound {pending : Pending} {bound : Conn Session} {process : Process}
      (hPending : conn.state = some pending) (hFrames : bound.frames = conn.frames)
      (hClient : bound.state.clientId = pending.clientId) (hWill : bound.state.will = pending.will)
      (hCarries : process.Carries bound) : AwaitSteps conn process

/-- Other bytes in the buffer are no step. -/
theorem Resends.buffered {conn : Conn (Option Pending)} (buffer : List UInt8) :
    Resends conn { conn with buffer } :=
  ⟨.inl rfl, rfl⟩

theorem handleConnectBytes_steps (buf : List UInt8) (conn : Conn (Option Pending)) :
    AwaitSteps conn (handleConnectBytes env buf { conn with buffer := [] }) := by
  unfold handleConnectBytes
  cases decodePacket buf with
  | more need => exact .waits (.buffered buf)
  | error reason => exact .ended _ _
  | ok packet rest =>
    dsimp only
    split
    · cases handleConnectPacket_steps env packet.payload { conn with buffer := [] } with
      | refused cause hBinds hStep =>
        rw [hStep]
        exact .ended _ _
      | unsent cause pending info hBinds hFirst hStep =>
        rw [hStep]
        exact .unsent _ _ hFirst
      | bound pending info hBinds hFirst hStep =>
        rw [hStep]
        exact .binds hFirst rfl rfl
    · exact .ended _ _

theorem handleSessionBinding_steps (metadata : List UInt8)
    (conn : Conn (Option Pending)) : AwaitSteps conn (handleSessionBinding env metadata conn) := by
  cases hBinding : decodeSessionBindingMeta metadata with
  | none =>
    simp only [handleSessionBinding, hBinding]
    exact .ended _ _
  | some binding =>
    cases hPending : conn.state with
    | none =>
      simp only [handleSessionBinding, hBinding, hPending]
      exact .ended _ _
    | some pending =>
      cases handleSessionBinding_cases env hBinding hPending with
      | inl hCrash =>
        have hStep := hCrash conn.buffer
        rw [hStep]
        exact .ended _ _
      | inr hAnswered =>
        obtain ⟨bytes, ⟨cause, hEnded⟩ | hDrained⟩ := hAnswered
        · have hStep := hEnded conn.buffer
          rw [hStep]
          exact .ended _ _
        · have hStep := hDrained conn.buffer
          rw [hStep]
          exact .bound hPending rfl rfl rfl (handleConnectedBytes_carries env _ _)

theorem stepAwaitConnect_steps (conn : Conn (Option Pending)) :
    AwaitSteps conn (stepAwaitConnect env event conn) := by
  have hKept : AwaitSteps conn (.awaitConnect conn) := .waits (.buffered conn.buffer)
  cases event with
  | tcp bytes => exact handleConnectBytes_steps env _ conn
  | tcpClosed => exact .ended _ _
  | tcpError => exact .ended _ _
  | brokerUp pid pinnedAlive own =>
    exact .waits (brokerUpAwaitConnect_resends env pid pinnedAlive own conn)
  | brokerDown pid => exact hKept
  | brokerFrame opcode metadata =>
    cases opcode with
    | sessionBinding => exact handleSessionBinding_steps env metadata conn
    | _ => exact hKept
  | publishRun packets credit => exact hKept
  | connectTimeout => exact .ended _ _
  | keepaliveTimeout => exact hKept

/-! ### The frames of a run -/

theorem BoundSteps.isPrefix (hSteps : BoundSteps conn process) : conn.frames <+: process.frames := by
  cases hSteps with
  | follows hCarries => exact hCarries.frames.isPrefix
  | rebinds hRebinds =>
    rw [Process.frames]
    obtain hSame | ⟨broker, seq, peer, cert, hFrames⟩ := hRebinds.frames
    · rw [hSame]
    · rw [hFrames]
      exact prefix_append _ _

theorem AwaitSteps.isPrefix {conn : Conn (Option Pending)} (hSteps : AwaitSteps conn process) :
    conn.frames <+: process.frames := by
  cases hSteps with
  | ended cause writes => exact prefix_refl _
  | waits hResends =>
    rw [Process.frames]
    obtain hSame | ⟨pending, broker, seq, peer, cert, -, hFrames⟩ := hResends.frames
    · rw [hSame]
    · rw [hFrames]
      exact prefix_append _ _
  | unsent cause writes hFirst => exact prefix_append _ _
  | binds hFirst hFrames hState =>
    rw [Process.frames, hFrames]
    exact prefix_append _ _
  | bound hPending hFrames hClient hWill hCarries => exact hFrames ▸ hCarries.frames.isPrefix

theorem handleEvent_isPrefix (process : Process) (event : Event) :
    process.frames <+: (handleEvent env process event).frames := by
  cases process with
  | awaitConnect conn => exact (stepAwaitConnect_steps env event conn).isPrefix
  | connected conn => exact (stepConnected_steps env event conn).isPrefix
  | awaitCore conn => exact (stepAwaitCore_steps env event conn).isPrefix
  | ended cause frames writes => exact prefix_refl _

theorem run_isPrefix (events : List Event) (process : Process) :
    process.frames <+: (run env events process).frames := by
  induction events generalizing process with
  | nil => exact prefix_refl _
  | cons event events ih => exact (handleEvent_isPrefix env process event).trans (ih _)

theorem run_append (events later : List Event) (process : Process) :
    run env (events ++ later) process = run env later (run env events process) :=
  List.foldl_append

theorem run_ended (events : List Event) (cause : Option StopCause)
    (frames : List LinkFrame) (writes : List (List UInt8)) :
    run env events (.ended cause frames writes) = .ended cause frames writes := by
  induction events with
  | nil => rfl
  | cons event events ih => exact ih

end IndraMqtt.Edge

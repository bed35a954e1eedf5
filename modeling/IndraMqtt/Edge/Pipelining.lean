import IndraMqtt.Edge.Forwarding
import IndraMqtt.Edge.Steps

/-! Bytes that a client sends behind its CONNECT, before or after the kernel binds the session.
`handle_connect_packet` stashes what arrived together with the CONNECT and drains it with the
binding. A chunk that arrives between the two goes through `handle_connect_bytes` once more, which
knows no other packet than a CONNECT. The reference run receives the whole stream in one chunk. -/

namespace IndraMqtt.Edge

variable {bytes : List UInt8}

/-! ### Unfinished packets -/

/-- The bytes are the beginning of a packet: `decode_packet` asks for more. -/
def unfinished (bytes : List UInt8) : Bool :=
  match decodePacket bytes with
  | .more _ => true
  | .ok _ _ => false
  | .error _ => false

theorem unfinished_iff : unfinished bytes = true ↔ ∃ need, decodePacket bytes = .more need := by
  grind [unfinished]

theorem decodePacket_ne_more (hFramed : unfinished bytes = false) (need : Nat) :
    decodePacket bytes ≠ .more need := by
  intro hMore
  rw [unfinished, hMore] at hFramed
  cases hFramed

theorem decodePacket_behind (hFramed : unfinished bytes = false) (tail : List UInt8) :
    decodePacket (bytes ++ tail) = (decodePacket bytes).behind tail :=
  decodePacket_append bytes tail (decodePacket_ne_more hFramed)

/-- The beginning of an unfinished packet is unfinished. -/
theorem unfinished_of_append {tail : List UInt8} (hMore : unfinished (bytes ++ tail) = true) :
    unfinished bytes = true := by
  grind [unfinished, decodePacket_behind, Framed.behind]

variable {chunks front : List (List UInt8)} {conn : Conn (Option Pending)} {connect : Packet}
  {behind : List UInt8} (env : Env)

theorem exists_finishing (hChunks : chunks ≠ [])
    (hFramed : unfinished (bytes ++ chunks.flatten) = false) :
    ∃ front chunk back, chunks = front ++ chunk :: back ∧
      (front = [] ∨ unfinished (bytes ++ front.flatten) = true) ∧
      unfinished (bytes ++ front.flatten ++ chunk) = false := by
  induction chunks generalizing bytes with
  | nil => exact absurd rfl hChunks
  | cons chunk chunks ih =>
    cases hHead : unfinished (bytes ++ chunk) with
    | false => exact ⟨[], chunk, chunks, rfl, .inl rfl, by simpa using hHead⟩
    | true =>
      rw [List.flatten_cons, ← List.append_assoc] at hFramed
      have hMore : chunks ≠ [] := by grind
      grind

/-- All chunks but the last end before the packet does exactly when no chunk is behind it. -/
theorem unfinished_dropLast_iff {back : List (List UInt8)} {chunk : List UInt8}
    (hFront : front = [] ∨ unfinished front.flatten = true)
    (hFinished : unfinished (front.flatten ++ chunk) = false) :
    unfinished (front ++ chunk :: back).dropLast.flatten = true ↔ back = [] := by
  cases back with
  | nil => grind [unfinished, decodePacket]
  | cons next back => grind [List.dropLast_append_of_ne_nil, unfinished_of_append]

/-! ### Chunks before the binding -/

theorem run_unfinished (chunks : List (List UInt8)) (conn : Conn (Option Pending))
    (hMore : chunks = [] ∨ unfinished (conn.buffer ++ chunks.flatten) = true) :
    run env (chunks.map .tcp) (.awaitConnect conn) =
      .awaitConnect { conn with buffer := conn.buffer ++ chunks.flatten } := by
  induction chunks generalizing conn with
  | nil =>
    rw [List.flatten_nil, List.append_nil]
    rfl
  | cons chunk chunks ih =>
    have hAll : unfinished (conn.buffer ++ chunk ++ chunks.flatten) = true := by
      simpa using hMore
    obtain ⟨need, hChunk⟩ := unfinished_iff.mp (unfinished_of_append hAll)
    simp_all [handleEvent, stepAwaitConnect, handleConnectBytes, run]

/-- The chunk that finishes a packet hands all bytes so far to `handle_connect_bytes`. -/
theorem run_finishing
    (hFront : front = [] ∨ unfinished (conn.buffer ++ front.flatten) = true) (chunk : List UInt8)
    (back : List (List UInt8)) : run env ((front ++ chunk :: back).map .tcp) (.awaitConnect conn) =
      run env (back.map .tcp) (handleConnectBytes env (conn.buffer ++ front.flatten ++ chunk)
        { conn with buffer := [] }) := by
  rw [List.map_append, run_append, run_unfinished env front conn hFront]
  rfl

/-- A finished packet behind a CONNECT that waits for its binding ends the process before a byte
was written, or it is a CONNECT and brings another frame. -/
theorem run_finished_behind (hChunks : chunks ≠ [])
    (hFramed : unfinished (conn.buffer ++ chunks.flatten) = false) :
    (∃ cause frames, run env (chunks.map .tcp) (.awaitConnect conn) =
        .ended (some cause) frames conn.writes) ∨
      ∃ packet rest, decodePacket (conn.buffer ++ chunks.flatten) = .ok packet rest ∧
        packet.type = 1 ∧
        conn.frames.length < (run env (chunks.map .tcp) (.awaitConnect conn)).frames.length := by
  obtain ⟨front, chunk, back, rfl, hFront, hFinished⟩ := exists_finishing hChunks hFramed
  rw [run_finishing env hFront]
  have hAll := decodePacket_behind hFinished back.flatten
  rw [handleConnectBytes]
  cases hRead : decodePacket (conn.buffer ++ front.flatten ++ chunk) with
  | more need => exact absurd hRead (decodePacket_ne_more hFinished need)
  | error reason => exact .inl ⟨_, _, run_ended env _ _ _ _⟩
  | ok packet rest =>
    dsimp only
    by_cases hType : packet.type = 1
    · rw [if_pos hType]
      cases handleConnectPacket_steps env packet.payload { conn with buffer := [] } with
      | refused cause hBinds hStep =>
        rw [hStep]
        exact .inl ⟨_, _, run_ended env _ _ _ _⟩
      | unsent cause pending info hBinds hFirst hStep =>
        rw [hStep]
        exact .inl ⟨_, _, run_ended env _ _ _ _⟩
      | bound pending info hBinds hFirst hStep =>
        apply Or.inr
        refine ⟨packet, rest ++ back.flatten, ?_, hType, ?_⟩
        · rw [hRead] at hAll
          simpa [Framed.behind] using hAll
        · rw [hStep]
          -- later chunks take no frame back
          refine Nat.lt_of_lt_of_le ?_ (run_isPrefix env _ _).length_le
          simp [Process.frames, Conn.advance, Conn.send]
    · rw [if_neg hType]
      exact .inl ⟨_, _, run_ended env _ _ _ _⟩

/-! ### Chunks after the binding -/

/-- Once connected, a chunk continues where the bytes before it ended. -/
theorem handleConnectedBytes_append (bytes tail : List UInt8) (conn : Conn Session)
    (hBuffer : conn.buffer = []) :
    handleEvent env (handleConnectedBytes env bytes conn) (.tcp tail) =
      handleConnectedBytes env (bytes ++ tail) conn := by
  have hBehind {bytes : List UInt8} {framed : Framed Packet} (hFramed : decodePacket bytes = framed)
      (hMore : ∀ need, framed ≠ .more need) : decodePacket (bytes ++ tail) = framed.behind tail :=
    hFramed ▸ decodePacket_append bytes tail (hFramed ▸ hMore)
  induction bytes, conn using handleConnectedBytes.induct env with
  | case1 bytes conn packet rest hFramed next hNext ih =>
    have hHandled := handleMqttPacket_handled env packet conn
    rw [hNext] at hHandled
    rw [handleConnectedBytes_ok env hFramed hNext,
      handleConnectedBytes_ok env (hBehind hFramed (by simp)) hNext]
    exact ih (hHandled.buffer.trans hBuffer)
  | case2 bytes conn packet rest hFramed cause next hNext =>
    rw [handleConnectedBytes_stop env hFramed hNext,
      handleConnectedBytes_stop env (hBehind hFramed (by simp)) hNext]
    rfl
  | case3 bytes conn packet rest hFramed next hNext =>
    rw [handleConnectedBytes_raise env hFramed hNext,
      handleConnectedBytes_raise env (hBehind hFramed (by simp)) hNext]
    rfl
  | case4 bytes conn need hFramed =>
    have hSame : { conn with buffer := [] } = conn := by rw [← hBuffer]
    rw [handleConnectedBytes, hFramed]
    simp only [handleEvent, stepConnected, drainBuffer]
    rw [hSame]
  | case5 bytes conn reason hFramed =>
    rw [handleConnectedBytes, hFramed, handleConnectedBytes.eq_def env (bytes ++ tail),
      hBehind hFramed (by simp)]
    rfl

theorem run_connected (bytes : List UInt8) (chunks : List (List UInt8))
    {conn : Conn Session} (hBuffer : conn.buffer = []) :
    run env (chunks.map .tcp) (handleConnectedBytes env bytes conn) =
      handleConnectedBytes env (bytes ++ chunks.flatten) conn := by
  induction chunks generalizing bytes with
  | nil =>
    rw [List.flatten_nil, List.append_nil]
    rfl
  | cons chunk chunks ih => simp_all [handleConnectedBytes_append, run]

/-! ### The binding -/

section Binding

variable (env : Env) {metadata : List UInt8} {binding : Binding} {conn : Conn (Option Pending)}
  {pending : Pending} (hBinding : decodeSessionBindingMeta metadata = some binding)
  (hPending : conn.state = some pending)

include hBinding hPending

/-- Chunks after the binding could as well have waited for it. -/
theorem run_binding (bytes : List UInt8) (late : List (List UInt8)) :
    run env (late.map .tcp) (handleSessionBinding env metadata { conn with buffer := bytes }) =
      handleSessionBinding env metadata { conn with buffer := bytes ++ late.flatten } := by
  cases handleSessionBinding_cases env hBinding hPending with
  | inl hCrash => rw [hCrash, hCrash, run_ended]
  | inr hAnswered => grind [run_ended, run_connected]

/-- A binding ends the process for a cause only after its CONNACK was written. -/
theorem handleSessionBinding_ne_unwritten (buffer : List UInt8) (cause : StopCause)
    (frames : List LinkFrame) :
    handleSessionBinding env metadata { conn with buffer } ≠ .ended (some cause) frames [] := by
  intro hEnds
  have hUnwritten := congrArg Process.writes hEnds
  cases handleSessionBinding_cases env hBinding hPending with
  | inl hCrash =>
    rw [hCrash] at hEnds
    cases hEnds
  | inr hAnswered =>
    rcases hAnswered with ⟨connack, ⟨cause, hEnded⟩ | hDrained⟩
    · rw [hEnded] at hUnwritten
      simp [Process.writes] at hUnwritten
    · have hCarries := (handleConnectedBytes_carries env buffer { conn.write connack with
        buffer := [], state := pending.session binding.sessionId }).writes
      simp_all [Process.writes, Conn.write]

/-- A second CONNECT behind the first one brings no frame when it waits for the binding. -/
theorem handleSessionBinding_connect_frames {packet : Packet} {buffer rest : List UInt8}
    (hFramed : decodePacket buffer = .ok packet rest) (hType : packet.type = 1) :
    (handleSessionBinding env metadata { conn with buffer }).frames = conn.frames := by
  cases handleSessionBinding_cases env hBinding hPending with
  | inl hCrash =>
    rw [hCrash]
    rfl
  | inr hAnswered =>
    rcases hAnswered with ⟨connack, ⟨cause, hEnded⟩ | hDrained⟩
    · rw [hEnded]
      rfl
    · have hStops (bound : Conn Session) :
          handleMqttPacket env packet bound = .stop .protocolError bound := by
        simp [handleMqttPacket, hType]
      rw [hDrained, handleConnectedBytes_stop env hFramed (hStops _)]
      rfl

/-- Chunks that arrive before the binding change nothing exactly when there are none, or when no
packet is finished by then. -/
theorem run_waiting_iff (hWrites : conn.writes = []) (back late : List (List UInt8)) :
    run env (late.map .tcp) (handleEvent env (run env (back.map .tcp) (.awaitConnect conn))
        (.brokerFrame .sessionBinding metadata)) =
      handleSessionBinding env metadata
        { conn with buffer := conn.buffer ++ back.flatten ++ late.flatten } ↔
      back = [] ∨ unfinished (conn.buffer ++ back.flatten) = true := by
  constructor
  · intro hSame
    by_contra hBroken
    have hFramed : unfinished (conn.buffer ++ back.flatten) = false :=
      Bool.eq_false_iff.mpr fun hMore => hBroken (.inr hMore)
    cases run_finished_behind env (fun hNil => hBroken (.inl hNil)) hFramed with
    | inl hEnds => grind [handleEvent, run_ended, handleSessionBinding_ne_unwritten]
    | inr hSecond =>
      obtain ⟨packet, rest, hPacket, hType, hMore⟩ := hSecond
      have hStream := decodePacket_behind hFramed late.flatten
      rw [hPacket] at hStream
      have hReference := handleSessionBinding_connect_frames env hBinding hPending hStream hType
      grind [handleEvent_isPrefix, run_isPrefix]
  · intro hMore
    rw [run_unfinished env back conn hMore]
    exact run_binding env hBinding hPending _ late

end Binding

/-! ### Streams -/

section Streams

variable (env : Env) (connId : Nat) (shards : List Nat) (identity : Option (List UInt8))

/-- The chunks of a stream that arrive before the binding, the binding, and the chunks after it. -/
def runSplit (early late : List (List UInt8)) (metadata : List UInt8) : Process :=
  run env (early.map .tcp ++ .brokerFrame .sessionBinding metadata :: late.map .tcp)
    (.awaitConnect (.init connId shards identity))

def runWhole (stream metadata : List UInt8) : Process :=
  run env [.tcp stream, .brokerFrame .sessionBinding metadata]
    (.awaitConnect (.init connId shards identity))

/-- The CONNECT is finished by one chunk, and the chunks behind that one find its answer. -/
theorem runSplit_connect {early : List (List UInt8)}
    (hConnect : decodePacket early.flatten = .ok connect behind) (hType : connect.type = 1) :
    ∃ rest back, behind = rest ++ back.flatten ∧
      (unfinished early.dropLast.flatten = true ↔ back = []) ∧
      ∀ late metadata, runSplit env connId shards identity early late metadata =
        run env (late.map .tcp) (handleEvent env (run env (back.map .tcp)
          (handleConnectPacket env connect.payload rest (.init connId shards identity)))
          (.brokerFrame .sessionBinding metadata)) := by
  have hFramed : unfinished early.flatten = false := by
    rw [unfinished, hConnect]
  have hEarly : early ≠ [] := by
    rintro rfl
    cases hConnect
  obtain ⟨front, chunk, back, rfl, hFront, hFinished⟩ :=
    exists_finishing hEarly (show unfinished ([] ++ early.flatten) = false from hFramed)
  rw [List.nil_append] at hFront hFinished
  have hAll := decodePacket_behind hFinished back.flatten
  have hStream : front.flatten ++ chunk ++ back.flatten = (front ++ chunk :: back).flatten := by
    simp
  rw [hStream, hConnect] at hAll
  cases hRead : decodePacket (front.flatten ++ chunk) with
  | more need => exact absurd hRead (decodePacket_ne_more hFinished need)
  | error reason =>
    rw [hRead] at hAll
    cases hAll
  | ok packet rest =>
    simp only [hRead, Framed.behind, Framed.ok.injEq] at hAll
    obtain ⟨rfl, rfl⟩ := hAll
    refine ⟨rest, back, rfl, unfinished_dropLast_iff hFront hFinished, ?_⟩
    intro late metadata
    have hArrive : run env ((front ++ chunk :: back).map .tcp)
        (.awaitConnect (.init connId shards identity)) =
          run env (back.map .tcp) (handleConnectBytes env (front.flatten ++ chunk)
            (.init connId shards identity)) :=
      run_finishing env hFront chunk back
    rw [runSplit, run_append, hArrive, handleConnectBytes, hRead]
    dsimp only
    rw [if_pos hType]
    rfl

theorem runWhole_connect {stream metadata : List UInt8}
    (hConnect : decodePacket stream = .ok connect behind) (hType : connect.type = 1) :
    runWhole env connId shards identity stream metadata =
      handleEvent env
        (handleConnectPacket env connect.payload behind (.init connId shards identity))
        (.brokerFrame .sessionBinding metadata) := by
  have hHandled : handleConnectBytes env stream (.init connId shards identity) =
      handleConnectPacket env connect.payload behind (.init connId shards identity) := by
    rw [handleConnectBytes, hConnect]
    exact if_pos hType
  rw [← hHandled]
  rfl

/-- The split of a stream that starts with a CONNECT, and the moment at which the binding arrives,
change nothing exactly when the CONNECT leads to no bind, when the chunk that finishes it is the
last one before the binding, or when what arrived behind it by then is no whole packet. -/
theorem runSplit_eq_runWhole_iff (early late : List (List UInt8)) {metadata behind : List UInt8}
    {connect : Packet} {binding : Binding}
    (hConnect : decodePacket early.flatten = .ok connect behind) (hType : connect.type = 1)
    (hBinding : decodeSessionBindingMeta metadata = some binding) :
    runSplit env connId shards identity early late metadata =
        runWhole env connId shards identity (early ++ late).flatten metadata ↔
      bindsSession env connect.payload (.init connId shards identity) = false ∨
        unfinished early.dropLast.flatten = true ∨ unfinished behind = true := by
  obtain ⟨rest, back, rfl, hBack, hSplit⟩ :=
    runSplit_connect env connId shards identity hConnect hType
  have hStream : decodePacket (early ++ late).flatten =
      .ok connect (rest ++ back.flatten ++ late.flatten) := by
    rw [List.flatten_append, decodePacket_append _ _ (by simp [hConnect]), hConnect]
    rfl
  rw [hSplit, runWhole_connect env connId shards identity hStream hType, hBack]
  cases handleConnectPacket_steps env connect.payload (.init connId shards identity) with
  | refused cause hBinds hStep =>
    simp [hStep, hBinds, Conn.stop, run_ended, handleEvent]
  | unsent cause pending info hBinds hFirst hStep =>
    simp [hStep, hBinds, Conn.stop, run_ended, handleEvent, true_or]
  | bound pending info hBinds hFirst hStep =>
    let waiting : Conn (Option Pending) :=
      { ((Conn.init connId shards identity).send (.bind .first info)).advance with
        state := some pending, buffer := rest }
    have hPending : waiting.state = some pending := rfl
    simp only [hStep, hBinds, Bool.true_eq_false, false_or]
    exact run_waiting_iff env hBinding hPending rfl back late

end Streams

def connectA : List UInt8 :=
  [0x10, 13, 0, 4, 0x4D, 0x51, 0x54, 0x54, 4, 2, 0, 60, 0, 1, 0x61]

def boundMeta : List UInt8 := [0, 0, 0, 0, 0, 0, 0, 1, 0, 0]

/-- The CONNECT in two chunks with a PINGREQ behind it, and another PINGREQ after the binding. -/
theorem split_connect_unnoticed :
    runSplit .steady 0 [1] none [connectA.take 5, connectA.drop 5 ++ [0xC0, 0]] [[0xC0], [0]]
        boundMeta =
      runWhole .steady 0 [1] none (connectA ++ [0xC0, 0, 0xC0, 0]) boundMeta := by
  have hConnect : decodePacket [connectA.take 5, connectA.drop 5 ++ [0xC0, 0]].flatten =
      .ok { type := 1, flags := 0, payload := connectA.drop 2 } [0xC0, 0] := by decide +kernel
  have hBinding : decodeSessionBindingMeta boundMeta =
      some { sessionId := 1, sessionPresent := false, returnCode := 0, aliasMax := 0 } := by
    decide +kernel
  apply (runSplit_eq_runWhole_iff .steady 0 [1] none _ _ hConnect rfl hBinding).mpr
  exact .inr (.inl (by decide +kernel))

/-- A PINGREQ in a chunk of its own before the binding ends the connection. Behind the CONNECT in
one chunk it is answered. -/
theorem pingreq_before_binding_closes :
    (∃ frames, runSplit .steady 0 [1] none [connectA, [0xC0, 0]] [] boundMeta =
        .ended (some .protocolError) frames []) ∧
      (runWhole .steady 0 [1] none (connectA ++ [0xC0, 0]) boundMeta).writes =
        [[0x20, 2, 0, 0], [0xD0, 0]] := by
  constructor
  · exact ⟨_, rfl⟩
  · decide +kernel

end IndraMqtt.Edge

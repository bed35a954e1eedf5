import IndraMqtt.Edge.Steps

/-! What the edge holds for a client while its core is down. Every chunk has the bytes that are
held scanned once more, with the pings in them answered and taken out. -/
namespace IndraMqtt.Edge

/-- The bytes are the packets in a row, with the beginning of another one behind them. -/
structure Splits (bytes : List UInt8) (packets : List (List UInt8 × Packet)) (tail : List UInt8) :
    Prop where
  bytes : bytes = packets.flatMap (·.1) ++ tail
  framed : ∀ entry ∈ packets, ∀ more, decodePacket (entry.1 ++ more) = .ok entry.2 more
  unfinished : ∃ need, decodePacket tail = .more need

def isPingreq (entry : List UInt8 × Packet) : Bool := entry.2.type = 12

/-- The connection after the packets: one answer for each PINGREQ, and all else is held. -/
def Conn.holding (conn : Conn Session) (packets : List (List UInt8 × Packet))
    (tail : List UInt8) : Conn Session :=
  { conn with
    buffer := (packets.filter (!isPingreq ·)).flatMap (·.1) ++ tail
    writes := conn.writes ++ List.replicate (packets.countP isPingreq) [0xD0, 0x00] }

variable {env : Env} {buf held : List UInt8} {conn after : Conn Session}
  {packets : List (List UInt8 × Packet)}

theorem Splits.cons {front tail : List UInt8} {packet : Packet}
    (hFront : ∀ more, decodePacket (front ++ more) = .ok packet more)
    (hSplits : Splits buf packets tail) : Splits (front ++ buf) ((front, packet) :: packets) tail :=
  ⟨by rw [hSplits.bytes, List.flatMap_cons, List.append_assoc],
    List.forall_mem_cons.mpr ⟨hFront, hSplits.framed⟩, hSplits.unfinished⟩

theorem holdScan_spec (hScan : holdScan env buf conn held = .awaitCore after) :
    ∃ packets tail, Splits buf packets tail ∧ after =
      { conn.holding packets tail with buffer := held ++ (conn.holding packets tail).buffer } := by
  induction buf, conn, held using holdScan.induct env with
  | case1 buf conn held packet rest hFramed hPing written hAnswer ih =>
    rw [holdScan, hFramed] at hScan
    simp only [if_pos hPing, if_pos hAnswer] at hScan
    obtain ⟨packets, tail, hSplits, rfl⟩ := ih hScan
    obtain ⟨front, rfl, hFront⟩ := decodePacket_cut hFramed
    refine ⟨_, tail, hSplits.cons hFront, ?_⟩
    simp [Conn.holding, isPingreq, hPing, written, Conn.write, List.replicate_succ]
  | case2 buf conn held packet rest hFramed hPing hAnswer =>
    rw [holdScan, hFramed] at hScan
    simp only [if_pos hPing, if_neg hAnswer] at hScan
    cases hScan
  | case3 buf conn held packet rest hFramed hOther ih =>
    rw [holdScan, hFramed] at hScan
    simp only [if_neg hOther] at hScan
    obtain ⟨packets, tail, hSplits, rfl⟩ := ih hScan
    obtain ⟨front, rfl, hFront⟩ := decodePacket_cut hFramed
    refine ⟨_, tail, hSplits.cons hFront, ?_⟩
    simp [Conn.holding, isPingreq, hOther]
  | case4 buf conn held need hFramed =>
    rw [holdScan, hFramed] at hScan
    cases hScan
    exact ⟨[], buf, ⟨rfl, by simp, need, hFramed⟩, by simp [Conn.holding]⟩
  | case5 buf conn held reason hFramed =>
    rw [holdScan, hFramed] at hScan
    cases hScan

def Kept (kept : List (List UInt8)) : Prop :=
  ∀ bytes ∈ kept, ∃ packet, packet.type ≠ 12 ∧
    ∀ more, decodePacket (bytes ++ more) = .ok packet more

variable {kept : List (List UInt8)}

/-- Packets that were held before are held again. -/
theorem holdScan_held (hKept : Kept kept) :
    holdScan env (kept.flatten ++ buf) conn held = holdScan env buf conn (held ++ kept.flatten) := by
  induction kept generalizing held with
  | nil => simp
  | cons bytes kept ih =>
    obtain ⟨⟨packet, hOther, hFramed⟩, hRest⟩ := List.forall_mem_cons.mp hKept
    rw [List.flatten_cons, List.append_assoc, holdScan, hFramed]
    simp [hOther, ih hRest]

/-- A chunk continues where the bytes before it ended. -/
theorem holdScan_append (hKept : Kept kept) (hBuffer : conn.buffer = []) {more : List UInt8}
    (hFits : (kept.flatten ++ buf ++ more).length ≤ maxHoldBufferBytes) :
    handleEvent env (holdScan env buf conn kept.flatten) (.tcp more) =
      holdScan env (buf ++ more) conn kept.flatten := by
  generalize hHeld : kept.flatten = held at hFits ⊢
  induction buf, conn, held using holdScan.induct env generalizing kept with
  | case1 buf conn held packet rest hFramed hPing written hAnswer =>
    rename_i ih
    obtain ⟨front, rfl, hFront⟩ := decodePacket_cut hFramed
    rw [holdScan, hFramed, holdScan, List.append_assoc, hFront]
    simp only [if_pos hPing, if_pos hAnswer]
    exact ih hKept hBuffer hHeld (by grind)
  | case2 buf conn held packet rest hFramed hPing hAnswer =>
    obtain ⟨front, rfl, hFront⟩ := decodePacket_cut hFramed
    rw [holdScan, hFramed, holdScan, List.append_assoc, hFront]
    simp only [if_pos hPing, if_neg hAnswer]
    rfl
  | case3 buf conn held packet rest hFramed hOther ih =>
    obtain ⟨front, rfl, hFront⟩ := decodePacket_cut hFramed
    rw [holdScan, hFramed, holdScan, List.append_assoc, hFront]
    have hTaken (tail : List UInt8) :
        (front ++ tail).take ((front ++ tail).length - tail.length) = front := by simp
    simp only [if_neg hOther, hTaken] at ih ⊢
    exact ih (List.forall_mem_append.mpr ⟨hKept, List.forall_mem_singleton.mpr
      ⟨packet, hOther, hFront⟩⟩) hBuffer (by simp [hHeld]) (by simpa using hFits)
  | case4 buf conn held need hFramed =>
    rw [holdScan, hFramed]
    simp only [handleEvent, stepAwaitCore, holdBytes, if_neg (Nat.not_lt.mpr hFits)]
    rw [← hHeld, List.append_assoc, holdScan_held hKept, List.nil_append, ← hBuffer]
  | case5 buf conn held reason hFramed =>
    have hError := decodePacket_append buf more (by simp [hFramed])
    rw [holdScan, hFramed, holdScan, hError, hFramed]
    rfl

theorem holdBytes_append {chunk more : List UInt8}
    (hFits : (conn.buffer ++ (chunk ++ more)).length ≤ maxHoldBufferBytes) :
    handleEvent env (holdBytes env chunk conn) (.tcp more) = holdBytes env (chunk ++ more) conn := by
  rw [holdBytes, holdBytes, if_neg (by grind), if_neg (by grind), ← List.append_assoc]
  exact holdScan_append (show Kept [] from List.forall_mem_nil _) rfl (by simpa using hFits)

/-- Within the limit of the buffer a stream has one result in all chunkings. As long as the process
holds bytes, these are the packets of the stream without the PINGREQs, and each PINGREQ was
answered once. -/
theorem held_in_any_chunks (env : Env) (conn : Conn Session) (chunk : List UInt8)
    (chunks : List (List UInt8)) :
    ((conn.buffer ++ (chunk :: chunks).flatten).length ≤ maxHoldBufferBytes →
      run env ((chunk :: chunks).map .tcp) (.awaitCore conn) =
        holdBytes env (chunk :: chunks).flatten conn) ∧
    ∀ after, holdBytes env (chunk :: chunks).flatten conn = .awaitCore after →
      ∃ packets tail, Splits (conn.buffer ++ (chunk :: chunks).flatten) packets tail ∧
        after = conn.holding packets tail := by
  constructor
  · intro hFits
    induction chunks generalizing chunk with
    | nil => simp [run, handleEvent, stepAwaitCore]
    | cons next chunks ih =>
      have hJoined := ih (chunk ++ next) (by simpa using hFits)
      rw [List.flatten_cons, List.append_assoc, ← List.flatten_cons, ← List.flatten_cons] at hJoined
      rw [← hJoined]
      show run env (chunks.map .tcp) (handleEvent env (holdBytes env chunk conn) (.tcp next)) =
        run env (chunks.map .tcp) (holdBytes env (chunk ++ next) conn)
      rw [holdBytes_append (by grind)]
  · intro after hHeld
    rw [holdBytes] at hHeld
    split at hHeld
    · cases hHeld
    · obtain ⟨packets, tail, hSplits, rfl⟩ := holdScan_spec hHeld
      exact ⟨packets, tail, hSplits, rfl⟩

end IndraMqtt.Edge

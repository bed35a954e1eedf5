import IndraMqtt.Config.SessionConf
import IndraMqtt.Lib.OrbitScan
import IndraMqtt.Session.State
import Mathlib.Order.Interval.Finset.Nat

/-! Packet identifiers of a session. Allocation is the search along the wrapping
counter for an id that no store holds, so it returns exactly while the three
stores leave a nonzero id free. -/
namespace IndraMqtt.Sessions

open Protocol OrbitScan
open UInt16 (ofNat)
open Config.SessionConf (validate_eq_ok_iff default default_valid)

variable {k : Nat} {session' : Session}

namespace Session

def idFree (session : Session) (packetId : UInt16) : Bool :=
  packetId != 0 && !session.idHeld packetId

theorem nextPacketIdLoop_eq_scan (fuel : Nat) (session : Session) : nextPacketIdLoop fuel session =
      (scan (· + 1) session.idFree fuel session.nextPacketId).map
        fun packetId => (packetId, { session with nextPacketId := packetId + 1 }) := by
  induction fuel generalizing session with
  | zero => rfl
  | succ fuel ih =>
    rw [nextPacketIdLoop, scan, ih]
    by_cases hZero : session.nextPacketId = 0
    · simp [hZero, idFree]
      rfl
    · cases hHeld : session.idHeld session.nextPacketId with
      | true =>
        have hMoved : idHeld { session with nextPacketId := session.nextPacketId + 1 }
            session.nextPacketId = true := hHeld
        simp [hZero, idFree, hHeld, hMoved]
        rfl
      | false => grind [idHeld, idFree]

theorem counter_iterate (k : Nat) (counter : UInt16) :
    (· + 1)^[k] counter = counter + ofNat k := by
  induction k with
  | zero => simp
  | succ k ih =>
    rw [Function.iterate_succ_apply', ih, UInt16.ofNat_add, UInt16.add_assoc]
    rfl

variable {session : Session}

/-- The counter comes back after 65536 steps, so more rounds find nothing new. -/
theorem allocatePacketId_of_loop {fuel : Nat} {result : UInt16 × Session}
    (hLoop : nextPacketIdLoop fuel session = some result) :
    session.allocatePacketId = some result := by
  grind [nextPacketIdLoop_eq_scan, Option.map_eq_some_iff, counter_iterate, allocatePacketId,
    scan_of_period]

theorem allocatePacketId_moves {allocated : UInt16 × Session}
    (hAllocate : session.allocatePacketId = some allocated) :
    allocated.1 ≠ 0 ∧ allocated.2 = { session with nextPacketId := allocated.1 + 1 } := by
  grind [allocatePacketId, nextPacketIdLoop_eq_scan, Option.map_eq_some_iff, scan_some, idFree]

/-- The ids of every entry that waits for an acknowledgement. -/
def heldIds (session : Session) : List UInt16 :=
  session.inflight.map (·.packetId) ++ session.inflightSpill.map (·.packetId) ++
    session.qos2Outbound.map (·.packetId)

section

variable (hCount : session.spillCount = session.inflightSpill.length)
include hCount

theorem idHeld_iff (packetId : UInt16) :
    session.idHeld packetId = true ↔ packetId ∈ session.heldIds := by
  grind [idHeld, heldIds]

/-- A returned id is nonzero and held by no entry, and only the counter moves. -/
theorem allocatePacketId_spec {packetId : UInt16}
    (hAllocate : session.allocatePacketId = some (packetId, session')) :
    packetId ≠ 0 ∧ packetId ∉ session.heldIds ∧
      session' = { session with nextPacketId := packetId + 1 } := by
  grind [allocatePacketId, nextPacketIdLoop_eq_scan, Option.map_eq_some_iff, scan_some, idFree,
    idHeld_iff]

/-- Allocation fails to return exactly when every nonzero id is held. -/
theorem allocatePacketId_eq_none_iff :
    session.allocatePacketId = none ↔ ∀ packetId : UInt16, packetId ≠ 0 →
      packetId ∈ session.heldIds := by
  rw [allocatePacketId, nextPacketIdLoop_eq_scan, Option.map_eq_none_iff, scan_eq_none_iff]
  constructor
  · intro hNone packetId hNonzero
    -- the counter reaches every value within one period
    have hReach : (· + 1)^[(packetId - session.nextPacketId).toNat] session.nextPacketId =
        packetId := by
      rw [counter_iterate, UInt16.ofNat_toNat, UInt16.add_comm, UInt16.sub_add_cancel]
    have hReject := hNone _ (packetId - session.nextPacketId).toNat_lt
    simp_all [idFree, idHeld_iff]
  · grind [idFree, idHeld_iff]

theorem allocatePacketId_returns (hFew : session.heldIds.length < 65535) :
    session.allocatePacketId ≠ none := by
  intro hNone
  have hHeld := (allocatePacketId_eq_none_iff hCount).mp hNone
  have hSubset : Finset.Icc 1 65535 ⊆ (session.heldIds.map UInt16.toNat).toFinset := by
    intro k hk
    rw [Finset.mem_Icc] at hk
    have hValue : (ofNat k).toNat = k := UInt16.toNat_ofNat_of_lt' (Nat.lt_succ_of_le hk.2)
    have hNonzero : ofNat k ≠ 0 := by
      intro hZero
      rw [hZero] at hValue
      simp at hValue
      omega
    rw [List.mem_toFinset, List.mem_map]
    exact ⟨_, hHeld _ hNonzero, hValue⟩
  have hCard := (Finset.card_le_card hSubset).trans (List.toFinset_card_le _)
  rw [Nat.card_Icc, List.length_map] at hCard
  omega

end

/-- The bounds that every operation keeps: no store outgrows its cap, and the
spill counter counts the spill. -/
structure WithinCaps (window spill : Nat) (session : Session) : Prop where
  maxInflight_eq : session.maxInflight = window
  maxSpill_eq : session.maxSpill = spill
  inflight_le : session.inflight.length ≤ window
  spill_le : session.inflightSpill.length ≤ spill
  outbound_le : session.qos2Outbound.length ≤ maxQos2Inflight
  spillCount_eq : session.spillCount = session.inflightSpill.length

theorem WithinCaps.heldIds_length_le {window spill : Nat}
    (hCaps : WithinCaps window spill session) :
    session.heldIds.length ≤ window + spill + maxQos2Inflight := by
  have hWindow := hCaps.inflight_le
  have hSpill := hCaps.spill_le
  have hOutbound := hCaps.outbound_le
  simp only [heldIds, List.length_append, List.length_map]
  omega

theorem WithinCaps.created {window spill : Nat} (id : Nat) (clientId : Str) (cleanStart : Bool)
    (now : Nat) (hWindow : 1 ≤ window) (hSpill : 1 ≤ spill) :
    WithinCaps window spill ((new id clientId cleanStart now).applyQos1Limits window spill) where
  maxInflight_eq := by simp [applyQos1Limits, setMaxSpill, setMaxInflight, hWindow]
  maxSpill_eq := by simp [applyQos1Limits, setMaxSpill, hSpill]
  inflight_le := Nat.zero_le _
  spill_le := Nat.zero_le _
  outbound_le := Nat.zero_le _
  spillCount_eq := rfl

section Operations

variable {window spill : Nat} {session : Session}

theorem WithinCaps.trackInflightOrSpill (hWindow : 1 ≤ window) (hSpill : 1 ≤ spill)
    (hCaps : WithinCaps window spill session) (message : InflightMessage) :
    WithinCaps window spill (session.trackInflightOrSpill message).1 := by
  obtain ⟨hMaxInflight, hMaxSpill, hInflight, hSpillLen, hOutbound, hCount⟩ := hCaps
  rw [Session.trackInflightOrSpill]
  split
  · next hRoom =>
    refine ⟨hMaxInflight, hMaxSpill, ?_, hSpillLen, hOutbound, hCount⟩
    simp only [List.length_append, List.length_singleton]
    omega
  · split
    · exact ⟨hMaxInflight, hMaxSpill, hInflight, hSpillLen, hOutbound, hCount⟩
    · next hRoom =>
      refine ⟨hMaxInflight, hMaxSpill, hInflight, ?_, hOutbound, ?_⟩
      · simp only [List.length_append, List.length_singleton]
        omega
      · simp [hCount]

section

variable (hCaps : WithinCaps window spill session)
include hCaps

theorem WithinCaps.ackInflightTimed (packetId : UInt16) :
    WithinCaps window spill (session.ackInflightTimed packetId).1 := by
  obtain ⟨hMaxInflight, hMaxSpill, hInflight, hSpill, hOutbound, hCount⟩ := hCaps
  have hErase := List.length_eraseP_le (p := (·.packetId == packetId)) (l := session.inflight)
  rw [Session.ackInflightTimed]
  split
  · next entry hFind =>
    have hMem := List.mem_of_find?_eq_some hFind
    have hShorter := List.length_eraseP_of_mem hMem (List.find?_some hFind)
    have hPositive := List.length_pos_of_mem hMem
    split
    · exact ⟨hMaxInflight, hMaxSpill, hErase.trans hInflight, hSpill, hOutbound, hCount⟩
    · split
      · exact ⟨hMaxInflight, hMaxSpill, hErase.trans hInflight, hSpill, hOutbound, hCount⟩
      · next promoted rest hRest =>
        rw [hRest] at hSpill hCount
        refine ⟨hMaxInflight, hMaxSpill, ?_, Nat.le_of_succ_le hSpill, hOutbound, ?_⟩
        · simp only [List.length_append, List.length_singleton]
          omega
        · simp only [hCount, List.length_cons]
          rfl
  · split
    · next entry hFind =>
      have hMem := List.mem_of_find?_eq_some hFind
      have hShorter := List.length_eraseP_of_mem hMem (List.find?_some hFind)
      refine ⟨hMaxInflight, hMaxSpill, hInflight, ?_, hOutbound, ?_⟩
      · exact (List.length_eraseP_le ..).trans hSpill
      · simp [hShorter, hCount]
    · exact ⟨hMaxInflight, hMaxSpill, hInflight, hSpill, hOutbound, hCount⟩

theorem WithinCaps.withOutbound {outbound : List Qos2OutboundEntry}
    (hLength : outbound.length ≤ maxQos2Inflight) :
    WithinCaps window spill { session with qos2Outbound := outbound } :=
  ⟨hCaps.1, hCaps.2, hCaps.3, hCaps.4, hLength, hCaps.6⟩

theorem WithinCaps.trackQos2Outbound (entry : Qos2OutboundEntry) :
    WithinCaps window spill (session.trackQos2Outbound entry).1 := by
  rw [Session.trackQos2Outbound]
  split
  · exact hCaps
  · next hRoom =>
    apply hCaps.withOutbound
    rw [List.length_append, List.length_singleton]
    omega

end

theorem markRecReceived_length (packetId : UInt16) (entries : List Qos2OutboundEntry) :
    (markRecReceived packetId entries).length = entries.length := by
  induction entries with
  | nil => rfl
  | cons entry rest ih => grind [markRecReceived]

theorem WithinCaps.completeQos2Pubrec (hCaps : WithinCaps window spill session)
    (packetId : UInt16) : WithinCaps window spill (session.completeQos2Pubrec packetId).1 := by
  apply hCaps.withOutbound
  rw [markRecReceived_length]
  exact hCaps.outbound_le

theorem WithinCaps.ackQos2Pubcomp (hCaps : WithinCaps window spill session)
    (packetId : UInt16) : WithinCaps window spill (session.ackQos2Pubcomp packetId).1 :=
  hCaps.withOutbound ((List.length_eraseP_le ..).trans hCaps.outbound_le)

end Operations

end Session

/-- What the kernel does to the stores of one session. A delivery allocates an
id and then tracks the message under it; the reconnect replay of a queued QoS 1
message allocates an id only. -/
inductive SessionOp where
  | deliverQos1 (topic : Topic) (retain : Bool) (payload : Payload)
  | deliverQos2 (topic : Topic) (retain : Bool) (payload : Payload)
  | allocate
  | puback (packetId : UInt16)
  | pubrec (packetId : UInt16)
  | pubcomp (packetId : UInt16)
  | endCleanSession

namespace Session

def step (session : Session) : SessionOp → Option Session
  | .deliverQos1 topic retain payload => do
      let (packetId, session) ← session.allocatePacketId
      pure (session.trackInflightOrSpill
        { packetId, topic, qos := .atLeastOnce, retain, payload }).1
  | .deliverQos2 topic retain payload => do
      let (packetId, session) ← session.allocatePacketId
      pure (session.trackQos2Outbound
        { packetId, topic, retain, payload, recReceived := false }).1
  | .allocate => session.allocatePacketId.map (·.2)
  | .puback packetId => some (session.ackInflightTimed packetId).1
  | .pubrec packetId => some (session.completeQos2Pubrec packetId).1
  | .pubcomp packetId => some (session.ackQos2Pubcomp packetId).1
  | .endCleanSession => some session.clearInflight.clearQos2Inbound.clearQos2Outbound

def run (session : Session) : List SessionOp → Option Session
  | [] => some session
  | op :: ops => (session.step op).bind fun next => next.run ops

theorem run_append (session : Session) (first second : List SessionOp) :
    session.run (first ++ second) = (session.run first).bind fun next => next.run second := by
  induction first generalizing session with
  | nil => rfl
  | cons op ops ih => simp_all [run, Option.bind_assoc]

variable {window spill : Nat}

theorem WithinCaps.allocatePacketId {packetId : UInt16} (hCaps : WithinCaps window spill session)
    (hAllocate : session.allocatePacketId = some (packetId, session')) :
    WithinCaps window spill session' := by
  rw [(allocatePacketId_spec hCaps.spillCount_eq hAllocate).2.2]
  exact ⟨hCaps.1, hCaps.2, hCaps.3, hCaps.4, hCaps.5, hCaps.6⟩

section

variable (hWindow : 1 ≤ window) (hSpill : 1 ≤ spill) (hCaps : WithinCaps window spill session)
include hWindow hSpill hCaps

theorem WithinCaps.step {op : SessionOp} (hStep : session.step op = some session') :
    WithinCaps window spill session' := by
  cases op with
  | deliverQos1 topic retain payload =>
    obtain ⟨⟨packetId, moved⟩, hAllocate, hTrack⟩ := Option.bind_eq_some_iff.mp hStep
    grind [allocatePacketId, trackInflightOrSpill]
  | deliverQos2 topic retain payload =>
    obtain ⟨⟨packetId, moved⟩, hAllocate, hTrack⟩ := Option.bind_eq_some_iff.mp hStep
    cases hTrack
    exact (hCaps.allocatePacketId hAllocate).trackQos2Outbound _
  | allocate =>
    obtain ⟨⟨packetId, moved⟩, hAllocate, hMoved⟩ := Option.map_eq_some_iff.mp hStep
    cases hMoved
    exact hCaps.allocatePacketId hAllocate
  | puback packetId =>
    cases hStep
    exact hCaps.ackInflightTimed packetId
  | pubrec packetId =>
    cases hStep
    exact hCaps.completeQos2Pubrec packetId
  | pubcomp packetId =>
    cases hStep
    exact hCaps.ackQos2Pubcomp packetId
  | endCleanSession =>
    cases hStep
    exact ⟨hCaps.1, hCaps.2, Nat.zero_le _, Nat.zero_le _, Nat.zero_le _, rfl⟩

theorem WithinCaps.run {ops : List SessionOp} (hRun : session.run ops = some session') :
    WithinCaps window spill session' := by
  induction ops generalizing session with
  | nil =>
    cases hRun
    exact hCaps
  | cons op ops ih =>
    obtain ⟨next, hStep, hRest⟩ := Option.bind_eq_some_iff.mp hRun
    exact ih (hCaps.step hWindow hSpill hStep) hRest

end

/-- The session after `k` deliveries that nobody acknowledged: the ids up to
`k` are held and the counter stands behind them. -/
structure Filled (k : Nat) (session : Session) : Prop where
  counter : session.nextPacketId = UInt16.ofNat (k + 1)
  held : ∀ packetId : UInt16, packetId ∈ session.heldIds ↔
    1 ≤ packetId.toNat ∧ packetId.toNat ≤ k

section

variable (hFilled : Filled k session)
include hFilled

theorem Filled.allocatePacketId (hCaps : WithinCaps window spill session) (hRoom : k < 65535) :
    session.allocatePacketId =
      some (ofNat (k + 1), { session with nextPacketId := ofNat (k + 2) }) := by
  have hValue : (ofNat (k + 1)).toNat = k + 1 :=
    UInt16.toNat_ofNat_of_lt' (Nat.succ_lt_succ hRoom)
  have hNonzero : ofNat (k + 1) ≠ 0 := by
    intro hZero
    rw [hZero] at hValue
    cases hValue
  have hFree : session.idFree (ofNat (k + 1)) = true := by
    have hNotHeld : session.idHeld (ofNat (k + 1)) = false := by
      rw [← Bool.not_eq_true, idHeld_iff hCaps.spillCount_eq, hFilled.held]
      omega
    rw [idFree, hNotHeld, Bool.not_false, Bool.and_true, bne_iff_ne]
    exact hNonzero
  apply @allocatePacketId_of_loop _ 1
  rw [nextPacketIdLoop_eq_scan, hFilled.counter, scan, if_pos hFree, Option.map_some,
    UInt16.ofNat_add (k + 1) 1]
  rfl

theorem Filled.succ (hRoom : k < 65535) (hCounter : session'.nextPacketId = ofNat (k + 2))
    (hHeld : ∀ packetId, packetId ∈ session'.heldIds ↔ packetId ∈ session.heldIds ∨ packetId =
      ofNat (k + 1)) : Filled (k + 1) session' := by
  refine ⟨hCounter, ?_⟩
  intro packetId
  have hValue : (ofNat (k + 1)).toNat = k + 1 :=
    UInt16.toNat_ofNat_of_lt' (Nat.succ_lt_succ hRoom)
  rw [hHeld, hFilled.held, ← UInt16.toNat_inj, hValue]
  omega

theorem Filled.deliverQos2 (hCaps : WithinCaps window spill session) (hRoom : k < 65535)
    (hOutbound : session.qos2Outbound.length < maxQos2Inflight) (topic : Topic) (retain : Bool)
    (payload : Payload) :
    ∃ session', session.step (.deliverQos2 topic retain payload) = some session' ∧
      Filled (k + 1) session' ∧
      session'.qos2Outbound.length = session.qos2Outbound.length + 1 ∧
      session'.inflight = session.inflight ∧ session'.inflightSpill = session.inflightSpill := by
  have hTrack : ¬ maxQos2Inflight ≤ session.qos2Outbound.length := Nat.not_le.mpr hOutbound
  simp only [step, hFilled.allocatePacketId hCaps hRoom, Option.bind_eq_bind, Option.bind_some,
    trackQos2Outbound, if_neg hTrack, Option.pure_def, Option.some.injEq, exists_eq_left']
  grind [Filled.succ, heldIds]

theorem Filled.deliverQos1 (hCaps : WithinCaps window spill session) (hRoom : k < 65535)
    (hStores : session.inflight.length + session.inflightSpill.length < window + spill)
    (topic : Topic) (retain : Bool) (payload : Payload) :
    ∃ session', session.step (.deliverQos1 topic retain payload) = some session' ∧
      Filled (k + 1) session' ∧
      session'.inflight.length + session'.inflightSpill.length =
        session.inflight.length + session.inflightSpill.length + 1 := by
  have hMaxInflight := hCaps.maxInflight_eq
  have hMaxSpill := hCaps.maxSpill_eq
  simp only [step, hFilled.allocatePacketId hCaps hRoom, Option.bind_eq_bind, Option.bind_some,
    trackInflightOrSpill, Option.pure_def, Option.some.injEq, exists_eq_left']
  grind [Filled.succ, heldIds]

end

section

variable {n : Nat} (hWindow : 1 ≤ window) (hSpill : 1 ≤ spill) (hFilled : Filled k session)
  (hCaps : WithinCaps window spill session) (hRoom : k + n ≤ 65535)
include hWindow hSpill hFilled hCaps hRoom

theorem Filled.run_deliverQos2 (hOutbound : session.qos2Outbound.length + n ≤ maxQos2Inflight)
    (topic : Topic) (retain : Bool) (payload : Payload) :
    ∃ session', session.run (List.replicate n (.deliverQos2 topic retain payload)) =
        some session' ∧ Filled (k + n) session' ∧
      session'.inflight = session.inflight ∧ session'.inflightSpill = session.inflightSpill := by
  induction n generalizing k session with
  | zero => exact ⟨session, rfl, hFilled, rfl, rfl⟩
  | succ n ih =>
    obtain ⟨next, hStep, hNext, hLength, hSameWindow, hSameSpill⟩ :=
      hFilled.deliverQos2 hCaps (by omega) (by omega) topic retain payload
    grind [WithinCaps.step, run]

theorem Filled.run_deliverQos1
    (hStores : session.inflight.length + session.inflightSpill.length + n ≤ window + spill)
    (topic : Topic) (retain : Bool) (payload : Payload) :
    ∃ session', session.run (List.replicate n (.deliverQos1 topic retain payload)) =
        some session' ∧ Filled (k + n) session' := by
  induction n generalizing k session with
  | zero => exact ⟨session, rfl, hFilled⟩
  | succ n ih =>
    obtain ⟨next, hStep, hNext, hLength⟩ :=
      hFilled.deliverQos1 hCaps (by omega) (by omega) topic retain payload
    grind [WithinCaps.step, run]

end

def exhaustIds (topic : Topic) (retain : Bool) (payload : Payload) : List SessionOp :=
  List.replicate maxQos2Inflight (.deliverQos2 topic retain payload) ++
    List.replicate (65535 - maxQos2Inflight) (.deliverQos1 topic retain payload)

/-- Caps that together admit 65535 entries let an unacknowledging client hold
every id, and the next allocation never returns. -/
theorem run_exhaustIds (id : Nat) (clientId : Str) (cleanStart : Bool) (now : Nat)
    (hWindow : 1 ≤ window) (hSpill : 1 ≤ spill) (hWide : 65535 ≤ window + spill + maxQos2Inflight)
    (topic : Topic) (retain : Bool) (payload : Payload) :
    ∃ session, ((new id clientId cleanStart now).applyQos1Limits window spill).run
        (exhaustIds topic retain payload) = some session ∧
      ∀ fuel, nextPacketIdLoop fuel session = none := by
  have hCaps := WithinCaps.created id clientId cleanStart now hWindow hSpill
  have hStart : Filled 0 ((new id clientId cleanStart now).applyQos1Limits window spill) := by
    refine ⟨rfl, ?_⟩
    intro packetId
    have hEmpty : ((new id clientId cleanStart now).applyQos1Limits window spill).heldIds = [] :=
      rfl
    rw [hEmpty]
    simp only [List.not_mem_nil, false_iff]
    omega
  obtain ⟨middle, hFirst, hMiddle, hInflight, hSpilled⟩ :=
    hStart.run_deliverQos2 (n := maxQos2Inflight) hWindow hSpill hCaps (by decide) (le_refl _)
      topic retain payload
  have hMiddleCaps := hCaps.run hWindow hSpill hFirst
  have hEmptyStores : middle.inflight.length + middle.inflightSpill.length = 0 := by
    rw [hInflight, hSpilled]
    rfl
  have hFits : maxQos2Inflight ≤ 65535 := by decide
  obtain ⟨last, hSecond, hLast⟩ := hMiddle.run_deliverQos1 (n := 65535 - maxQos2Inflight)
    hWindow hSpill hMiddleCaps (by omega) (by omega) topic retain payload
  have hLastCaps := hMiddleCaps.run hWindow hSpill hSecond
  refine ⟨last, ?_, ?_⟩
  · rw [exhaustIds, run_append, hFirst, Option.bind_some, hSecond]
  · intro fuel
    have hNone : last.allocatePacketId = none := by
      rw [allocatePacketId_eq_none_iff hLastCaps.spillCount_eq]
      intro packetId hNonzero
      rw [hLast.held]
      have hPositive : packetId.toNat ≠ 0 := by
        intro hZero
        exact hNonzero (UInt16.toNat_inj.mp hZero)
      have hBound := packetId.toNat_lt
      omega
    cases hLoop : nextPacketIdLoop fuel last with
    | none => rfl
    | some result =>
      rw [allocatePacketId_of_loop hLoop] at hNone
      cases hNone

/-- Under an accepted configuration, allocation returns a fresh nonzero id in
every reachable state exactly when the window, the spill and the QoS 2 table
together hold fewer entries than there are ids. -/
theorem nextPacketId_returns_iff (conf : Config.SessionConf) (hValid : conf.validate = .ok ())
    (id : Nat) (clientId : Str) (cleanStart : Bool) (now : Nat) :
    (∀ ops session,
      ((new id clientId cleanStart now).applyQos1Limits conf.maxQos1Inflight
        conf.maxQos1Spill).run ops = some session →
      ∃ fuel packetId session', nextPacketIdLoop fuel session = some (packetId, session') ∧
        packetId ≠ 0 ∧
        (∀ entry ∈ session.inflight, entry.packetId ≠ packetId) ∧
        (∀ entry ∈ session.inflightSpill, entry.packetId ≠ packetId) ∧
        ∀ entry ∈ session.qos2Outbound, entry.packetId ≠ packetId) ↔
      conf.maxQos1Inflight + conf.maxQos1Spill + maxQos2Inflight < 65535 := by
  rw [validate_eq_ok_iff] at hValid
  obtain ⟨-, -, -, -, ⟨hWindow, -⟩, ⟨hSpill, -⟩, -⟩ := hValid
  constructor
  · intro hReturns
    rw [← Nat.not_le]
    intro hWide
    obtain ⟨session, hRun, hHangs⟩ := run_exhaustIds id clientId cleanStart now hWindow hSpill
      hWide ⟨"a".toList, rfl⟩ false []
    grind
  · intro hNarrow ops session hRun
    have hCaps := (WithinCaps.created id clientId cleanStart now hWindow hSpill).run
      hWindow hSpill hRun
    have hReturns := allocatePacketId_returns hCaps.spillCount_eq
      (hCaps.heldIds_length_le.trans_lt hNarrow)
    obtain ⟨⟨packetId, session'⟩, hAllocate⟩ := Option.ne_none_iff_exists'.mp hReturns
    obtain ⟨hNonzero, hFree, -⟩ := allocatePacketId_spec hCaps.spillCount_eq hAllocate
    simp only [heldIds, List.mem_append, List.mem_map, not_or, not_exists, not_and] at hFree
    exact ⟨65536, packetId, session', hAllocate, hNonzero, hFree.1.1, hFree.1.2, hFree.2⟩

/-- With the default caps a session holding one delivery of each kind gets a fresh id. -/
theorem nextPacketId_returns_by_default :
    default.validate = .ok () ∧
      ∃ session, ((new 1 "c".toList true 0).applyQos1Limits
            default.maxQos1Inflight
            default.maxQos1Spill).run
          [.deliverQos1 ⟨"a".toList, rfl⟩ false [], .deliverQos2 ⟨"a".toList, rfl⟩ false []] =
            some session ∧
        ∃ fuel packetId session', nextPacketIdLoop fuel session = some (packetId, session') ∧
          packetId ≠ 0 ∧
          (∀ entry ∈ session.inflight, entry.packetId ≠ packetId) ∧
          (∀ entry ∈ session.inflightSpill, entry.packetId ≠ packetId) ∧
          ∀ entry ∈ session.qos2Outbound, entry.packetId ≠ packetId := by
  refine ⟨default_valid, ?_⟩
  have hRuns : (((new 1 "c".toList true 0).applyQos1Limits
      default.maxQos1Inflight default.maxQos1Spill).run
        [.deliverQos1 ⟨"a".toList, rfl⟩ false [],
          .deliverQos2 ⟨"a".toList, rfl⟩ false []]).isSome = true := by
    decide +kernel
  obtain ⟨session, hRun⟩ := Option.isSome_iff_exists.mp hRuns
  exact ⟨session, hRun, (nextPacketId_returns_iff default
    default_valid 1 "c".toList true 0).mpr (by decide) _ session hRun⟩

def wideWindow : Config.SessionConf :=
  { default with maxQos1Inflight := 100000 }

theorem nextPacketId_hangs_with_wideWindow :
    wideWindow.validate = .ok () ∧
      ∃ session, ((new 1 "c".toList true 0).applyQos1Limits wideWindow.maxQos1Inflight
          wideWindow.maxQos1Spill).run (exhaustIds ⟨"a".toList, rfl⟩ false []) = some session ∧
        ∀ fuel, nextPacketIdLoop fuel session = none := by
  refine ⟨?_, ?_⟩
  · rw [validate_eq_ok_iff]
    decide +kernel
  · exact run_exhaustIds 1 "c".toList true 0 (by decide) (by decide) (by decide) _ _ _

end Session

end IndraMqtt.Sessions

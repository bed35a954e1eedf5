import IndraMqtt.Cluster.Admission
import IndraMqtt.Lib.Network

/-! Probes among many nodes. Each message carries the probe it belongs to, which no handler reads:
a ping and a `PingReq` that of `step_probe`, and what a handler sends that of the message it
handled. A node probes one peer at a time, as its background loop does, and waits until a permit
is stored under the number of the probe or the time is over. -/
namespace IndraMqtt.Cluster

open Runs Network SwimMembership
open Option (map_eq_some_iff bind_eq_some_iff)

/-- A probe under way: the number and the target, whether the ping went out, and whether the
other peers were asked. -/
structure Probe where
  seq : UInt64
  target : NodeId
  sent : Bool
  indirect : Bool
  deriving DecidableEq, Repr

structure Peer where
  membership : SwimMembership
  probe : Option Probe
  running : Bool

abbrev ProbeId := NodeId × UInt64

structure Envelope where
  target : NodeId
  message : SwimMessage
  probe : Option ProbeId
  deriving DecidableEq, Repr

/-- What is recorded: that a probe of a target began, that a node answered a ping of a probe,
that a node forwarded a ping under a number, and that it answered a `PingReq` by its own belief. -/
inductive Entry where
  | started (prober : NodeId) (seq : UInt64) (target : NodeId)
  | answered (nodeId : NodeId) (probe : ProbeId)
  | forwarded (nodeId : NodeId) (seq : UInt64)
  | vouched (nodeId : NodeId) (probe : ProbeId)
  deriving DecidableEq, Repr

inductive Event where
  | probe (nodeId target : NodeId) (env : Env)
  | acknowledged (nodeId : NodeId)
  | directTimeout (nodeId : NodeId) (chosen : List NodeId) (env : Env)
  | indirectTimeout (nodeId : NodeId) (env : Env)
  | deliver (envelope : Envelope) (env : Env)
  | sweep (nodeId : NodeId) (env : Env)
  | joinSeed (nodeId seed : NodeId) (env : Env)
  | leave (nodeId : NodeId) (env : Env)
  | broadcast (nodeId : NodeId) (item : GossipItem)
  | stop (nodeId : NodeId)

def Event.nodeId : Event → NodeId
  | probe nodeId _ _ => nodeId
  | acknowledged nodeId => nodeId
  | directTimeout nodeId _ _ => nodeId
  | indirectTimeout nodeId _ => nodeId
  | deliver envelope _ => envelope.target
  | sweep nodeId _ => nodeId
  | joinSeed nodeId _ _ => nodeId
  | leave nodeId _ => nodeId
  | broadcast nodeId _ => nodeId
  | stop nodeId => nodeId

abbrev Mesh := World NodeId Peer Envelope Entry

abbrev Response := Reaction Peer Envelope Entry

def envelopes (probe : Option ProbeId) (sends : List (NodeId × SwimMessage)) : List Envelope :=
  sends.map fun send => ⟨send.1, send.2, probe⟩

def entriesOf (nodeId : NodeId) (envelope : Envelope) (outcome : Outcome) : List Entry :=
  match envelope.message with
  | .ping _ _ _ =>
    if outcome.sends.isEmpty then [] else envelope.probe.toList.map (.answered nodeId)
  | .pingReq seq sender target _ =>
    .forwarded nodeId seq ::
      if outcome.state.believesAlive target then [.vouched nodeId (sender, seq)] else []
  | _ => []

namespace Peer

def answered (peer : Peer) (probe : Probe) : Bool :=
  (probe.sent || probe.indirect) && peer.membership.notified probe.seq

def finish (peer : Peer) (membership : SwimMembership) (probe : Probe) : Peer :=
  { peer with membership := membership.forgetProbe probe.seq, probe := none }

local instance : LawfulBEq NodeId := inferInstance

/-- Peers that `select_k_intermediaries` can return. -/
def mayChoose (peer : Peer) (target : NodeId) (chosen : List NodeId) : Bool :=
  chosen.Nodup && chosen.all (· ∈ peer.membership.intermediaries target) &&
    chosen.length = min peer.membership.config.pingReqMembers
      (peer.membership.intermediaries target).length

def react (crypto : Crypto) (peer : Peer) : Event → Option Response
  | .probe nodeId target env =>
    if peer.probe = none ∧ target ∈ peer.membership.peers then
      let start := peer.membership.startProbe env target
      some {
        peer := {
          peer with
          membership := start.1
          probe := some ⟨start.2.1, target, start.2.2.2, false⟩ }
        sends := envelopes (some (nodeId, start.2.1)) start.2.2.1
        entries := [.started nodeId start.2.1 target] }
    else none
  | .acknowledged _ =>
    peer.probe.bind fun probe =>
      if peer.answered probe then some ⟨peer.finish peer.membership probe, [], []⟩ else none
  | .directTimeout nodeId chosen env =>
    peer.probe.bind fun probe =>
      if !probe.indirect && !peer.answered probe && peer.mayChoose probe.target chosen then
        if chosen.isEmpty then
          some ⟨peer.finish (peer.membership.markNodeSuspect env probe.target) probe, [], []⟩
        else
          some {
            peer := { peer with probe := some { probe with indirect := true } }
            sends := envelopes (some (nodeId, probe.seq))
              (peer.membership.sendPingReqs env probe.seq probe.target chosen)
            entries := [] }
      else none
  | .indirectTimeout _ env =>
    peer.probe.bind fun probe =>
      if probe.indirect && !peer.answered probe then
        some ⟨peer.finish (peer.membership.markNodeSuspect env probe.target) probe, [], []⟩
      else none
  | .deliver envelope env =>
    (peer.membership.handleMessage crypto env envelope.message).map fun outcome => {
      peer := { peer with membership := outcome.state }
      sends := envelopes envelope.probe outcome.sends
      entries := entriesOf envelope.target envelope outcome }
  | .sweep _ env => some ⟨{ peer with membership := peer.membership.sweepSuspects env }, [], []⟩
  | .joinSeed _ seed env =>
    let outcome := peer.membership.joinSeed env seed
    some ⟨{ peer with membership := outcome.state }, envelopes none outcome.sends, []⟩
  | .leave _ env =>
    let outcome := peer.membership.leave env
    some ⟨{ peer with membership := outcome.state }, envelopes none outcome.sends, []⟩
  | .broadcast _ item =>
    some ⟨{ peer with membership := peer.membership.broadcastGossip item }, [], []⟩
  | .stop _ => some ⟨{ peer with running := false }, [], []⟩

end Peer

namespace Mesh

def available (mesh : Mesh) : Event → Bool
  | .deliver envelope _ => envelope ∈ mesh.sent
  | _ => true

/-- One event at a running node. A message whose handling panics is not delivered. -/
def step (crypto : Crypto) (mesh : Mesh) (event : Event) : Option (Mesh × Unit) :=
  let peer := mesh.peers event.nodeId
  if peer.running && available mesh event then
    (peer.react crypto event).map fun response => (mesh.act event.nodeId response, ())
  else none

structure Initial (mesh : Mesh) : Prop where
  localId : ∀ nodeId, (mesh.peers nodeId).membership.localId = nodeId
  idle : ∀ nodeId, (mesh.peers nodeId).probe = none ∧
    (mesh.peers nodeId).membership.pendingAcks = []
  sent : mesh.sent = []
  log : mesh.log = []

end Mesh

/-! ### What a handler does -/

namespace SwimMembership

variable {crypto : Crypto} {node next : SwimMembership} {env : Env}

/-- The name and the numbers that wait for an answer are the same. -/
def Keeps (node next : SwimMembership) : Prop :=
  next.localId = node.localId ∧ next.pendingAcks = node.pendingAcks

theorem keeps_applyMemberUpdate (node : SwimMembership) (env : Env) (update : MemberUpdate) :
    Keeps node (node.applyMemberUpdate env update) := by
  unfold applyMemberUpdate
  split_ifs <;> exact ⟨rfl, rfl⟩

theorem keeps_applyGossipBatch {gossip : List GossipItem}
    (hGossip : node.applyGossipBatch env gossip = some next) : Keeps node next := by
  refine applyGossipBatch_induction ?_ hGossip ⟨rfl, rfl⟩
  intro item _ before after hBefore hItem
  have hUpdate := keeps_applyMemberUpdate before env
  grind [applyGossipItem_cases hItem, Keeps]

theorem keeps_markNodeSuspect (target : NodeId) : Keeps node (node.markNodeSuspect env target) := by
  unfold markNodeSuspect
  split
  · exact ⟨rfl, rfl⟩
  · exact keeps_applyMemberUpdate node env _

theorem keeps_sweepSuspects : Keeps node (node.sweepSuspects env) := by
  rw [sweepSuspects]
  refine List.foldlRecOn _ _ (motive := Keeps node) ⟨rfl, rfl⟩ ?_
  intro before hBefore record _
  grind [keeps_applyMemberUpdate, Keeps, broadcastGossip]

theorem mem_send {target : NodeId} {message : SwimMessage} {send : NodeId × SwimMessage}
    (hMem : send ∈ (env.send target message).1) : send = (target, message) := by
  grind [Env.send]

theorem keeps_applyMemberStates (node : SwimMembership) (env : Env) (states : List MemberState) :
    Keeps node (node.applyMemberStates env states) := by
  refine List.foldlRecOn _ _ (motive := Keeps node) ⟨rfl, rfl⟩ ?_
  intro before hBefore state _
  obtain ⟨hLocal, hPending⟩ := keeps_applyMemberUpdate before env
    ⟨state.nodeId, state.status, state.incarnation, state.address⟩
  exact ⟨hLocal.trans hBefore.1, hPending.trans hBefore.2⟩

inductive Answers (node : SwimMembership) : SwimMessage → NodeId × SwimMessage → Prop where
  | ack {seq : UInt64} {sender : NodeId} {gossip reply : List GossipItem} :
      Answers node (.ping seq sender gossip) (sender, .ack seq node.localId reply)
  | forward {seq : UInt64} {sender target : NodeId} {gossip : List GossipItem} :
      Answers node (.pingReq seq sender target gossip) (target, .ping seq node.localId [])
  | vouch {seq : UInt64} {sender target : NodeId} {gossip : List GossipItem}
      (hAlive : node.believesAlive target) :
      Answers node (.pingReq seq sender target gossip) (sender, .ack seq target [])
  | joinAck {message : SwimMessage} {target sender : NodeId} {members : List MemberState}
      {gossip : List GossipItem} : Answers node message (target, .joinAck sender members gossip)

theorem handleMessage_spec {message : SwimMessage} {outcome : Outcome}
    (hHandled : node.handleMessage crypto env message = some outcome) :
    outcome.state.localId = node.localId ∧
    (∀ seq, (seq, true) ∈ outcome.state.pendingAcks → (seq, true) ∈ node.pendingAcks ∨
      ∃ sender gossip, message = .ack seq sender gossip) ∧
    ∀ send ∈ outcome.sends, Answers outcome.state message send := by
  have hUpdate := @keeps_applyMemberUpdate
  have hStates := @keeps_applyMemberStates
  have hBatch := @keeps_applyGossipBatch node
  have hSend := @mem_send env
  cases message with
  | ack seq sender gossip =>
    obtain ⟨heard, hGossip, rfl⟩ := map_eq_some_iff.mp hHandled
    simp only [notifyOne, List.mem_map]
    grind [Keeps]
  | _ =>
    simp only [handleMessage, map_eq_some_iff] at hHandled
    grind [Keeps, Answers, harvestGossip, admitSender]
end SwimMembership

/-! ### Where an answer comes from -/

/-- What a permit under a number goes back to: a probe of the node under it whose target answered
a ping of it, a ping that the node forwarded under it, or somebody who spoke for the target. -/
def Accounted (log : List Entry) (nodeId : NodeId) (seq : UInt64) : Prop :=
  (∃ target, .started nodeId seq target ∈ log ∧ .answered target (nodeId, seq) ∈ log) ∨
    .forwarded nodeId seq ∈ log ∨ ∃ voucher, .vouched voucher (nodeId, seq) ∈ log

structure PeerTraced (log : List Entry) (nodeId : NodeId) (peer : Peer) : Prop where
  localId : peer.membership.localId = nodeId
  probe : ∀ probe ∈ peer.probe,
    probe.target ≠ nodeId ∧ .started nodeId probe.seq probe.target ∈ log
  permit : ∀ seq, (seq, true) ∈ peer.membership.pendingAcks → Accounted log nodeId seq

structure EnvelopeTraced (log : List Entry) (envelope : Envelope) : Prop where
  probe : ∀ probe ∈ envelope.probe, ∃ target, .started probe.1 probe.2 target ∈ log
  ping : ∀ seq sender gossip, envelope.message = .ping seq sender gossip →
    (envelope.probe = some (sender, seq) ∧ .started sender seq envelope.target ∈ log) ∨
      .forwarded sender seq ∈ log
  ack : ∀ seq sender gossip, envelope.message = .ack seq sender gossip →
    Accounted log envelope.target seq

def AnswersTraced (log : List Entry) : Prop :=
  ∀ nodeId probe, .answered nodeId probe ∈ log → ∃ target, .started probe.1 probe.2 target ∈ log

structure Sound (log : List Entry) (nodeId : NodeId) (response : Response) : Prop where
  peer : PeerTraced (log ++ response.entries) nodeId response.peer
  sends : ∀ envelope ∈ response.sends, EnvelopeTraced (log ++ response.entries) envelope
  answers : AnswersTraced (log ++ response.entries)

section

variable {log log' : List Entry} {nodeId : NodeId} {peer : Peer} {crypto : Crypto}

theorem Accounted.mono {seq : UInt64} (hAccounted : Accounted log nodeId seq)
    (hSubset : log ⊆ log') : Accounted log' nodeId seq := by
  grind [Accounted]

theorem PeerTraced.mono (hTraced : PeerTraced log nodeId peer) (hSubset : log ⊆ log') :
    PeerTraced log' nodeId peer :=
  ⟨hTraced.localId, fun probe hProbe => (hTraced.probe probe hProbe).imp_right (@hSubset _),
    fun seq hPermit => (hTraced.permit seq hPermit).mono hSubset⟩

theorem EnvelopeTraced.mono {envelope : Envelope} (hTraced : EnvelopeTraced log envelope)
    (hSubset : log ⊆ log') : EnvelopeTraced log' envelope := by
  obtain ⟨hProbe, hPing, hAck⟩ := hTraced
  constructor
  all_goals grind [Accounted]

/-- A response that records nothing, keeps the name and starts no probe, with messages that are
neither pings nor answers. -/
theorem sound_quiet (hPeer : PeerTraced log nodeId peer) (hAnswers : AnswersTraced log)
    {after : Peer} (hLocal : after.membership.localId = peer.membership.localId)
    (hProbe : ∀ probe ∈ after.probe, ∃ old ∈ peer.probe,
      probe.seq = old.seq ∧ probe.target = old.target)
    (hPermit : ∀ seq, (seq, true) ∈ after.membership.pendingAcks →
      (seq, true) ∈ peer.membership.pendingAcks) {sends : List Envelope}
    (hSends : ∀ envelope ∈ sends,
      (∀ probe ∈ envelope.probe, ∃ target, .started probe.1 probe.2 target ∈ log) ∧
      (∀ seq sender gossip, envelope.message ≠ .ping seq sender gossip) ∧
      ∀ seq sender gossip, envelope.message ≠ .ack seq sender gossip) :
    Sound log nodeId ⟨after, sends, []⟩ := by
  obtain ⟨hName, hStarted, hTraced⟩ := hPeer
  constructor
  · constructor <;> grind
  · intro envelope hMem
    constructor <;> grind
  · simpa using hAnswers

theorem sound_probe (hPeer : PeerTraced log nodeId peer) (hAnswers : AnswersTraced log)
    {target : NodeId} (hTarget : target ∈ peer.membership.peers) (env : Env) (sent : Bool) :
    Sound log nodeId {
      peer := {
        peer with
        membership := (peer.membership.startProbe env target).1
        probe := some ⟨peer.membership.seq, target, sent, false⟩ }
      sends := envelopes (some (nodeId, peer.membership.seq))
        (peer.membership.startProbe env target).2.2.1
      entries := [.started nodeId peer.membership.seq target] } := by
  obtain ⟨hName, hStarted, hPermit⟩ := hPeer
  have hOther := (List.mem_filter.mp hTarget).2
  have hGrown := List.subset_append_left log [Entry.started nodeId peer.membership.seq target]
  constructor
  · refine ⟨hName, by simp_all, ?_⟩
    intro seq hMem
    obtain hNew | hOld := List.mem_cons.mp hMem
    · cases hNew
    · exact (hPermit seq (List.mem_filter.mp hOld).1).mono hGrown
  · intro envelope hMem
    obtain ⟨send, hSend, rfl⟩ := List.mem_map.mp hMem
    rw [mem_send hSend]
    constructor <;> grind
  · grind [AnswersTraced]

/-- A handler passes a probe on as it came. -/
theorem sound_deliver {env : Env} {envelope : Envelope} {outcome : Outcome}
    (hPeer : PeerTraced log envelope.target peer) (hAnswers : AnswersTraced log)
    (hEnvelope : EnvelopeTraced log envelope)
    (hHandled : peer.membership.handleMessage crypto env envelope.message = some outcome) :
    Sound log envelope.target {
      peer := { peer with membership := outcome.state }
      sends := envelopes envelope.probe outcome.sends
      entries := entriesOf envelope.target envelope outcome } := by
  obtain ⟨hLocal, hPending, hSends⟩ := handleMessage_spec hHandled
  obtain ⟨hName, hStarted, hPermit⟩ := hPeer
  obtain ⟨hTag, hPing, hAck⟩ := hEnvelope
  constructor
  · constructor <;> grind [Accounted]
  · intro reply hMem
    obtain ⟨send, hSend, rfl⟩ := List.mem_map.mp hMem
    have hAnswer := hSends send hSend
    generalize hMessage : envelope.message = message at hAnswer
    -- a ping is forwarded under the number of the `PingReq`, and an answer is that of the target
    -- to a ping of the probe itself, or it goes back to a forwarded ping or to a belief
    cases hAnswer <;> constructor <;> grind [entriesOf, Accounted]
  · intro other probe hMem
    have hKnown : .answered other probe ∈ log ∨ probe ∈ envelope.probe := by
      simp only [entriesOf, List.mem_append] at hMem
      grind
    grind [AnswersTraced]

theorem sound_react {event : Event} {response : Response}
    (hPeer : PeerTraced log event.nodeId peer) (hAnswers : AnswersTraced log)
    (hEnvelope : ∀ envelope env, event = .deliver envelope env → EnvelopeTraced log envelope)
    (hReact : peer.react crypto event = some response) : Sound log event.nodeId response := by
  have hQuiet (membership : SwimMembership) (running : Bool) (sends : List Envelope)
      (hKeeps : peer.membership.Keeps membership)
      (hSends : ∀ envelope ∈ sends, envelope.probe = none ∧
        (∀ seq sender gossip, envelope.message ≠ .ping seq sender gossip) ∧
        ∀ seq sender gossip, envelope.message ≠ .ack seq sender gossip) :
      Sound log event.nodeId ⟨⟨membership, peer.probe, running⟩, sends, []⟩ := by
    apply sound_quiet hPeer hAnswers hKeeps.1
    · exact fun probe hMem => ⟨probe, hMem, rfl, rfl⟩
    · exact fun seq hMem => hKeeps.2 ▸ hMem
    · grind
  have hFinish (membership : SwimMembership) (hKeeps : peer.membership.Keeps membership)
      (probe : Probe) : Sound log event.nodeId ⟨peer.finish membership probe, [], []⟩ := by
    refine sound_quiet hPeer hAnswers hKeeps.1 (by simp [Peer.finish]) ?_ (by simp)
    intro seq hMem
    rw [← hKeeps.2]
    exact (List.mem_filter.mp hMem).1
  have hSame : peer.membership.Keeps peer.membership := ⟨rfl, rfl⟩
  have hSuspect (env : Env) (target : NodeId) :=
    hFinish (peer.membership.markNodeSuspect env target) (keeps_markNodeSuspect target)
  cases event with
  | probe nodeId target env =>
    obtain ⟨⟨-, hTarget⟩, hResponse⟩ := Option.ite_none_right_eq_some.mp hReact
    cases hResponse
    exact sound_probe hPeer hAnswers hTarget env _
  | acknowledged nodeId =>
    simp only [Peer.react, bind_eq_some_iff] at hReact
    grind
  | indirectTimeout nodeId env =>
    simp only [Peer.react, bind_eq_some_iff] at hReact
    grind
  | directTimeout nodeId chosen env =>
    simp only [Peer.react, bind_eq_some_iff] at hReact
    obtain ⟨probe, hProbe, hRest⟩ := hReact
    obtain ⟨-, hRest⟩ := Option.ite_none_right_eq_some.mp hRest
    split at hRest
    · cases hRest
      exact hSuspect ..
    · cases hRest
      apply sound_quiet hPeer hAnswers
      · rfl
      · grind
      · exact fun _ hMem => hMem
      intro envelope hMem
      obtain ⟨send, hSend, rfl⟩ := List.mem_map.mp hMem
      obtain ⟨_, -, hSend⟩ := List.mem_flatMap.mp hSend
      rw [mem_send hSend]
      have hStarted := (hPeer.probe probe hProbe).2
      grind [Event.nodeId]
  | deliver envelope env =>
    obtain ⟨outcome, hHandled, rfl⟩ := map_eq_some_iff.mp hReact
    exact sound_deliver hPeer hAnswers (hEnvelope envelope env rfl) hHandled
  | sweep nodeId env =>
    cases hReact
    exact hQuiet _ _ _ keeps_sweepSuspects (by simp)
  | joinSeed nodeId seed env =>
    cases hReact
    refine hQuiet _ _ _ hSame ?_
    intro envelope hMem
    obtain ⟨send, hSend, rfl⟩ := List.mem_map.mp hMem
    grind [mem_send hSend]
  | leave nodeId env =>
    cases hReact
    refine hQuiet _ _ _ hSame ?_
    intro envelope hMem
    obtain ⟨send, hSend, rfl⟩ := List.mem_map.mp hMem
    obtain ⟨_, -, hSend⟩ := List.mem_flatMap.mp hSend
    grind [mem_send hSend]
  | broadcast nodeId item =>
    cases hReact
    exact hQuiet _ _ _ hSame (by simp)
  | stop nodeId =>
    cases hReact
    exact hQuiet _ _ _ hSame (by simp)

theorem answered_by_react {event : Event} {response : Response}
    {probe : ProbeId} (hReact : peer.react crypto event = some response)
    (hMem : .answered nodeId probe ∈ response.entries) : nodeId = event.nodeId := by
  cases event with
  | deliver envelope env =>
    obtain ⟨outcome, -, rfl⟩ := map_eq_some_iff.mp hReact
    change _ ∈ entriesOf envelope.target envelope outcome at hMem
    unfold entriesOf at hMem
    split at hMem <;> grind [Event.nodeId]
  | _ =>
    simp only [Peer.react, bind_eq_some_iff] at hReact
    grind

end

namespace Mesh

variable {crypto : Crypto} {mesh next : Mesh} {event : Event}

/-- Every peer, every message and every answer is accounted for. -/
def Traced (mesh : Mesh) : Prop :=
  mesh.Explained PeerTraced EnvelopeTraced ∧ AnswersTraced mesh.log

theorem Initial.traced (hInitial : mesh.Initial) : mesh.Traced := by
  refine ⟨⟨?_, by simp [hInitial.sent]⟩, by simp [AnswersTraced, hInitial.log]⟩
  intro nodeId
  obtain ⟨hProbe, hPending⟩ := hInitial.idle nodeId
  exact ⟨hInitial.localId nodeId, by simp [hProbe], by simp [hPending]⟩

theorem step_cases (hStep : step crypto mesh event = some (next, ())) :
    (mesh.peers event.nodeId).running = true ∧ available mesh event = true ∧
      ∃ response, (mesh.peers event.nodeId).react crypto event = some response ∧
        next = mesh.act event.nodeId response := by
  obtain ⟨hGuard, hRest⟩ := Option.ite_none_right_eq_some.mp hStep
  grind [map_eq_some_iff]

theorem step_of_react (hRunning : (mesh.peers event.nodeId).running = true)
    (hAvailable : available mesh event = true) {response : Response}
    (hReact : (mesh.peers event.nodeId).react crypto event = some response) :
    step crypto mesh event = some (mesh.act event.nodeId response, ()) := by
  simp [step, hRunning, hAvailable, hReact]

theorem Traced.step (hTraced : mesh.Traced) (hStep : step crypto mesh event = some (next, ())) :
    next.Traced := by
  obtain ⟨-, hAvailable, response, hReact, rfl⟩ := step_cases hStep
  have hSound : Sound mesh.log event.nodeId response := by
    refine sound_react (hTraced.1.peers _) hTraced.2 ?_ hReact
    rintro envelope env rfl
    exact hTraced.1.letters envelope (of_decide_eq_true hAvailable)
  exact ⟨hTraced.1.act (fun _ _ _ _ hSubset hPeer => hPeer.mono hSubset)
    (fun _ _ _ hSubset hLetter => hLetter.mono hSubset) hSound.peer hSound.sends, hSound.answers⟩

variable {last : Mesh} {run : List (Transition Mesh Event Unit)}

theorem log_grows (hRun : Run (step crypto) mesh run last) : mesh.log <+: last.log := by
  induction hRun with
  | nil mesh => exact List.prefix_refl _
  | cons hStep _ ih =>
    obtain ⟨-, -, response, -, rfl⟩ := step_cases hStep
    exact (List.prefix_append _ _).trans ih

theorem answered_before_stop (hRun : Run (step crypto) mesh run last) {nodeId : NodeId}
    (hStopped : (mesh.peers nodeId).running = false) {probe : ProbeId}
    (hAnswered : .answered nodeId probe ∈ last.log) : .answered nodeId probe ∈ mesh.log := by
  induction hRun with
  | nil mesh => exact hAnswered
  | @cons mesh next last event output rest hStep hRest ih =>
    obtain ⟨hRunning, -, response, hReact, rfl⟩ := step_cases hStep
    have hNe : nodeId ≠ event.nodeId := by
      rintro rfl
      rw [hStopped] at hRunning
      cases hRunning
    have hMem := ih (by rwa [World.peers_act_of_ne hNe]) hAnswered
    obtain hOld | hNew := List.mem_append.mp hMem
    · exact hOld
    · exact absurd (answered_by_react hReact hNew) hNe

end Mesh

def Entry.number : Entry → Option ProbeId
  | .started prober seq _ => some (prober, seq)
  | _ => none

/-- A probe that nobody answered by a belief, whose number the prober neither forwarded a ping
under nor gave to another probe. -/
structure Undisturbed (probe : ProbeId) (log : List Entry) : Prop where
  vouched : ∀ voucher, .vouched voucher probe ∉ log
  forwarded : .forwarded probe.1 probe.2 ∉ log
  number : log.Pairwise fun first second => first.number = some probe → second.number ≠ some probe

namespace Undisturbed

variable {log : List Entry} {nodeId target other : NodeId} {seq : UInt64}

theorem target_eq (hProbe : Undisturbed (nodeId, seq) log)
    (hStarted : .started nodeId seq target ∈ log) (hOther : .started nodeId seq other ∈ log) :
    other = target := by
  obtain ⟨front, back, rfl⟩ := List.append_of_mem hStarted
  obtain ⟨-, hBack, hAcross⟩ := List.pairwise_append.mp hProbe.number
  have hLater := (List.pairwise_cons.mp hBack).1
  grind [Entry.number]

theorem answered (hProbe : Undisturbed (nodeId, seq) log) {peer : Peer}
    (hPeer : PeerTraced log nodeId peer) (hStarted : .started nodeId seq target ∈ log)
    (hNotified : peer.membership.notified seq = true) : .answered target (nodeId, seq) ∈ log := by
  have hPermit : (seq, true) ∈ peer.membership.pendingAcks := by
    obtain ⟨stored, hGet, rfl⟩ : ∃ stored, AssocList.get peer.membership.pendingAcks seq =
        some stored ∧ stored = true := by
      simpa [notified, Option.getD_eq_iff] using hNotified
    exact AssocList.mem_of_get hGet
  obtain ⟨first, hFirst, hAnswered⟩ | hForwarded | ⟨voucher, hVouched⟩ := hPeer.permit seq hPermit
  · rwa [hProbe.target_eq hStarted hFirst] at hAnswered
  · exact absurd hForwarded hProbe.forwarded
  · exact absurd hVouched (hProbe.vouched voucher)

end Undisturbed

theorem SwimMembership.not_believesAlive_markNodeSuspect {node : SwimMembership} {env : Env}
    {target : NodeId} (hOther : target ≠ node.localId) :
    (node.markNodeSuspect env target).believesAlive target = false := by
  have hView : ∀ node : SwimMembership, node.believesAlive target =
      (node.view target).any fun s => s.status == .alive := by
    intro node
    rw [believesAlive, view, Option.any_map]
    rfl
  rw [hView, markNodeSuspect]
  cases hGet : node.members.get? target with
  | none => simp [view, hGet]
  | some record =>
    have hKnown : node.view target = some record.state.standing := by
      rw [view, hGet, Option.map_some]
    change Option.any _ ((node.applyMemberUpdate env _).view target) = false
    grind [view_applyMemberUpdate, Standing.merge_of_eq, MemberState.standing,
      MemberUpdate.standing, Standing.rank]

namespace Mesh

variable {crypto : Crypto} {start mesh next last : Mesh} {run : List (Transition Mesh Event Unit)}
  {nodeId target : NodeId}

theorem not_answered_of_stopped {env : Env} {s : Transition Mesh Event Unit}
    (hInitial : start.Initial) (hRun : Run (step crypto) start run last) (hMem : s ∈ run)
    (hProbe : s.input = .probe nodeId target env)
    (hStopped : (s.before.peers target).running = false)
    (hUndisturbed : Undisturbed (nodeId, (s.before.peers nodeId).membership.seq) last.log) :
    .answered target (nodeId, (s.before.peers nodeId).membership.seq) ∉ last.log := by
  obtain ⟨front, back, rfl⟩ := List.append_of_mem hMem
  obtain ⟨hFront, hStep⟩ := hRun.before
  intro hAnswered
  have hTraced := hFront.invariant (fun _ _ _ _ => Traced.step) hInitial.traced
  have hBefore := answered_before_stop (.cons hStep hRun.after) hStopped hAnswered
  obtain ⟨first, hFirst⟩ := hTraced.2 _ _ hBefore
  rw [hProbe] at hStep
  obtain ⟨-, -, response, hReact, hAfter⟩ := step_cases hStep
  obtain ⟨-, hResponse⟩ := Option.ite_none_right_eq_some.mp hReact
  have hNumber := hUndisturbed.number.sublist (log_grows hRun.after).sublist
  rw [hAfter, ← Option.some.inj hResponse] at hNumber
  exact (List.pairwise_append.mp hNumber).2.2 _ hFirst _ (List.mem_singleton.mpr rfl) rfl rfl

theorem ended {event : Event} {probe : Probe} (hProbe : (mesh.peers nodeId).probe = some probe)
    (hOther : probe.target ≠ (mesh.peers nodeId).membership.localId)
    (hStep : step crypto mesh event = some (next, ())) (hEnded : (next.peers nodeId).probe = none) :
    event = .acknowledged nodeId ∨
      (next.peers nodeId).membership.believesAlive probe.target = false := by
  obtain ⟨-, -, response, hReact, rfl⟩ := step_cases hStep
  obtain rfl | hNe := eq_or_ne nodeId event.nodeId
  · have hSuspect (env : Env) : ((mesh.peers event.nodeId).finish
        ((mesh.peers event.nodeId).membership.markNodeSuspect env probe.target)
          probe).membership.believesAlive probe.target = false :=
      not_believesAlive_markNodeSuspect hOther
    rw [World.peers_act_self] at hEnded ⊢
    cases event with
    | acknowledged => exact Or.inl rfl
    | _ =>
      simp only [Peer.react, hProbe, Option.bind_some, map_eq_some_iff] at hReact
      grind
  · rw [World.peers_act_of_ne hNe, hProbe] at hEnded
    cases hEnded

section

variable {probe : Probe} (crypto : Crypto) (hRunning : (mesh.peers nodeId).running = true)
  (hProbe : (mesh.peers nodeId).probe = some probe)
include hRunning hProbe

/-- The indirect wait of a probe without a permit can run out. -/
theorem indirectTimeout_enabled (hIndirect : probe.indirect = true)
    (hNotified : (mesh.peers nodeId).membership.notified probe.seq = false) :
    ∃ after, step crypto mesh (.indirectTimeout nodeId calm) = some (after, ()) ∧
      (after.peers nodeId).probe = none := by
  let suspected := (mesh.peers nodeId).membership.markNodeSuspect calm probe.target
  refine ⟨mesh.act nodeId ⟨(mesh.peers nodeId).finish suspected probe, [], []⟩,
    step_of_react hRunning rfl ?_, by rw [World.peers_act_self]; rfl⟩
  simp [Event.nodeId, Peer.react, hProbe, hIndirect, Peer.answered, hNotified, suspected]

theorem directTimeout_enabled (hDirect : probe.indirect = false)
    (hNotified : (mesh.peers nodeId).membership.notified probe.seq = false) :
    ∃ chosen after, step crypto mesh (.directTimeout nodeId chosen calm) = some (after, ()) ∧
      ((after.peers nodeId).probe = none ∨
        after.peers nodeId =
          { mesh.peers nodeId with probe := some { probe with indirect := true } }) := by
  generalize hPeer : mesh.peers nodeId = peer at *
  let chosen :=
    (peer.membership.intermediaries probe.target).take peer.membership.config.pingReqMembers
  have hNodup : (peer.membership.intermediaries probe.target).Nodup :=
    nodup_getActiveMembers.filter _ |>.filter _
  have hChosen : peer.mayChoose probe.target chosen = true := by
    have hMem : ∀ other ∈ chosen, other ∈ peer.membership.intermediaries probe.target :=
      fun _ hOther => List.mem_of_mem_take hOther
    simpa [Peer.mayChoose, chosen, hNodup.sublist (List.take_sublist ..)] using hMem
  obtain ⟨response, hReact, hAfter⟩ : ∃ response,
      peer.react crypto (.directTimeout nodeId chosen calm) = some response ∧
        (response.peer.probe = none ∨
          response.peer = { peer with probe := some { probe with indirect := true } }) := by
    by_cases hEmpty : chosen.isEmpty = true
    all_goals
      simp [Peer.react, hProbe, hDirect, Peer.answered, hNotified, hChosen, hEmpty, Peer.finish]
  refine ⟨chosen, mesh.act nodeId response, step_of_react ?_ rfl ?_, ?_⟩
  · rwa [Event.nodeId, hPeer]
  · rwa [Event.nodeId, hPeer]
  · rwa [World.peers_act_self]

end

theorem timesOut {probe : Probe} (hRunning : (mesh.peers nodeId).running = true)
    (hProbe : (mesh.peers nodeId).probe = some probe)
    (hNotified : (mesh.peers nodeId).membership.notified probe.seq = false)
    (hOther : probe.target ≠ (mesh.peers nodeId).membership.localId) :
    ∃ timeouts after, Run (step crypto) mesh timeouts after ∧ timeouts.length ≤ 2 ∧
      (after.peers nodeId).probe = none ∧
      (after.peers nodeId).membership.believesAlive probe.target = false := by
  cases hIndirect : probe.indirect with
  | true =>
    obtain ⟨after, hStep, hEnded⟩ :=
      indirectTimeout_enabled crypto hRunning hProbe hIndirect hNotified
    refine ⟨_, after, .cons hStep (.nil _), by simp, hEnded, ?_⟩
    exact (ended hProbe hOther hStep hEnded).resolve_left nofun
  | false =>
    obtain ⟨chosen, next, hStep, hEnded | hNext⟩ :=
      directTimeout_enabled crypto hRunning hProbe hIndirect hNotified
    · refine ⟨_, next, .cons hStep (.nil _), by simp, hEnded, ?_⟩
      exact (ended hProbe hOther hStep hEnded).resolve_left nofun
    · have hProbe' : (next.peers nodeId).probe = some { probe with indirect := true } := by
        rw [hNext]
      obtain ⟨after, hStep', hEnded⟩ :=
        indirectTimeout_enabled crypto (by rwa [hNext]) hProbe' rfl (by rwa [hNext])
      refine ⟨_, after, .cons hStep (.cons hStep' (.nil _)), by simp, hEnded, ?_⟩
      exact (ended hProbe' (by rwa [hNext]) hStep' hEnded).resolve_left nofun

/-- What a probe that is under way says, when its number is not disturbed. It is acknowledged only
after its target answered a ping of it, and it ends without an answer only with the target
suspected. If the target had stopped before, it is never acknowledged, and its time can always run
out. -/
theorem acknowledged_by_target (hInitial : start.Initial) (hRun : Run (step crypto) start run last)
    {probe : Probe} (hProbe : (last.peers nodeId).probe = some probe)
    (hUndisturbed : Undisturbed (nodeId, probe.seq) last.log) :
    ((step crypto last (.acknowledged nodeId)).isSome →
      .answered probe.target (nodeId, probe.seq) ∈ last.log) ∧
    (∀ event next, step crypto last event = some (next, ()) → (next.peers nodeId).probe = none →
      event = .acknowledged nodeId ∨
        (next.peers nodeId).membership.believesAlive probe.target = false) ∧
    ((∃ s ∈ run, ∃ env, s.input = .probe nodeId probe.target env ∧
        (s.before.peers nodeId).membership.seq = probe.seq ∧
        (s.before.peers probe.target).running = false) →
      step crypto last (.acknowledged nodeId) = none ∧
      ((last.peers nodeId).running = true →
        ∃ timeouts after, Run (step crypto) last timeouts after ∧ timeouts.length ≤ 2 ∧
          (after.peers nodeId).probe = none ∧
          (after.peers nodeId).membership.believesAlive probe.target = false)) := by
  have hTraced := (hRun.invariant (fun _ _ _ _ => Traced.step) hInitial.traced).1.peers nodeId
  obtain ⟨hTarget, hStarted⟩ := hTraced.probe probe hProbe
  have hOther : probe.target ≠ (last.peers nodeId).membership.localId := by rwa [hTraced.localId]
  have hNotified : (step crypto last (.acknowledged nodeId)).isSome →
      (last.peers nodeId).membership.notified probe.seq = true := by
    intro hSome
    obtain ⟨⟨next, ⟨⟩⟩, hStep⟩ := Option.isSome_iff_exists.mp hSome
    obtain ⟨-, -, response, hReact, -⟩ := step_cases hStep
    simp only [Event.nodeId, Peer.react, hProbe, Option.bind_some, Peer.answered] at hReact
    grind
  refine ⟨fun hSome => hUndisturbed.answered hTraced hStarted (hNotified hSome),
    fun event next hStep hEnded => ended hProbe hOther hStep hEnded, ?_⟩
  rintro ⟨s, hMem, env, hInput, hSeq, hStopped⟩
  rw [← hSeq] at hUndisturbed
  have hNever := not_answered_of_stopped hInitial hRun hMem hInput hStopped hUndisturbed
  rw [hSeq] at hNever hUndisturbed
  have hQuiet : (last.peers nodeId).membership.notified probe.seq = false :=
    Bool.eq_false_iff.mpr fun hPermit => hNever (hUndisturbed.answered hTraced hStarted hPermit)
  simp_all [timesOut]

def without (stopped : NodeId) : Mesh where
  peers nodeId := {
    membership := {
      booted nodeId with
      members := [['A'], ['B'], ['C'], ['D']].foldl
        (fun members other => members.put ⟨⟨other, .alive, 0, none, 0⟩, none⟩)
        (booted nodeId).members }
    probe := none
    running := nodeId ≠ stopped }
  sent := []
  log := []

theorem initial_without (stopped : NodeId) : (without stopped).Initial :=
  ⟨fun _ => rfl, fun _ => ⟨rfl, rfl⟩, rfl, rfl⟩

/-- `A` probes `D`, which has stopped. -/
theorem stopped_node_suspected :
    ∃ run last, Run (step lockedCrypto) (without ['D']) run last ∧
      last.log = [.started ['A'] 1 ['D']] ∧
      step lockedCrypto last (.acknowledged ['A']) = none ∧
      ∃ timeouts after, Run (step lockedCrypto) last timeouts after ∧ timeouts.length ≤ 2 ∧
        (after.peers ['A']).probe = none ∧
        (after.peers ['A']).membership.believesAlive ['D'] = false := by
  obtain ⟨next, hStep, hProbe, hRunning, hLog⟩ : ∃ next,
      step lockedCrypto (without ['D']) (.probe ['A'] ['D'] calm) = some (next, ()) ∧
      (next.peers ['A']).probe = some ⟨1, ['D'], true, false⟩ ∧
      (next.peers ['A']).running = true ∧ next.log = [.started ['A'] 1 ['D']] :=
    ⟨_, rfl, by decide +kernel, by decide +kernel, by decide +kernel⟩
  have hRun : Run (step lockedCrypto) (without ['D']) _ next := .cons hStep (.nil next)
  obtain ⟨hNever, hTimeouts⟩ := (acknowledged_by_target (initial_without _) hRun hProbe
    ⟨by simp [hLog], by simp [hLog], by simp [hLog]⟩).2.2
    ⟨_, List.mem_singleton.mpr rfl, calm, rfl, rfl, rfl⟩
  exact ⟨_, next, hRun, hLog, hNever, hTimeouts hRunning⟩

/-- `A` probes `D`, which has stopped, and `B` answers for it. `B` probes `D`, and takes what `C`
answers to the probe of `A` for an answer of `D`. -/
theorem stopped_node_acknowledged :
    (without ['D']).Initial ∧
    (∃ run last,
      exec (step lockedCrypto) (without ['D'])
        [.probe ['A'] ['D'] calm, .directTimeout ['A'] [['B'], ['C']] calm,
          .deliver ⟨['B'], .pingReq 1 ['A'] ['D'] [], some (['A'], 1)⟩ calm,
          .deliver ⟨['A'], .ack 1 ['D'] [], some (['A'], 1)⟩ calm,
          .acknowledged ['A']] = some (run, last) ∧
      last.log = [.started ['A'] 1 ['D'], .forwarded ['B'] 1, .vouched ['B'] (['A'], 1)] ∧
      (last.peers ['A']).membership.believesAlive ['D'] = true) ∧
    ∃ run last,
      exec (step lockedCrypto) (without ['D'])
        [.probe ['A'] ['C'] calm, .directTimeout ['A'] [['B'], ['D']] calm,
          .probe ['B'] ['D'] calm,
          .deliver ⟨['B'], .pingReq 1 ['A'] ['C'] [], some (['A'], 1)⟩ calm,
          .deliver ⟨['C'], .ping 1 ['B'] [], some (['A'], 1)⟩ calm,
          .deliver ⟨['B'], .ack 1 ['C'] [], some (['A'], 1)⟩ calm,
          .acknowledged ['B']] = some (run, last) ∧
      last.log = [.started ['A'] 1 ['C'], .started ['B'] 1 ['D'], .forwarded ['B'] 1,
        .vouched ['B'] (['A'], 1), .answered ['C'] (['A'], 1)] ∧
      (last.peers ['B']).membership.believesAlive ['D'] = true := by
  refine ⟨initial_without _, ⟨_, _, rfl, ?_, ?_⟩, ⟨_, _, rfl, ?_, ?_⟩⟩
  all_goals decide +kernel

end Mesh

end IndraMqtt.Cluster

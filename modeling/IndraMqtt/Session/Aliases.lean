import IndraMqtt.Session.State

/-! The topic aliases of one session, in the tables of the source. Both tables have a slot for
each alias up to the negotiated maximum, and the slot of alias 0 is never used. -/
namespace IndraMqtt.Sessions

open Protocol

structure AliasTables where
  inbound : List (Option Topic)
  inboundMax : Nat
  outbound : List (Option Topic)
  outboundMax : Nat

inductive AliasReject where
  | zero
  | overMaximum

namespace AliasTables

def new : AliasTables := ⟨[], defaultTopicAliasMaximum, [], 0⟩

section

variable (table : List (Option Topic)) (tables : AliasTables)

/-- `Vec::resize_with`, with empty slots. -/
def resize (want : Nat) : List (Option Topic) :=
  table.take want ++ List.replicate (want - table.length) none

/-- Before a write both tables are brought to their length. -/
def fitted (want : Nat) : List (Option Topic) :=
  if table.length ≠ want then resize table want else table

def slot (a : Nat) : Option Topic := table[a]?.join

def aliasInRange (a max : Nat) : Bool := a != 0 && max != 0 && a ≤ max

/-- `set_inbound_alias_max`. A table without entries stays as it is. -/
def setInboundAliasMax (max : Nat) : AliasTables :=
  { tables with
    inboundMax := max
    inbound := if tables.inbound.isEmpty then tables.inbound else resize tables.inbound (max + 1) }

def setOutboundAliasMax (max : Nat) : AliasTables :=
  { tables with
    outboundMax := max
    outbound := List.replicate (if max = 0 then 0 else max + 1) none }

def registerInboundAlias (a : Nat) (topic : Topic) : Except AliasReject AliasTables :=
  if a = 0 then .error .zero
  else if aliasInRange a tables.inboundMax then
    .ok { tables with
      inbound := (fitted tables.inbound (tables.inboundMax + 1)).set a (some topic) }
  else .error .overMaximum

def resolveInboundAlias (a : Nat) : Option Topic :=
  if aliasInRange a tables.inboundMax then slot tables.inbound a else none

/-- The first slot behind that of alias 0 with a property. -/
def firstSlot (p : Option Topic → Bool) : Option Nat :=
  ((table.drop 1).findIdx? p).map (· + 1)

def outboundAliasFor (text : Str) : Option Nat :=
  if tables.outboundMax = 0 then none
  else firstSlot (tables.outbound.take (tables.outboundMax + 1)) (·.any (·.text == text))

/-- `assign_outbound_alias`: the alias that the topic has, or else the least free one. -/
def assignOutboundAlias (topic : Topic) : AliasTables × Option Nat :=
  if tables.outboundMax = 0 then (tables, none)
  else
    let table := fitted tables.outbound (tables.outboundMax + 1)
    match firstSlot table (· == some topic) with
    | some a => ({ tables with outbound := table }, some a)
    | none =>
      match firstSlot table (·.isNone) with
      | some a => ({ tables with outbound := table.set a (some topic) }, some a)
      | none => ({ tables with outbound := table }, none)

def clearAliases : AliasTables :=
  { tables with
    inbound := tables.inbound.map fun _ => none
    outbound := tables.outbound.map fun _ => none }

end

/-! ### Slots -/

variable {table : List (Option Topic)} {topic : Topic} {tables : AliasTables}
  {a b want : Nat} {p : Option Topic → Bool}

theorem slot_resize (table : List (Option Topic)) (want a : Nat) :
    slot (resize table want) a = if a < want then slot table a else none := by
  unfold slot resize
  grind

theorem slot_of_le (hLength : table.length ≤ a) : slot table a = none := by
  rw [slot, List.getElem?_eq_none hLength]
  rfl

theorem slot_fitted (table : List (Option Topic)) (want a : Nat) :
    slot (fitted table want) a = if a < want then slot table a else none := by
  unfold fitted
  split
  · exact slot_resize table want a
  · next hLength =>
    split
    · rfl
    · exact slot_of_le (by omega)

theorem length_fitted (table : List (Option Topic)) (want : Nat) :
    (fitted table want).length = want := by
  grind [fitted, resize]

theorem slot_set (hLength : a < table.length) (topic : Topic) (b : Nat) :
    slot (table.set a (some topic)) b = if b = a then some topic else slot table b := by
  unfold slot
  grind

theorem slot_empty (table : List (Option Topic)) (a : Nat) :
    slot (table.map fun _ => none) a = none := by
  unfold slot
  grind

theorem firstSlot_some (hFirst : firstSlot table p = some a) :
    1 ≤ a ∧ a < table.length ∧ p (slot table a) = true := by
  obtain ⟨i, hIndex, rfl⟩ := Option.map_eq_some_iff.mp hFirst
  obtain ⟨hLength, hHolds, -⟩ := List.findIdx?_eq_some_iff_getElem.mp hIndex
  grind [slot]

theorem firstSlot_none (hFirst : firstSlot table p = none) (hAlias : 1 ≤ a)
    (hLength : a < table.length) : p (slot table a) = false := by
  have hNone := List.findIdx?_eq_none_iff.mp (Option.map_eq_none_iff.mp hFirst)
  have hMem : slot table a ∈ table.drop 1 := by
    rw [List.mem_iff_getElem?]
    exact ⟨a - 1, by grind [slot]⟩
  exact hNone _ hMem

/-- The slots in use are those of the aliases from 1 to the maximum. -/
def Within (table : List (Option Topic)) (max : Nat) : Prop :=
  ∀ a topic, slot table a = some topic → 1 ≤ a ∧ a ≤ max

/-- No topic has two aliases. -/
def Apart (table : List (Option Topic)) : Prop :=
  ∀ a b topic, slot table a = some topic → slot table b = some topic → a = b

theorem Within.slot_fitted {max : Nat} (hWithin : Within table max) (a : Nat) :
    slot (fitted table (max + 1)) a = slot table a := by
  rw [AliasTables.slot_fitted]
  split
  · rfl
  · next hPast =>
    cases hSlot : slot table a with
    | none => rfl
    | some topic => exact absurd (hWithin a topic hSlot).2 (by omega)

/-! ### Operations -/

/-- What happens to the tables. -/
inductive AliasEvent where
  | setInboundMax (max : Nat)
  | setOutboundMax (max : Nat)
  | register (a : Nat) (topic : Topic)
  | assign (topic : Topic)
  | clear

def step (tables : AliasTables) : AliasEvent → AliasTables
  | .setInboundMax max => tables.setInboundAliasMax max
  | .setOutboundMax max => tables.setOutboundAliasMax max
  | .register a topic => (tables.registerInboundAlias a topic).toOption.getD tables
  | .assign topic => (tables.assignOutboundAlias topic).1
  | .clear => tables.clearAliases

/-- The inbound maximum and the topic that was bound to an alias last. A clear and a maximum below
the alias forget the topic. -/
def boundStep (a : Nat) : Nat × Option Topic → AliasEvent → Nat × Option Topic
  | (max, bound), .register b topic =>
    (max, if b = a ∧ 1 ≤ b ∧ b ≤ max then some topic else bound)
  | (_, bound), .setInboundMax max => (max, if a ≤ max then bound else none)
  | (max, _), .clear => (max, none)
  | state, _ => state

def lastBound (a : Nat) (events : List AliasEvent) : Option Topic :=
  (events.foldl (boundStep a) (defaultTopicAliasMaximum, none)).2

/-- The events that leave the outbound table its entries. -/
def AliasEvent.keepsOutbound : AliasEvent → Bool
  | .setOutboundMax _ | .clear => false
  | _ => true

structure Kept (tables : AliasTables) : Prop where
  inbound : Within tables.inbound tables.inboundMax
  outbound : Within tables.outbound tables.outboundMax
  apart : Apart tables.outbound

theorem registerInboundAlias_eq (tables : AliasTables) (a : Nat) (topic : Topic) :
    (tables.registerInboundAlias a topic).toOption.getD tables =
      if 1 ≤ a ∧ a ≤ tables.inboundMax then
        { tables with
          inbound := (fitted tables.inbound (tables.inboundMax + 1)).set a (some topic) }
      else tables := by
  grind [registerInboundAlias, aliasInRange, Except.toOption]

/-- The inbound table follows what was bound last. -/
theorem Kept.boundStep_eq (hKept : Kept tables) (a : Nat) (event : AliasEvent) :
    ((tables.step event).inboundMax, slot (tables.step event).inbound a) =
      boundStep a (tables.inboundMax, slot tables.inbound a) event := by
  cases event with
  | setInboundMax max =>
    simp only [step, setInboundAliasMax, boundStep, Prod.mk.injEq, true_and]
    split
    · next hEmpty =>
      rw [List.isEmpty_iff.mp hEmpty]
      exact (ite_self none).symm
    · rw [slot_resize]
      simp [Nat.lt_succ_iff]
  | setOutboundMax max => rfl
  | register b topic =>
    simp only [step, registerInboundAlias_eq, boundStep]
    split
    · next hRange =>
      rw [slot_set (by rw [length_fitted]; omega), hKept.inbound.slot_fitted]
      grind
    · grind
  | assign topic =>
    simp only [step, boundStep]
    grind [assignOutboundAlias]
  | clear => simp only [step, clearAliases, boundStep, slot_empty]

/-- The alias that a topic is given is in range, and it is the topic's own or a free one. -/
theorem Kept.assign (hKept : Kept tables) (topic : Topic) :
    (∀ a, (tables.assignOutboundAlias topic).2 = some a → 1 ≤ a ∧ a ≤ tables.outboundMax ∧
      (slot tables.outbound a = some topic ∨
        slot tables.outbound a = none ∧ ∀ b, slot tables.outbound b ≠ some topic)) ∧
    ((tables.assignOutboundAlias topic).2 = none → ∀ b, slot tables.outbound b ≠ some topic) ∧
    ∀ b, slot (tables.assignOutboundAlias topic).1.outbound b =
      if (tables.assignOutboundAlias topic).2 = some b then some topic
      else slot tables.outbound b := by
  have hFitted := hKept.outbound.slot_fitted
  have hLength := length_fitted tables.outbound (tables.outboundMax + 1)
  unfold assignOutboundAlias
  generalize fitted tables.outbound (tables.outboundMax + 1) = table at hFitted hLength ⊢
  split
  · grind [Within, Kept.outbound]
  · cases hOwn : firstSlot table (· == some topic) with
    | some a =>
      obtain ⟨hPositive, hRange, hHeld⟩ := firstSlot_some hOwn
      grind
    | none =>
      have hNew (b : Nat) : slot tables.outbound b ≠ some topic := by
        intro hSlot
        obtain ⟨hPositive, hRange⟩ := hKept.outbound b topic hSlot
        have hAbsent := firstSlot_none hOwn hPositive (by omega)
        simp [hFitted, hSlot] at hAbsent
      cases hFirst : firstSlot table (·.isNone) with
      | none => grind
      | some a =>
        obtain ⟨hPositive, hRange, hFree⟩ := firstSlot_some hFirst
        rw [hFitted, Option.isNone_iff_eq_none] at hFree
        simp only [hOwn, hFirst, Option.some.injEq]
        refine ⟨?_, nofun, fun b => ?_⟩
        · rintro _ rfl
          exact ⟨hPositive, by omega, .inr ⟨hFree, hNew⟩⟩
        · rw [slot_set hRange, hFitted]
          simp [eq_comm]

theorem register_outbound (tables : AliasTables) (b : Nat) (topic : Topic) :
    (tables.step (.register b topic)).outbound = tables.outbound ∧
      (tables.step (.register b topic)).outboundMax = tables.outboundMax := by
  simp only [step, registerInboundAlias_eq]
  split <;> exact ⟨rfl, rfl⟩

section

variable (hKept : Kept tables)
include hKept

theorem Kept.step (event : AliasEvent) : Kept (tables.step event) := by
  have hInbound : Within (tables.step event).inbound (tables.step event).inboundMax := by
    intro a topic hSlot
    have hBound := hKept.boundStep_eq a event
    have hOld := hKept.inbound a
    cases event <;> grind [boundStep]
  suffices hOutbound : Within (tables.step event).outbound (tables.step event).outboundMax ∧
      Apart (tables.step event).outbound from ⟨hInbound, hOutbound.1, hOutbound.2⟩
  cases event with
  | setInboundMax max => exact ⟨hKept.outbound, hKept.apart⟩
  | setOutboundMax max =>
    have hNone (a : Nat) : slot (tables.setOutboundAliasMax max).outbound a = none := by
      unfold slot setOutboundAliasMax
      grind
    grind [Within, Apart, AliasTables.step]
  | register b topic =>
    rw [(register_outbound tables b topic).1, (register_outbound tables b topic).2]
    exact ⟨hKept.outbound, hKept.apart⟩
  | assign topic =>
    obtain ⟨hAssigned, -, hSlots⟩ := hKept.assign topic
    have hWithin := hKept.outbound
    have hApart := hKept.apart
    have hMax : (tables.assignOutboundAlias topic).1.outboundMax = tables.outboundMax := by
      grind [assignOutboundAlias]
    simp only [AliasTables.step, hMax]
    grind [Within, Apart]
  | clear =>
    have hNone := slot_empty tables.outbound
    grind [Within, Apart, AliasTables.step, clearAliases]

theorem Kept.stable (hSlot : slot tables.outbound a = some topic) {event : AliasEvent}
    (hKeeps : event.keepsOutbound = true) : slot (tables.step event).outbound a = some topic := by
  cases event with
  | setInboundMax max => exact hSlot
  | register b bound => rwa [(register_outbound tables b bound).1]
  | assign assigned =>
    obtain ⟨hAssigned, -, hSlots⟩ := hKept.assign assigned
    simp only [AliasTables.step]
    grind
  | setOutboundMax | clear => cases hKeeps

/-- A topic that has an alias is found under it, and is given no other. -/
theorem Kept.reused (hSlot : slot tables.outbound a = some topic) :
    tables.outboundAliasFor topic.text = some a ∧
      (tables.assignOutboundAlias topic).2 = some a := by
  obtain ⟨hPositive, hRange⟩ := hKept.outbound a topic hSlot
  have hTake (b : Nat) : slot (tables.outbound.take (tables.outboundMax + 1)) b =
      if b ≤ tables.outboundMax then slot tables.outbound b else none := by
    unfold slot
    grind
  have hLength : a < tables.outbound.length := by
    by_contra hShort
    rw [slot_of_le (by omega)] at hSlot
    cases hSlot
  constructor
  · rw [outboundAliasFor, if_neg (by omega)]
    cases hFirst : firstSlot (tables.outbound.take (tables.outboundMax + 1))
        (·.any (·.text == topic.text)) with
    | none =>
      have hNone := firstSlot_none hFirst hPositive (by grind)
      simp [hTake, hRange, hSlot] at hNone
    | some b =>
      obtain ⟨-, -, hText⟩ := firstSlot_some hFirst
      obtain ⟨held, hHeld, hSame⟩ := (Option.any_eq_true ..).mp hText
      have hTopic : held = topic := by
        cases held
        cases topic
        congr
        exact beq_iff_eq.mp hSame
      grind [Apart, Kept.apart]
  · obtain ⟨hAssigned, hFull, -⟩ := hKept.assign topic
    cases hGiven : (tables.assignOutboundAlias topic).2 with
    | some b => grind [Apart, Kept.apart]
    | none => exact absurd hSlot (hFull hGiven a)

theorem Kept.run (events : List AliasEvent) : Kept (events.foldl AliasTables.step tables) ∧
      ∀ a, slot (events.foldl AliasTables.step tables).inbound a =
        (events.foldl (boundStep a) (tables.inboundMax, slot tables.inbound a)).2 := by
  induction events generalizing tables with
  | nil => exact ⟨hKept, fun _ => rfl⟩
  | cons event events ih =>
    obtain ⟨hLast, hBound⟩ := ih (hKept.step event)
    refine ⟨hLast, fun a => ?_⟩
    rw [List.foldl_cons, List.foldl_cons, ← hKept.boundStep_eq a event]
    exact hBound a

theorem Kept.stable_run (hSlot : slot tables.outbound a = some topic) {later : List AliasEvent}
    (hLater : later.all (·.keepsOutbound) = true) :
    slot (later.foldl AliasTables.step tables).outbound a = some topic := by
  induction later generalizing tables with
  | nil => exact hSlot
  | cons event later ih =>
    rw [List.all_cons, Bool.and_eq_true] at hLater
    exact ih (hKept.step event) (hKept.stable hSlot hLater.1) hLater.2

end

/-- After every sequence of operations, the inbound aliases in use are between 1 and the inbound
maximum and resolve to the topics bound to them last. The outbound aliases are between 1 and the
outbound maximum, no topic has two and no alias two topics, and a topic keeps its alias until
the table is cleared. -/
theorem aliases_in_range_and_stable (events : List AliasEvent) :
    let tables := events.foldl step new
    Within tables.inbound tables.inboundMax ∧
      (∀ a, tables.resolveInboundAlias a = lastBound a events) ∧
      Within tables.outbound tables.outboundMax ∧ Apart tables.outbound ∧
      (∀ topic a, (tables.assignOutboundAlias topic).2 = some a →
        1 ≤ a ∧ a ≤ tables.outboundMax ∧
          slot (tables.assignOutboundAlias topic).1.outbound a = some topic) ∧
      ∀ topic a, slot tables.outbound a = some topic → ∀ later : List AliasEvent,
        later.all (·.keepsOutbound) = true →
          let after := later.foldl step tables
          slot after.outbound a = some topic ∧ after.outboundAliasFor topic.text = some a ∧
            (after.assignOutboundAlias topic).2 = some a := by
  intro tables
  have hNew : Kept new := by
    refine ⟨?_, ?_, ?_⟩ <;> intro a <;> intros <;> contradiction
  obtain ⟨hKept, hBound⟩ := hNew.run events
  refine ⟨hKept.inbound, fun a => ?_, hKept.outbound, hKept.apart, fun topic a hGiven => ?_, ?_⟩
  · have hSlot : slot tables.inbound a = lastBound a events := hBound a
    rw [← hSlot, resolveInboundAlias]
    split
    · rfl
    · next hRange =>
      cases hHeld : slot tables.inbound a with
      | none => rfl
      | some topic =>
        have hWithin := hKept.inbound a topic hHeld
        grind [aliasInRange]
  · obtain ⟨hAssigned, -, hSlots⟩ := hKept.assign topic
    obtain ⟨hPositive, hRange, -⟩ := hAssigned a hGiven
    exact ⟨hPositive, hRange, by rw [hSlots, if_pos hGiven]⟩
  · intro topic a hSlot later hLater after
    have hHeld := hKept.stable_run hSlot hLater
    exact ⟨hHeld, (hKept.run later).1.reused hHeld⟩

end AliasTables

end IndraMqtt.Sessions

import IndraMqtt.Protocol.Topic

/-! The reserved topic prefixes: delayed publications and shared subscriptions,
and the options byte of a version 5 subscription. -/
namespace IndraMqtt.Routing

open Protocol

def stripFront : Str → Str → Option Str
  | [], text => some text
  | _ :: _, [] => none
  | c :: front, d :: text => if c = d then stripFront front text else none

def splitOnce : Str → Option (Str × Str)
  | [] => none
  | c :: text =>
    if c = '/' then some ([], text)
    else (splitOnce text).map fun parts => (c :: parts.1, parts.2)

/-- The digits of `u64::from_str`, with the value read so far. -/
def parseDigits : Str → Nat → Option Nat
  | [], value => some value
  | c :: text, value =>
    if c.isDigit then
      let value := value * 10 + (c.toNat - 48)
      if value < 2 ^ 64 then parseDigits text value else none
    else none

/-- `str::parse::<u64>`: one leading plus sign is allowed, no digits are not. -/
def parseU64 (text : Str) : Option Nat :=
  let digits := match text with
    | '+' :: rest => rest
    | _ => text
  if digits.isEmpty then none else parseDigits digits 0

def stripDelayedPrefix (topic : Str) : Option (Nat × Str) :=
  (stripFront "$delayed/".toList topic).bind fun rest =>
    (splitOnce rest).bind fun parts =>
      if parts.2.isEmpty then none
      else (parseU64 parts.1).map fun delay => (delay, parts.2)

theorem mem_of_stripFront {front text rest : Str} (hStrip : stripFront front text = some rest)
    {c : Char} (hMem : c ∈ rest) : c ∈ text := by
  induction front generalizing text with
  | nil =>
    cases hStrip
    exact hMem
  | cons first front ih =>
    cases text with
    | nil => cases hStrip
    | cons d text => simp_all [stripFront]

theorem mem_of_splitOnce {text : Str} {parts : Str × Str} (hSplit : splitOnce text = some parts)
    {c : Char} (hMem : c ∈ parts.2) : c ∈ text := by
  induction text generalizing parts with
  | nil => cases hSplit
  | cons d text ih => grind [splitOnce, Option.map_eq_some_iff]

theorem stripDelayedPrefix_valid {topic : Topic} {delay : Nat} {inner : Str}
    (hStrip : stripDelayedPrefix topic.text = some (delay, inner)) :
    ∃ valid, Topic.new inner = .ok ⟨inner, valid⟩ := by
  obtain ⟨rest, hRest, hBind⟩ := Option.bind_eq_some_iff.mp hStrip
  obtain ⟨parts, hParts, hInner⟩ := Option.bind_eq_some_iff.mp hBind
  split at hInner
  · cases hInner
  · next hNonempty =>
    obtain ⟨seconds, -, hResult⟩ := Option.map_eq_some_iff.mp hInner
    obtain ⟨-, rfl⟩ := Prod.mk.inj hResult
    have hIn {c : Char} (hMem : c ∈ parts.2) : c ∈ topic.text :=
      mem_of_stripFront hRest (mem_of_splitOnce hParts hMem)
    obtain ⟨-, hPlus, hHash⟩ := (Topic.validate_eq_ok_iff topic.text).mp topic.valid
    have hValid : Topic.validate parts.2 = .ok () := by grind [Topic.validate_eq_ok_iff]
    exact ⟨hValid, Topic.new_eq_ok ⟨parts.2, hValid⟩⟩

/-- `split_shared_filter`. The outer `none` is a panic of the inner filter's
check. -/
def splitSharedFilter (filter : TopicFilter) : Option (Option (Option Str × TopicFilter)) :=
  match stripFront "$share/".toList filter.text with
  | none => some (some (none, filter))
  | some rest =>
    match splitOnce rest with
    | none => some none
    | some (group, inner) =>
      if group.isEmpty || inner.isEmpty then some none
      else (TopicFilter.new inner).map fun checked =>
        checked.toOption.map fun innerFilter => (some group, innerFilter)

def maxSubscriptionId : Nat := 268435455

/-- `Subscription::decode_options_byte`: QoS, no-local, retain-as-published and
retain handling. -/
def decodeOptionsByte (opts : UInt8) : Option (QoS × Bool × Bool × Nat) :=
  if opts &&& 0xC0 != 0 then none
  else
    (QoS.tryFrom (opts &&& 0x03)).toOption.bind fun qos =>
      let handling := (opts &&& 0x30) >>> 4
      if handling > 2 then none
      else some (qos, opts &&& 0x04 != 0, opts &&& 0x08 != 0, handling.toNat)

example : stripDelayedPrefix "$delayed/5/a/b".toList = some (5, "a/b".toList) := by decide

end IndraMqtt.Routing

import IndraMqtt.Edge.LinkMeta

/-! The metadata of a `PublishIn` frame. The native listener writes the alias section when the
packet has an alias, and the version 5 section, which always has room for an alias, when the
packet has properties. The kernel tells the forms apart by their length. -/
namespace IndraMqtt.Native

open Bytes Wire

/-- The PUBLISH has version 5 properties that travel on. -/
def hasProps (publish : Publish) : Bool :=
  publish.payloadFormat != 0 || publish.messageExpiry != 0 || !publish.userProperties.isEmpty

def publishInMeta (publish : Publish) (level : Nat) : List UInt8 :=
  bigEndian 2 (asBytes publish.topic).length ++ asBytes publish.topic ++
    (bigEndian 2 publish.packetId.toNat ++
      [publish.qos, if publish.retain then 1 else 0, if publish.dup then 1 else 0]) ++
    if level = 5 ∧ hasProps publish then
      bigEndian 2 (publish.topicAlias.getD 0).toNat ++ [publish.payloadFormat] ++
        bigEndian 4 publish.messageExpiry.toNat ++ bigEndian 2 publish.userProperties.length ++
        publish.userProperties.flatMap fun pair =>
          bigEndian 2 (asBytes pair.1).length ++ asBytes pair.1 ++
            (bigEndian 2 (asBytes pair.2).length ++ asBytes pair.2)
    else
      match publish.topicAlias with
      | some topicAlias => bigEndian 2 topicAlias.toNat
      | none => []

end IndraMqtt.Native

namespace IndraMqtt.Link

open Bytes Protocol Wire Kernel
open Native (maxMetaLen hasProps publishInMeta)

def maxPublishV5SectionLen : Nat := 4096
def maxPublishV5Users : Nat := 16
def maxPublishV5String : Nat := 1024

/-! ### The decoder -/

def takeUserKey : List UInt8 → Option (Str × List UInt8) :=
  takeText fun field => field.isEmpty || maxPublishV5String < field.length

def takeUserValue : List UInt8 → Option (Str × List UInt8) :=
  takeText fun field => maxPublishV5String < field.length

/-- `decode_publish_v5_section`, with the alias that stands in front of it. -/
def decodePublishV5Section (bytes : List UInt8) : Option (Nat × PublishV5Props) :=
  if 2 + maxPublishV5SectionLen < bytes.length then none
  else
    (takeBoth (takeUInt 2) (takeBoth takeByte (takeBoth (takeUInt 4) (takeUInt 2))) bytes).bind
      fun head =>
        let (topicAlias, format, expiry, userCount) := head.1
        if format != 0 && format != 1 then none
        else if maxPublishV5Users < userCount then none
        else
          (exactly (takeMany (takeBoth takeUserKey takeUserValue) userCount head.2)).map
            fun users => (topicAlias, { format := format.toNat, expiry, users })

/-- What follows the fixed head: nothing, the alias, or the version 5 section. -/
def decodePublishTail (bytes : List UInt8) : Option (Option Nat × PublishV5Props) :=
  if bytes.isEmpty then some (none, .empty)
  else if bytes.length = 2 then
    (takeUInt 2 bytes).map fun topicAlias => (some topicAlias.1, .empty)
  else if 2 < bytes.length then
    (decodePublishV5Section bytes).map fun tail => (some tail.1, tail.2)
  else none

def decodePublishMeta (bytes payload : List UInt8) : Option PublishIn :=
  (takeBoth takeBlock (takeBoth (takeUInt 2) (takeBoth takeByte (takeBoth takeByte takeByte)))
    bytes).bind fun head =>
      let (topic, packetId, qos, retain, _) := head.1
      (decodePublishTail head.2).bind fun tail =>
        (fromUtf8 topic).bind fun text =>
          -- the version 5 section has an alias field even when the client sent no alias
          let absent := tail.1 = some 0 ∧ 2 < head.2.length ∧ topic ≠ []
          let topicAlias := if absent then none else tail.1
          if topic.isEmpty && topicAlias.isNone then none
          else
            some { topic := text, packetId := UInt16.ofNat packetId, qos, retain := retain != 0
                   topicAlias, props := tail.2, payload }

/-! ### What the native listener writes is read back -/

def usersBytes (users : List (Str × Str)) : List UInt8 :=
  users.flatMap fun pair => block (asBytes pair.1) ++ block (asBytes pair.2)

structure UserFits (pair : Str × Str) : Prop where
  nonempty : pair.1 ≠ []
  key : pair.1.len ≤ maxPublishV5String
  value : pair.2.len ≤ maxPublishV5String

theorem reads_takeUser : Reads (takeBoth takeUserKey takeUserValue) UserFits
    fun pair => block (asBytes pair.1) ++ block (asBytes pair.2) := by
  refine ((reads_takeText fun field => field.isEmpty || maxPublishV5String < field.length).both
    (reads_takeText fun field => maxPublishV5String < field.length)).congr (fun pair => ?_)
    (fun _ => rfl)
  simp only [length_asBytes, Bool.or_eq_false_iff, List.isEmpty_eq_false_iff, ne_eq,
    asBytes_eq_nil, decide_eq_false_iff_not, Nat.not_lt]
  constructor
  · rintro ⟨⟨⟨hNonempty, hKey⟩, -⟩, hValue, -⟩
    exact ⟨hNonempty, hKey, hValue⟩
  · intro hFits
    have hKey := hFits.key
    have hValue := hFits.value
    simp only [maxPublishV5String] at hKey hValue ⊢
    exact ⟨⟨⟨hFits.nonempty, hKey⟩, by omega⟩, hValue, by omega⟩

def sectionBytes (topicAlias : Nat) (format : UInt8) (expiry : Nat) (users : List (Str × Str)) :
    List UInt8 :=
  bigEndian 2 topicAlias ++ ([format] ++ (bigEndian 4 expiry ++ bigEndian 2 users.length)) ++
    usersBytes users

variable (topicAlias : Nat) (format : UInt8) (expiry : Nat) (users : List (Str × Str))

theorem length_sectionBytes :
    (sectionBytes topicAlias format expiry users).length = 9 + (usersBytes users).length := by
  simp [sectionBytes]
  omega

theorem decodePublishV5Section_sectionBytes {topicAlias expiry : Nat} {format : UInt8}
    {users : List (Str × Str)} (hAlias : topicAlias < 65536) (hFormat : format ≤ 1)
    (hExpiry : expiry < 256 ^ 4) (hCount : users.length ≤ maxPublishV5Users)
    (hUsers : ∀ pair ∈ users, UserFits pair)
    (hLength : 7 + (usersBytes users).length ≤ maxPublishV5SectionLen) :
    decodePublishV5Section (sectionBytes topicAlias format expiry users) =
      some (topicAlias, { format := format.toNat, expiry, users }) := by
  have hShort : ¬ 2 + maxPublishV5SectionLen <
      (sectionBytes topicAlias format expiry users).length := by
    rw [length_sectionBytes]
    omega
  have hCount' : users.length < 256 ^ 2 := by
    simp only [maxPublishV5Users] at hCount
    omega
  have hHead := ((reads_takeUInt 2).both (reads_takeByte.both ((reads_takeUInt 4).both
    (reads_takeUInt 2)))).append (x := (topicAlias, format, expiry, users.length))
    ⟨hAlias, trivial, hExpiry, hCount'⟩ (usersBytes users)
  have hKnown : (format != 0 && format != 1) = false := by grind
  have hFound := ((reads_takeUser.many users.length).exactly (x := users)).mpr
    ⟨⟨rfl, hUsers⟩, rfl⟩
  rw [decodePublishV5Section, if_neg hShort, sectionBytes, hHead, Option.bind_some]
  simp only [hKnown, Bool.false_eq_true, if_false, Nat.not_lt.mpr hCount]
  rw [usersBytes, hFound]
  rfl

/-- The fixed head in front of the rest of the metadata. -/
theorem decodePublishMeta_form {topic : Str} (hTopic : topic.len < 65536) (packetId : UInt16)
    (qos retain dup : UInt8) (rest payload : List UInt8) :
    decodePublishMeta (block (asBytes topic) ++ (bigEndian 2 packetId.toNat ++
        ([qos] ++ ([retain] ++ [dup]))) ++ rest) payload =
      (decodePublishTail rest).bind fun tail =>
        let absent := tail.1 = some 0 ∧ 2 < rest.length ∧ topic ≠ []
        let topicAlias := if absent then none else tail.1
        if topic.isEmpty && topicAlias.isNone then none
        else some { topic, packetId, qos, retain := retain != 0, topicAlias, props := tail.2
                    payload } := by
  have hHead := (reads_takeBlock.both ((reads_takeUInt 2).both (reads_takeByte.both
    (reads_takeByte.both reads_takeByte)))).append
    (x := (asBytes topic, packetId.toNat, qos, retain, dup))
    ⟨(length_asBytes topic).symm ▸ hTopic, packetId.toNat_lt, trivial, trivial, trivial⟩ rest
  rw [decodePublishMeta, hHead, Option.bind_some]
  simp only [fromUtf8_eq_some.mpr rfl, Option.bind_some, UInt16.ofNat_toNat, ne_eq, asBytes_eq_nil,
    Bool.eq_iff_iff.mpr (show (asBytes topic).isEmpty = true ↔ topic.isEmpty = true by
      rw [List.isEmpty_iff, List.isEmpty_iff, asBytes_eq_nil])]

def publishIn (publish : Publish) : PublishIn :=
  { topic := publish.topic, packetId := publish.packetId, qos := publish.qos
    retain := publish.retain, topicAlias := publish.topicAlias.map (·.toNat)
    props := { format := publish.payloadFormat.toNat, expiry := publish.messageExpiry.toNat
               users := publish.userProperties }
    payload := publish.payload }

def zeroAlias (publish : Publish) : Prop :=
  publish.topicAlias = some 0 ∧ publish.topic ≠ [] ∧ hasProps publish

theorem decodePublishTail_section :
    decodePublishTail (sectionBytes topicAlias format expiry users) =
      (decodePublishV5Section (sectionBytes topicAlias format expiry users)).map
        fun tail => (some tail.1, tail.2) := by
  rfl

theorem decodePublishTail_alias (topicAlias : UInt16) :
    decodePublishTail (bigEndian 2 topicAlias.toNat) =
      some (some topicAlias.toNat, .empty) := by
  have hTake := (reads_takeUInt 2).append topicAlias.toNat_lt []
  rw [List.append_nil] at hTake
  rw [decodePublishTail, if_neg (by simp [bigEndian]), if_pos (length_bigEndian ..), hTake]
  rfl

variable {publish : Publish} {level : Nat}

/-- Without a version 5 section there are no properties to carry. -/
theorem publishIn_props (hAccepted : publish.Accepted level)
    (hNone : ¬ (level = 5 ∧ hasProps publish)) : (publishIn publish).props = .empty := by
  have hFields : publish.payloadFormat = 0 ∧ publish.messageExpiry = 0 ∧
      publish.userProperties = [] := by
    by_cases hLevel : level = 5
    · have hProps : hasProps publish = false := by
        simpa using fun hProps => hNone ⟨hLevel, hProps⟩
      simpa [hasProps, and_assoc] using hProps
    · exact (hAccepted.plain hLevel).2
  simp [publishIn, hFields, PublishV5Props.empty]

theorem retain_byte (retain : Bool) : ((if retain then 1 else 0 : UInt8) != 0) = retain := by
  cases retain with
  | false => rfl
  | true => rfl

/-- The alias field of a version 5 section stands for the alias of the packet. -/
theorem alias_kept (hNamed : publish.topic ≠ [] ∨ publish.topicAlias.isSome)
    (hProps : hasProps publish) (hAlias : ¬ zeroAlias publish) {length : Nat}
    (hLong : 2 < length) :
    (if some (publish.topicAlias.getD 0).toNat = some 0 ∧ 2 < length ∧ publish.topic ≠ []
      then none else some (publish.topicAlias.getD 0).toNat) =
      publish.topicAlias.map (·.toNat) := by
  cases hFound : publish.topicAlias with
  | none => simp_all
  | some found =>
    rw [if_neg ?_]
    · rfl
    · rintro ⟨hZero, -, hText⟩
      have hFoundZero : found = 0 := UInt16.toNat_inj.mp (Option.some.inj hZero)
      exact hAlias ⟨by rw [hFound, hFoundZero], hText, hProps⟩

theorem named_kept (hNamed : publish.topic ≠ [] ∨ publish.topicAlias.isSome) :
    (publish.topic.isEmpty && (publish.topicAlias.map (·.toNat)).isNone) = false := by
  grind [Option.isSome_iff_exists]

theorem publishInMeta_section (hProps : level = 5 ∧ hasProps publish) :
    publishInMeta publish level =
      block (asBytes publish.topic) ++ (bigEndian 2 publish.packetId.toNat ++ ([publish.qos] ++
        ([if publish.retain then 1 else 0] ++ [if publish.dup then 1 else 0]))) ++
      sectionBytes (publish.topicAlias.getD 0).toNat publish.payloadFormat
        publish.messageExpiry.toNat publish.userProperties := by
  rw [publishInMeta, if_pos hProps]
  simp [block, sectionBytes, usersBytes]

/-- A PUBLISH with a version 5 section. -/
theorem decode_withSection (hChecked : publish.Accepted level)
    (hProps : level = 5 ∧ hasProps publish)
    (hKeys : ∀ pair ∈ publish.userProperties, pair.1 ≠ [])
    (hSection : 7 + (usersBytes publish.userProperties).length ≤ maxPublishV5SectionLen)
    (hAlias : ¬ zeroAlias publish) :
    decodePublishMeta (publishInMeta publish level) publish.payload =
      some (publishIn publish) := by
  obtain ⟨hNamed, hTopic, hFormat, hCount, hSizes, -⟩ := hChecked
  have hFound := decodePublishV5Section_sectionBytes (publish.topicAlias.getD 0).toNat_lt hFormat
    publish.messageExpiry.toNat_lt hCount
    (fun pair hMem => ⟨hKeys pair hMem, (hSizes pair hMem).1, (hSizes pair hMem).2⟩) hSection
  have hLong : 2 < (sectionBytes (publish.topicAlias.getD 0).toNat publish.payloadFormat
      publish.messageExpiry.toNat publish.userProperties).length := by
    rw [length_sectionBytes]
    omega
  rw [publishInMeta_section hProps, decodePublishMeta_form hTopic, decodePublishTail_section,
    hFound, Option.map_some, Option.bind_some]
  simp only [alias_kept hNamed hProps.2 hAlias hLong, named_kept hNamed, Bool.false_eq_true,
    if_false, retain_byte]
  rfl

/-- A PUBLISH with at most an alias. -/
theorem decode_withoutSection (hChecked : publish.Accepted level)
    (hProps : ¬ (level = 5 ∧ hasProps publish)) :
    decodePublishMeta (publishInMeta publish level) publish.payload =
      some (publishIn publish) := by
  have hEmpty := publishIn_props hChecked hProps
  have hBytes : publishInMeta publish level =
      block (asBytes publish.topic) ++ (bigEndian 2 publish.packetId.toNat ++ ([publish.qos] ++
        ([if publish.retain then 1 else 0] ++ [if publish.dup then 1 else 0]))) ++
      (publish.topicAlias.map fun topicAlias => bigEndian 2 topicAlias.toNat).getD [] := by
    rw [publishInMeta, if_neg hProps]
    grind [block]
  rw [hBytes, decodePublishMeta_form hChecked.topicLen]
  cases hFound : publish.topicAlias with
  | none =>
    have hText : publish.topic ≠ [] := by simpa [hFound] using hChecked.topic
    simp [decodePublishTail, hText, retain_byte, publishIn, hFound, ← hEmpty]
  | some topicAlias =>
    simp [decodePublishTail_alias, retain_byte, publishIn, hFound, ← hEmpty]

/-- A PUBLISH that the native listener accepts is what the kernel reads, if its user properties
have keys and fit the section. -/
theorem publish_decoded {flags : UInt8} {body : List UInt8} {level : Nat} {publish : Publish}
    (hAccepted : decodePublish flags body level = .ok publish)
    (hKeys : ∀ pair ∈ publish.userProperties, pair.1 ≠ [])
    (hSection : 7 + (usersBytes publish.userProperties).length ≤ maxPublishV5SectionLen)
    (hAlias : ¬ zeroAlias publish) :
    decodePublishMeta (publishInMeta publish level) publish.payload =
      some (publishIn publish) := by
  have hChecked := decodePublish_accepted hAccepted
  by_cases hProps : level = 5 ∧ hasProps publish
  · exact decode_withSection hChecked hProps hKeys hSection hAlias
  · exact decode_withoutSection hChecked hProps

/-! ### Packets with user properties -/

def usersPacket (length : List UInt8) (pairs : List (Str × Str)) : List UInt8 :=
  block (asBytes ['a']) ++ (length ++ (pairs.flatMap userBytes ++ [42]))

def usersPublish (pairs : List (Str × Str)) : Publish :=
  { dup := false, qos := 0, retain := false, topic := ['a'], packetId := 0, topicAlias := none
    payloadFormat := 0, messageExpiry := 0, userProperties := pairs, payload := [42] }

/-- The native listener accepts every such packet within the bounds of its codec. -/
theorem decodePublish_usersPacket {length : List UInt8} {pairs : List (Str × Str)}
    (hLength : ∀ rest, Reader.varint (length ++ rest) =
      .ok ((pairs.flatMap userBytes).length, rest)) (hCount : pairs.length ≤ maxUserProps)
    (hPairs : ∀ pair ∈ pairs, PropString pair.1 ∧ PropString pair.2) :
    decodePublish 0 (usersPacket length pairs) 5 = .ok (usersPublish pairs) := by
  have hTopic : Reader.utf8 (usersPacket length pairs) =
      .ok (['a'], length ++ (pairs.flatMap userBytes ++ [42])) :=
    Reader.utf8_append ⟨by decide, by decide⟩ _
  have hProperties : Reader.properties (length ++ (pairs.flatMap userBytes ++ [42])) =
      .ok (pairs.flatMap userBytes, [42]) := by
    have hTake : takeBytes (pairs.flatMap userBytes).length (pairs.flatMap userBytes ++ [42]) =
        some (pairs.flatMap userBytes, [42]) := takeBytes_eq_some.mpr ⟨rfl, rfl⟩
    rw [Reader.properties, hLength]
    simp only [Except.bind, hTake, Reader.need]
  have hWalk : walkProperties visitPublish .none (pairs.flatMap userBytes) =
      .ok { PublishProperties.none with users := pairs } := by
    rw [walkProperties, drain_users (by simpa using hCount) hPairs]
    rfl
  have hQos : ((0 : UInt8) >>> 1) &&& 0x03 = 0 := by decide
  have hNotTwo : ¬ (2 : UInt8) < 0 := by decide
  have hNotOne : ¬ (0 : UInt8) < 0 := by decide
  have hDup : ¬ ((0 : UInt8) == 0 && (0 : UInt8) &&& 0x08 != 0) = true := by decide
  simp only [decodePublish, hQos, if_neg hNotTwo, if_neg hDup, if_neg hNotOne, if_true, hTopic,
    hProperties, hWalk, Except.bind, Except.map]
  rfl

/-- What is too long for the section is not read. -/
theorem decode_oversized (hTopic : publish.topic.len < 65536)
    (hProps : level = 5 ∧ hasProps publish)
    (hSection : maxPublishV5SectionLen < 7 + (usersBytes publish.userProperties).length)
    (payload : List UInt8) : decodePublishMeta (publishInMeta publish level) payload = none := by
  have hNone : decodePublishV5Section (sectionBytes (publish.topicAlias.getD 0).toNat
      publish.payloadFormat publish.messageExpiry.toNat publish.userProperties) = none := by
    rw [decodePublishV5Section, if_pos]
    rw [length_sectionBytes]
    omega
  rw [publishInMeta_section hProps, decodePublishMeta_form hTopic, decodePublishTail_section,
    hNone]
  rfl

/-- A packet with one user property is read back. -/
theorem user_property_decoded :
    decodePublishMeta (publishInMeta (usersPublish [(['k'], ['v'])]) 5) [42] =
      some (publishIn (usersPublish [(['k'], ['v'])])) := by
  have hAccepted : decodePublish 0 (usersPacket [7] [(['k'], ['v'])]) 5 =
      .ok (usersPublish [(['k'], ['v'])]) := by
    refine decodePublish_usersPacket (fun rest => rfl) (by decide) ?_
    intro pair hMem
    rw [List.mem_singleton.mp hMem]
    exact ⟨⟨by decide, by decide⟩, by decide, by decide⟩
  refine publish_decoded hAccepted ?_ (by decide) (fun hZero => nomatch hZero.1)
  intro pair hMem
  rw [List.mem_singleton.mp hMem]
  exact List.cons_ne_nil _ _

def keyless : Publish := usersPublish [([], ['v'])]

def large : Publish := usersPublish (List.replicate 4 (['k'], List.replicate 1020 'v'))

/-- The native listener accepts both packets and they fit a frame, but the kernel reads
neither. -/
theorem user_properties_dropped :
    (decodePublish 0 (usersPacket [6] keyless.userProperties) 5 = .ok keyless ∧
      (publishInMeta keyless 5).length ≤ maxMetaLen ∧
      decodePublishMeta (publishInMeta keyless 5) [42] = none) ∧
    decodePublish 0 (usersPacket [0x88, 0x20] large.userProperties) 5 = .ok large ∧
      (publishInMeta large 5).length ≤ maxMetaLen ∧
      decodePublishMeta (publishInMeta large 5) [42] = none := by
  refine ⟨⟨?_, by decide, by decide +kernel⟩, ?_, by decide +kernel, ?_⟩
  · refine decodePublish_usersPacket (fun rest => rfl) (by decide) ?_
    intro pair hMem
    rw [List.mem_singleton.mp hMem]
    exact ⟨⟨by decide, by decide⟩, by decide, by decide⟩
  · refine decodePublish_usersPacket (fun rest => ?_) (by decide) ?_
    · have hLength : ((List.replicate 4 (['k'], List.replicate 1020 'v')).flatMap
          userBytes).length = 4104 := by decide +kernel
      exact hLength ▸ rfl
    · intro pair hMem
      rw [List.eq_of_mem_replicate hMem]
      exact ⟨⟨by decide, by decide⟩, by decide +kernel, by decide +kernel⟩
  · exact decode_oversized (by decide) ⟨rfl, rfl⟩ (by decide +kernel) [42]

/-! ### An explicit alias of zero -/

theorem applyPublish_zero {frame : PublishIn} (hZero : frame.topicAlias = some 0) (shared : Shared)
    (env : Env) (connId : Nat) : ∃ after, applyPublish shared env connId frame = some (after,
      ⟨(aliasRejectReply frame.qos frame.packetId).toList,
        (routeAll shared [(connId, .connClose 0x94)]).2, []⟩) := by
  have hRejected : resolveTopic shared connId frame = none := by
    rw [resolveTopic, hZero]
    rfl
  have hRouted : (orderAliasDisconnect shared env connId).2 =
      (routeAll shared [(connId, .connClose 0x94)]).2 := by
    grind [orderAliasDisconnect]
  rw [applyPublish, hRejected, ← hRouted]
  exact ⟨_, rfl⟩

def zeroPublish (payloadFormat : UInt8) : Publish :=
  { usersPublish [] with topicAlias := some 0, payloadFormat }

end IndraMqtt.Link

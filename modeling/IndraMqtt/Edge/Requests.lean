import IndraMqtt.Edge.Codec

/-! The bodies of SUBSCRIBE and PUBLISH. At level 5 each has a property section, which is
walked one property at a time. What the decoders let through is stated here too: the link
encoders behind them have guards of their own. -/
namespace IndraMqtt.Edge

open Bytes
open Shortens (map)

def maxSubId : Nat := 268435455
def maxV5SubPropsLen : Nat := 65535
def maxV5UserProps : Nat := 16
def maxV5PropStringLen : Nat := 1024

/-! ### Properties -/

abbrev Taken (α : Type) := Except CodecError (α × List UInt8)

/-- `decode_varint/3`, with the value so far and the position of the next group. -/
def decodeVarintFrom : List UInt8 → Nat → Nat → Taken Nat
  | [], _, _ => .error .truncatedConnect
  | byte :: rest, value, shift =>
    if shift < 28 then
      let value := value + (byte &&& 0x7F).toNat <<< shift
      if byte &&& 0x80 = 0 then .ok (value, rest) else decodeVarintFrom rest value (shift + 7)
    else .error .malformedVarint

def decodeVarint (bytes : List UInt8) : Taken Nat := decodeVarintFrom bytes 0 0

def takePropUtf8 (bytes : List UInt8) : Taken (List UInt8) :=
  (required .truncatedConnect (takeUInt 2 bytes)).bind fun (len, rest) =>
    if maxV5PropStringLen < len then .error .malformedConnectProperties
    else required .truncatedConnect (takeBytes len rest)

def takeUserProperty (bytes : List UInt8) : Taken (List UInt8 × List UInt8) :=
  (takePropUtf8 bytes).bind fun key =>
    (takePropUtf8 key.2).map fun value => ((key.1, value.1), value.2)

/-- A value of fixed width. Where it is cut short only the last clause of `skip_property`
matches. -/
def skipFixed (id width : Nat) (bytes : List UInt8) : Taken Unit :=
  (required (.unknownProperty id) (takeBytes width bytes)).map fun taken => ((), taken.2)

/-- `skip_utf8` and `skip_binary_data`, which have the same clauses. -/
def skipSized (bytes : List UInt8) : Taken Unit :=
  (required .truncatedPublish (takeBlock bytes)).map fun taken => ((), taken.2)

def skipProperty (id : Nat) (bytes : List UInt8) : Taken Unit :=
  if id ∈ [1, 23, 25, 36, 37, 40, 41, 42] then skipFixed id 1 bytes
  else if id ∈ [19, 33, 34, 35] then skipFixed id 2 bytes
  else if id ∈ [2, 17, 39] then skipFixed id 4 bytes
  else if id = 11 then (decodeVarint bytes).map fun taken => ((), taken.2)
  else if id ∈ [3, 8, 18, 28, 9, 29] then skipSized bytes
  else if id = 38 then (skipSized bytes).bind fun taken => skipSized taken.2
  else .error (.unknownProperty id)

variable {bytes rest : List UInt8} {subs : List (List UInt8 × Nat)} {qos : Nat} {pub : Publish}

theorem decodeVarintFrom_rest_lt {value shift found : Nat}
    (hTaken : decodeVarintFrom bytes value shift = .ok (found, rest)) :
    rest.length < bytes.length := by
  induction bytes generalizing value shift with
  | nil => cases hTaken
  | cons byte bytes ih => grind [decodeVarintFrom]

theorem shortens_decodeVarint : Shortens decodeVarint :=
  fun _ _ _ hTaken => (decodeVarintFrom_rest_lt hTaken).le

theorem shortens_takePropUtf8 : Shortens takePropUtf8 := by
  apply Shortens.bind (Shortens.required (reads_takeUInt 2) _)
  intro len
  change Shortens fun left => if maxV5PropStringLen < len then _ else _
  apply Shortens.ite
  · exact Shortens.error _
  · exact Shortens.required (reads_takeBytes len) _

theorem shortens_takeUserProperty : Shortens takeUserProperty := by
  apply Shortens.bind shortens_takePropUtf8
  intro key
  dsimp only
  apply map shortens_takePropUtf8
  intro value
  rfl

theorem shortens_skipFixed (id width : Nat) : Shortens (skipFixed id width) :=
  map (Shortens.required (reads_takeBytes width) _) fun _ => rfl

theorem shortens_skipSized : Shortens skipSized :=
  map (Shortens.required reads_takeBlock _) fun _ => rfl

theorem shortens_skipProperty (id : Nat) : Shortens (skipProperty id) := by
  unfold skipProperty
  apply Shortens.ite _ (shortens_skipFixed id 1)
  apply Shortens.ite _ (shortens_skipFixed id 2)
  apply Shortens.ite _ (shortens_skipFixed id 4)
  apply Shortens.ite
  · apply map shortens_decodeVarint
    intro taken
    rfl
  apply Shortens.ite _ shortens_skipSized
  apply Shortens.ite _ (Shortens.bind shortens_skipSized fun _ => shortens_skipSized)
  exact Shortens.error _

def propRound {σ : Type} (failed : CodecError → CodecError)
    (visit : σ → Nat → List UInt8 → Taken σ) (state : σ) (bytes : List UInt8) : Taken σ :=
  match decodeVarint bytes with
  | .error reason => .error (failed reason)
  | .ok (id, rest) => visit state id rest

variable {σ : Type} {failed : CodecError → CodecError} {visit : σ → Nat → List UInt8 → Taken σ}
  {next : List (List UInt8 × Nat)} {subId : Nat} {sub : Subscribe} {payload topic tail : List UInt8}
  {level : ProtoLevel} {props : PublishProps} {dup retain : Bool}

theorem propRound_eq_ok {state next : σ}
    (hRound : propRound failed visit state bytes = .ok (next, rest)) :
    ∃ id left, decodeVarint bytes = .ok (id, left) ∧ visit state id left = .ok (next, rest) := by
  grind [propRound]

theorem consumes_propRound (hVisit : ∀ state id, Shortens (visit state id)) :
    Consumes (propRound failed visit) := by
  intro state byte bytes next rest hRound
  obtain ⟨id, left, hId, hNext⟩ := propRound_eq_ok hRound
  have hLeft := decodeVarintFrom_rest_lt hId
  have hRest := hVisit state id left next rest hNext
  simp only [List.length_cons] at hLeft
  omega

/-! ### SUBSCRIBE -/

/-- What `decode_subscribe` returns. A filter has its QoS at level 4 and its options byte at
level 5. The identifier is zero where there is none. -/
structure Subscribe where
  packetId : Nat
  subscriptions : List (List UInt8 × Nat)
  subId : Nat
  deriving DecidableEq

/-- One entry of `decode_sub_list`, with the entries so far in reverse. -/
def subListRound (subs : List (List UInt8 × Nat)) (bytes : List UInt8) :
    Taken (List (List UInt8 × Nat)) :=
  (required .malformedSubscribe (takeUInt 2 bytes)).bind fun len =>
    if len.1 = 0 then .error .malformedSubscribe
    else
      (required .truncatedSubscribe (takeBoth (takeBytes len.1) (takeUInt 1) len.2)).bind
        fun entry =>
          if entry.1.2 ≤ 2 then .ok (entry.1 :: subs, entry.2)
          else .error (.invalidSubscribeQos entry.1.2)

/-- One entry of `decode_sub_list_v5`. -/
def subListRoundV5 (subs : List (List UInt8 × Nat)) (bytes : List UInt8) :
    Taken (List (List UInt8 × Nat)) :=
  (required .malformedSubscribe (takeUInt 2 bytes)).bind fun len =>
    (required .truncatedSubscribe (takeBoth (takeBytes len.1) (takeUInt 1) len.2)).map
      fun entry => (entry.1 :: subs, entry.2)

theorem reads_entry (len : Nat) :
    Reads (takeBoth (takeBytes len) (takeUInt 1)) (fun entry => entry.1.length = len ∧ entry.2 < 256 ^ 1)
      (fun entry => id entry.1 ++ bigEndian 1 entry.2) :=
  (reads_takeBytes len).both (reads_takeUInt 1)

theorem subListRound_eq_ok (hRound : subListRound subs bytes = .ok (next, rest)) :
    ∃ sub, next = sub :: subs ∧ sub.1 ≠ [] ∧ sub.2 ≤ 2 ∧ rest.length + 2 ≤ bytes.length := by
  obtain ⟨⟨len, left⟩, hLen, hRest⟩ := bind_eq_ok.mp hRound
  obtain ⟨-, rfl⟩ := ((reads_takeUInt 2).law _ _ _).mp (required_eq_ok.mp hLen)
  split at hRest
  · cases hRest
  · next hPos =>
    obtain ⟨⟨sub, tail⟩, hEntry, hQos⟩ := bind_eq_ok.mp hRest
    obtain ⟨⟨hLength, -⟩, rfl⟩ := ((reads_entry len).law _ _ _).mp (required_eq_ok.mp hEntry)
    split at hQos
    · next hLe =>
      cases hQos
      have hNonempty : sub.1 ≠ [] := by
        intro hNil
        rw [hNil] at hLength
        exact hPos hLength.symm
      exact ⟨sub, rfl, hNonempty, hLe, by simp; omega⟩
    · cases hQos

theorem subListRoundV5_eq_ok (hRound : subListRoundV5 subs bytes = .ok (next, rest)) :
    ∃ sub, next = sub :: subs ∧ sub.2 ≤ 255 ∧ rest.length + 2 ≤ bytes.length := by
  obtain ⟨⟨len, left⟩, hLen, hRest⟩ := bind_eq_ok.mp hRound
  obtain ⟨-, rfl⟩ := ((reads_takeUInt 2).law _ _ _).mp (required_eq_ok.mp hLen)
  obtain ⟨⟨sub, tail⟩, hEntry, hNext⟩ := map_eq_ok.mp hRest
  obtain ⟨⟨-, hOpts⟩, rfl⟩ := ((reads_entry len).law _ _ _).mp (required_eq_ok.mp hEntry)
  cases hNext
  exact ⟨sub, rfl, by omega, by simp; omega⟩

theorem consumes_subListRound : Consumes subListRound := by
  intro subs byte bytes next rest hRound
  grind [subListRound_eq_ok]

theorem consumes_subListRoundV5 : Consumes subListRoundV5 := by
  intro subs byte bytes next rest hRound
  grind [subListRoundV5_eq_ok]

def decodeSubList (bytes : List UInt8) : Except CodecError (List (List UInt8 × Nat)) :=
  (drain subListRound consumes_subListRound [] bytes).map List.reverse

def decodeSubListV5 (bytes : List UInt8) : Except CodecError (List (List UInt8 × Nat)) :=
  (drain subListRoundV5 consumes_subListRoundV5 [] bytes).map List.reverse

/-- What `parse_subscribe_props` does with a property: the identifier so far, and the number of
user properties. -/
def visitSubscribeProp (state : Option Nat × Nat) (id : Nat) (bytes : List UInt8) :
    Taken (Option Nat × Nat) :=
  if id = 11 then
    match state.1, decodeVarint bytes with
    | none, .ok (subId, tail) =>
      if subId = 0 ∨ maxSubId < subId then .error .malformedSubscribe
      else .ok ((some subId, state.2), tail)
    | _, _ => .error .malformedSubscribe
  else if id = 38 then
    if maxV5UserProps ≤ state.2 then .error .malformedSubscribe
    else
      match takeUserProperty bytes with
      | .ok (_, tail) => .ok ((state.1, state.2 + 1), tail)
      | .error _ => .error .truncatedSubscribe
  else
    match skipProperty id bytes with
    | .ok (_, tail) => .ok (state, tail)
    | .error (.unknownProperty _) => .error .malformedSubscribe
    | .error reason => .error reason

theorem shortens_visitSubscribeProp (state : Option Nat × Nat) (id : Nat) :
    Shortens (visitSubscribeProp state id) := by
  intro bytes next rest hVisit
  unfold visitSubscribeProp at hVisit
  split at hVisit
  · split at hVisit
    · next hTaken =>
      split at hVisit
      · cases hVisit
      · cases hVisit
        exact shortens_decodeVarint _ _ _ hTaken
    · cases hVisit
  · split at hVisit
    · split at hVisit
      · cases hVisit
      · split at hVisit
        · next hTaken =>
          cases hVisit
          exact shortens_takeUserProperty _ _ _ hTaken
        · cases hVisit
    · split at hVisit
      · next hTaken =>
        cases hVisit
        exact shortens_skipProperty id _ _ _ hTaken
      · cases hVisit
      · cases hVisit

def parseSubscribeProps (props : List UInt8) : Except CodecError Nat :=
  (drain (propRound (fun _ => .malformedSubscribe) visitSubscribeProp)
    (consumes_propRound shortens_visitSubscribeProp) (none, 0) props).map fun state =>
      state.1.getD 0

def takePacketId (reason : CodecError) (bytes : List UInt8) : Taken Nat :=
  (required reason (takeUInt 2 bytes)).bind fun id =>
    if id.1 = 0 then .error reason else .ok id

def nonemptySubscribe (packetId subId : Nat) (subs : List (List UInt8 × Nat)) :
    Except CodecError Subscribe :=
  if subs.isEmpty then .error .emptySubscribe
  else .ok { packetId, subscriptions := subs, subId }

def decodeSubscribe (payload : List UInt8) : ProtoLevel → Except CodecError Subscribe
  | .v4 =>
    (takePacketId .malformedSubscribe payload).bind fun packetId =>
      (decodeSubList packetId.2).bind (nonemptySubscribe packetId.1 0)
  | .v5 =>
    (takePacketId .malformedSubscribe payload).bind fun packetId =>
      match decodeVarint packetId.2 with
      | .error _ => .error .malformedSubscribe
      | .ok (propLen, rest) =>
        if maxV5SubPropsLen < propLen then .error .malformedSubscribe
        else
          (required .truncatedSubscribe (takeBytes propLen rest)).bind fun props =>
            (parseSubscribeProps props.1).bind fun subId =>
              (decodeSubListV5 props.2).bind (nonemptySubscribe packetId.1 subId)

/-! ### PUBLISH -/

/-- What `decode_publish` returns. The format, the expiry and the user properties are those that
the handler assumes where level 4 leaves them out. -/
structure Publish where
  topic : List UInt8
  packetId : Nat
  qos : Nat
  retain : Bool
  dup : Bool
  topicAlias : Nat
  aliasPresent : Bool
  payloadFormat : Nat
  messageExpiry : Nat
  userProperties : List (List UInt8 × List UInt8)
  payload : List UInt8
  deriving DecidableEq

def hasWildcard (topic : List UInt8) : Bool := topic.any fun byte => byte == 0x2B || byte == 0x23

structure PublishProps where
  topicAlias : Option Nat := none
  format : Option Nat := none
  expiry : Option Nat := none
  users : List (List UInt8 × List UInt8) := []

def takeOnce (width : Nat) (seen : Option Nat) (keep : Nat → PublishProps) (bytes : List UInt8) :
    Taken PublishProps :=
  (required .truncatedPublish (takeUInt width bytes)).bind fun value =>
    if seen.isSome then .error .malformedPublishProperties else .ok (keep value.1, value.2)

def visitPublishProp (props : PublishProps) (id : Nat) (bytes : List UInt8) : Taken PublishProps :=
  if id = 35 then
    takeOnce 2 props.topicAlias (fun value => { props with topicAlias := some value }) bytes
  else if id = 1 then
    (required .truncatedPublish (takeUInt 1 bytes)).bind fun (format, tail) =>
      if 1 < format then .error .malformedPublishProperties
      else if props.format.isSome then .error .malformedPublishProperties
      else .ok ({ props with format := some format }, tail)
  else if id = 2 then
    takeOnce 4 props.expiry (fun expiry => { props with expiry := some expiry }) bytes
  else if id = 11 then .error .malformedPublishProperties
  else if id = 38 then
    match takeUserProperty bytes with
    | .error _ => .error .truncatedPublish
    | .ok (user, tail) =>
      if maxV5UserProps ≤ props.users.length then .error .malformedPublishProperties
      else .ok ({ props with users := props.users ++ [user] }, tail)
  else (skipProperty id bytes).map fun taken => (props, taken.2)

/-- The reason of a property loop of a PUBLISH whose identifier cannot be read. -/
def publishIdError : CodecError → CodecError
  | .truncatedConnect => .truncatedPublish
  | reason => reason

theorem shortens_takeOnce (width : Nat) (seen : Option Nat) (keep : Nat → PublishProps) :
    Shortens (takeOnce width seen keep) := by
  apply Shortens.bind (Shortens.required (reads_takeUInt width) _)
  simp [Shortens.ite, Shortens.error, Shortens.ok]

theorem shortens_visitPublishProp (props : PublishProps) (id : Nat) :
    Shortens (visitPublishProp props id) := by
  unfold visitPublishProp
  apply Shortens.ite _ (shortens_takeOnce 2 _ _)
  apply Shortens.ite
  · apply Shortens.bind (Shortens.required (reads_takeUInt 1) _)
    grind [Shortens]
  apply Shortens.ite _ (shortens_takeOnce 4 _ _)
  apply Shortens.ite _ (Shortens.error _)
  apply Shortens.ite
  · intro bytes next rest hVisit
    beta_reduce at hVisit
    split at hVisit
    · cases hVisit
    · next hTaken =>
      split at hVisit
      · cases hVisit
      · cases hVisit
        exact shortens_takeUserProperty _ _ _ hTaken
  · apply map (shortens_skipProperty id)
    intro taken
    rfl

def parsePublishV5 (props : List UInt8) : Except CodecError PublishProps :=
  drain (propRound publishIdError visitPublishProp)
    (consumes_propRound shortens_visitPublishProp) {} props

def decodePublishV5Props (qos packetId : Nat) (topic : List UInt8) (dup retain : Bool)
    (tail : List UInt8) : Except CodecError Publish :=
  (decodeVarint tail).bind fun propLen =>
    (required .truncatedPublish (takeBytes propLen.1 propLen.2)).bind fun (props, payload) =>
      (parsePublishV5 props).bind fun props =>
        if topic.isEmpty && props.topicAlias.isNone then .error .malformedPublishTopic
        else
          .ok { topic, packetId, qos, retain, dup
                topicAlias := props.topicAlias.getD 0
                aliasPresent := props.topicAlias.isSome
                payloadFormat := props.format.getD 0
                messageExpiry := props.expiry.getD 0
                userProperties := props.users
                payload }

def takePublishId (qos : Nat) (bytes : List UInt8) : Taken Nat :=
  if qos = 0 then .ok (0, bytes) else takePacketId .malformedPublishPacketId bytes

def decodePublishTail (qos : Nat) (topic : List UInt8) (dup retain : Bool) (tail : List UInt8) :
    Except CodecError Publish :=
  (takePublishId qos tail).map fun packetId =>
    { topic, packetId := packetId.1, qos, retain, dup, topicAlias := 0, aliasPresent := false
      payloadFormat := 0, messageExpiry := 0, userProperties := [], payload := packetId.2 }

def decodePublishV5Tail (qos : Nat) (topic : List UInt8) (dup retain : Bool) (tail : List UInt8) :
    Except CodecError Publish :=
  (takePublishId qos tail).bind fun packetId =>
    decodePublishV5Props qos packetId.1 topic dup retain packetId.2

def decodePublish (payload : List UInt8) (flags : Nat) (level : ProtoLevel) :
    Except CodecError Publish :=
  let qos := (flags &&& 0x06) >>> 1
  let dup := flags &&& 0x08 != 0
  let retain := flags &&& 0x01 != 0
  if 2 < qos then .error (.invalidPublishQos qos)
  else
    (required .malformedPublishTopic (takeUInt 2 payload)).bind fun len =>
      if level = .v4 ∧ len.1 = 0 then .error .malformedPublishTopic
      else
        (required .truncatedPublish (takeBytes len.1 len.2)).bind fun topic =>
          if hasWildcard topic.1 then .error .invalidPublishTopic
          else
            match level with
            | .v4 => decodePublishTail qos topic.1 dup retain topic.2
            | .v5 => decodePublishV5Tail qos topic.1 dup retain topic.2

/-! ### What the decoders let through -/

theorem takePacketId_eq_ok {reason : CodecError} {id : Nat}
    (hTaken : takePacketId reason bytes = .ok (id, rest)) : 1 ≤ id ∧ id ≤ 65535 := by
  obtain ⟨⟨id', rest'⟩, hId, hNonzero⟩ := bind_eq_ok.mp hTaken
  have hLt := (((reads_takeUInt 2).law _ _ _).mp (required_eq_ok.mp hId)).1
  split at hNonzero
  · cases hNonzero
  · next hNe =>
    cases hNonzero
    omega

/-- What a decoded SUBSCRIBE is like. Only level 4 checks the filter and the QoS. -/
structure Subscribe.Sound (level : ProtoLevel) (sub : Subscribe) : Prop where
  packetId : 1 ≤ sub.packetId ∧ sub.packetId ≤ 65535
  nonempty : sub.subscriptions ≠ []
  opts : ∀ entry ∈ sub.subscriptions, entry.2 ≤ 255
  strict : level = .v4 → ∀ entry ∈ sub.subscriptions, entry.1 ≠ [] ∧ entry.2 ≤ 2
  subId : sub.subId ≤ maxSubId

theorem decodeSubList_strict (hSubs : decodeSubList bytes = .ok subs) :
    ∀ entry ∈ subs, entry.1 ≠ [] ∧ entry.2 ≤ 2 := by
  obtain ⟨reversed, hDrain, rfl⟩ := map_eq_ok.mp hSubs
  have hAll : ∀ entry ∈ reversed, entry.1 ≠ [] ∧ entry.2 ≤ 2 := by
    apply drain_invariant consumes_subListRound ?_ (by simp) hDrain
    grind [subListRound_eq_ok]
  intro entry hEntry
  exact hAll entry (List.mem_reverse.mp hEntry)

theorem decodeSubListV5_opts (hSubs : decodeSubListV5 bytes = .ok subs) :
    ∀ entry ∈ subs, entry.2 ≤ 255 := by
  obtain ⟨reversed, hDrain, rfl⟩ := map_eq_ok.mp hSubs
  have hAll : ∀ entry ∈ reversed, entry.2 ≤ 255 := by
    apply drain_invariant consumes_subListRoundV5 ?_ (by simp) hDrain
    grind [subListRoundV5_eq_ok]
  intro entry hEntry
  exact hAll entry (List.mem_reverse.mp hEntry)

theorem nonemptySubscribe_eq_ok {packetId : Nat}
    (hSub : nonemptySubscribe packetId subId subs = .ok sub) :
    subs ≠ [] ∧ sub = { packetId, subscriptions := subs, subId } := by
  grind [nonemptySubscribe]

theorem parseSubscribeProps_le {props : List UInt8}
    (hProps : parseSubscribeProps props = .ok subId) : subId ≤ maxSubId := by
  obtain ⟨last, hDrain, rfl⟩ := map_eq_ok.mp hProps
  let Seen : Option Nat × Nat → Prop := fun state => state.1.getD 0 ≤ maxSubId
  have hStart : Seen (none, 0) := Nat.zero_le _
  apply drain_invariant (P := Seen) _ ?_ hStart hDrain
  intro state bytes next rest hSeen hRound
  grind [propRound_eq_ok, visitSubscribeProp]

theorem decodeSubscribe_sound (hSub : decodeSubscribe payload level = .ok sub) :
    sub.Sound level := by
  cases level with
  | v4 =>
    obtain ⟨⟨packetId, rest⟩, hId, hRest⟩ := bind_eq_ok.mp hSub
    obtain ⟨subs, hSubs, hNonempty⟩ := bind_eq_ok.mp hRest
    obtain ⟨hEntries, rfl⟩ := nonemptySubscribe_eq_ok hNonempty
    have hStrict := decodeSubList_strict hSubs
    exact {
      packetId := takePacketId_eq_ok hId
      nonempty := hEntries
      opts := fun entry hEntry => (hStrict entry hEntry).2.trans (by decide)
      strict := fun _ => hStrict
      subId := Nat.zero_le _ }
  | v5 =>
    obtain ⟨⟨packetId, rest⟩, hId, hRest⟩ := bind_eq_ok.mp hSub
    cases hLen : decodeVarint rest with
    | error reason => simp [hLen] at hRest
    | ok taken =>
      simp only [hLen] at hRest
      split at hRest
      · cases hRest
      · obtain ⟨props, -, hRest⟩ := bind_eq_ok.mp hRest
        obtain ⟨subId, hSubId, hRest⟩ := bind_eq_ok.mp hRest
        obtain ⟨subs, hSubs, hNonempty⟩ := bind_eq_ok.mp hRest
        obtain ⟨hEntries, rfl⟩ := nonemptySubscribe_eq_ok hNonempty
        exact {
          packetId := takePacketId_eq_ok hId
          nonempty := hEntries
          opts := decodeSubListV5_opts hSubs
          strict := fun hLevel => by cases hLevel
          subId := parseSubscribeProps_le hSubId }

/-- What the properties of a decoded PUBLISH are like. A key may be empty. -/
structure PublishProps.Sound (props : PublishProps) : Prop where
  topicAlias : props.topicAlias.getD 0 ≤ 65535
  format : props.format.getD 0 ≤ 1
  expiry : props.expiry.getD 0 ≤ 0xFFFFFFFF
  count : props.users.length ≤ maxV5UserProps
  users : ∀ user ∈ props.users,
    user.1.length ≤ maxV5PropStringLen ∧ user.2.length ≤ maxV5PropStringLen

theorem takePropUtf8_eq_ok {text : List UInt8} (hTaken : takePropUtf8 bytes = .ok (text, rest)) :
    text.length ≤ maxV5PropStringLen := by
  obtain ⟨⟨len, left⟩, -, hRest⟩ := bind_eq_ok.mp hTaken
  grind [takeBytes_eq_some, required_eq_ok]

theorem takeOnce_eq_ok {width : Nat} {seen : Option Nat} {keep : Nat → PublishProps}
    {next : PublishProps} (hTaken : takeOnce width seen keep bytes = .ok (next, rest)) :
    ∃ value, next = keep value ∧ value < 256 ^ width := by
  obtain ⟨⟨value, left⟩, hValue, hRest⟩ := bind_eq_ok.mp hTaken
  split at hRest
  · cases hRest
  · cases hRest
    exact ⟨value, rfl, (((reads_takeUInt width).law _ _ _).mp (required_eq_ok.mp hValue)).1⟩

theorem visitPublishProp_sound {next : PublishProps} {id : Nat} (hSound : props.Sound)
    (hVisit : visitPublishProp props id bytes = .ok (next, rest)) : next.Sound := by
  unfold visitPublishProp at hVisit
  split at hVisit
  · obtain ⟨value, rfl, hLt⟩ := takeOnce_eq_ok hVisit
    exact { hSound with topicAlias := Nat.le_of_lt_succ hLt }
  split at hVisit
  · obtain ⟨⟨format, left⟩, -, hRest⟩ := bind_eq_ok.mp hVisit
    dsimp only at hRest
    split at hRest
    · cases hRest
    · next hFormat =>
      split at hRest
      · cases hRest
      · cases hRest
        exact { hSound with format := Nat.le_of_not_lt hFormat }
  split at hVisit
  · obtain ⟨value, rfl, hLt⟩ := takeOnce_eq_ok hVisit
    exact { hSound with expiry := Nat.le_of_lt_succ hLt }
  split at hVisit
  · cases hVisit
  split at hVisit
  · split at hVisit
    · cases hVisit
    · next hTaken =>
      split at hVisit
      · cases hVisit
      · next hRoom =>
        cases hVisit
        exact { hSound with
          count := by
            rw [List.length_append]
            exact Nat.lt_of_not_le hRoom
          users := List.forall_mem_append.mpr
            ⟨hSound.users, by grind [takeUserProperty, bind_eq_ok, map_eq_ok, takePropUtf8_eq_ok]⟩ }
  · obtain ⟨taken, -, hNext⟩ := map_eq_ok.mp hVisit
    cases hNext
    exact hSound

theorem parsePublishV5_sound (hProps : parsePublishV5 bytes = .ok props) : props.Sound := by
  have hStart : ({} : PublishProps).Sound := by constructor <;> simp
  apply drain_invariant _ ?_ hStart hProps
  grind [propRound_eq_ok, visitPublishProp_sound]

/-- What a decoded PUBLISH is like. An empty topic needs an alias property, of whatever
value. -/
structure Publish.Sound (level : ProtoLevel) (pub : Publish) : Prop where
  packetId : pub.packetId ≤ 65535
  qos : pub.qos ≤ 2
  topic : pub.topic = [] → pub.aliasPresent = true
  topicAlias : pub.topicAlias ≤ 65535
  legacy : level = .v4 → pub.aliasPresent = false
  absent : pub.aliasPresent = false → pub.topicAlias = 0
  format : pub.payloadFormat ≤ 1
  expiry : pub.messageExpiry ≤ 0xFFFFFFFF
  count : pub.userProperties.length ≤ maxV5UserProps
  users : ∀ user ∈ pub.userProperties,
    user.1.length ≤ maxV5PropStringLen ∧ user.2.length ≤ maxV5PropStringLen

theorem takePublishId_eq_ok {id : Nat} (hTaken : takePublishId qos bytes = .ok (id, rest)) :
    id ≤ 65535 := by
  unfold takePublishId at hTaken
  split at hTaken
  · cases hTaken
    exact Nat.zero_le _
  · exact (takePacketId_eq_ok hTaken).2

theorem decodePublishTail_sound (hQos : qos ≤ 2) (hTopic : topic ≠ [])
    (hPub : decodePublishTail qos topic dup retain tail = .ok pub) : pub.Sound .v4 := by
  obtain ⟨⟨packetId, rest⟩, hId, rfl⟩ := map_eq_ok.mp hPub
  exact {
    packetId := takePublishId_eq_ok hId
    qos := hQos
    topic := fun hEmpty => absurd hEmpty hTopic
    topicAlias := Nat.zero_le _
    legacy := fun _ => rfl
    absent := fun _ => rfl
    format := Nat.zero_le _
    expiry := Nat.zero_le _
    count := Nat.zero_le _
    users := by simp }

theorem decodePublishV5Tail_sound (hQos : qos ≤ 2)
    (hPub : decodePublishV5Tail qos topic dup retain tail = .ok pub) : pub.Sound .v5 := by
  obtain ⟨⟨packetId, rest⟩, hId, hRest⟩ := bind_eq_ok.mp hPub
  obtain ⟨propLen, -, hRest⟩ := bind_eq_ok.mp hRest
  obtain ⟨taken, -, hRest⟩ := bind_eq_ok.mp hRest
  obtain ⟨props, hProps, hRest⟩ := bind_eq_ok.mp hRest
  have hSound := parsePublishV5_sound hProps
  split at hRest
  · cases hRest
  · next hTopic =>
    cases hRest
    exact {
      packetId := takePublishId_eq_ok hId
      qos := hQos
      topic := by
        rintro rfl
        cases hAlias : props.topicAlias with
        | none => simp [hAlias] at hTopic
        | some value => rfl
      topicAlias := hSound.topicAlias
      legacy := fun hLevel => by cases hLevel
      absent := fun hAbsent => by
        rw [Option.isSome_eq_false_iff, Option.isNone_iff_eq_none] at hAbsent
        simp [hAbsent]
      format := hSound.format
      expiry := hSound.expiry
      count := hSound.count
      users := hSound.users }

theorem decodePublish_sound {flags : Nat} (hPub : decodePublish payload flags level = .ok pub) :
    pub.Sound level := by
  unfold decodePublish at hPub
  dsimp only at hPub
  split at hPub
  · cases hPub
  · next hQos =>
    grind [bind_eq_ok, takeBytes_eq_some, required_eq_ok, decodePublishTail_sound,
      decodePublishV5Tail_sound]

end IndraMqtt.Edge

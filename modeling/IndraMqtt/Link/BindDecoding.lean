import IndraMqtt.Link.BindSections

/-! Which binds of the edge the kernel reads back. The last will and the v5 section have a flag
in the head and are always read back, so the sections between them decide. -/
namespace IndraMqtt.Link

open Bytes Protocol Kernel Edge

/-! ### The last will and the v5 section -/

def bindWill (will : WillInfo Str) : BindWill :=
  { topic := will.topic, qos := UInt8.ofNat will.qos, retain := will.retain
    payload := will.payload }

theorem decodeBindWill_layout {will : WillInfo Str} (hFits : (will.map asBytes).Fits)
    (rest : List UInt8) :
    decodeBindWill ((will.map asBytes).layout ++ rest) = .ok (bindWill will, rest) := by
  obtain ⟨hQos, hTopic, hTopicLe, hPayload⟩ := hFits
  simp only [WillInfo.map] at hQos hTopic hTopicLe hPayload
  have hRetain : will.retain.toNat < 2 := by cases will.retain <;> decide
  have hRetained : (will.retain.toNat != 0) = will.retain := by cases will.retain <;> rfl
  simp (disch := omega) [decodeBindWill, WillInfo.layout, WillInfo.map, block, bindWill, hRetained,
    fromUtf8_eq_some.mpr rfl, drop_number, drop_past, Nat.sub_sub, if_neg, -List.length_eq_zero_iff]

def bindV5 (v5 : V5Info Str) : BindV5 :=
  { version := v5.version, sessionExpiry := v5.sessionExpiry, receiveMaximum := v5.receiveMax
    maxPacketSize := v5.maxPacketSize
    userProperties := v5.userProperties.foldl (fun map pair => insertProperty pair.1 pair.2 map) [] }

theorem takeV5String_block {text : Str} (hLe : (asBytes text).length ≤ 1024)
    (rest : List UInt8) : takeV5String (block (asBytes text) ++ rest) = .ok (text, rest) := by
  simp (disch := omega) [takeV5String, block, drop_number, fromUtf8_eq_some.mpr rfl, if_neg,
    Kernel.maxV5BindString]

theorem takeUserProperties_layout {pairs : List (Str × Str)}
    (hFit : ∀ pair ∈ pairs, (asBytes pair.1).length ≤ 1024 ∧ (asBytes pair.2).length ≤ 1024)
    (properties : List (Str × Str)) : takeUserProperties pairs.length
        (pairs.flatMap fun pair => block (asBytes pair.1) ++ block (asBytes pair.2)) properties =
      .ok (pairs.foldl (fun map pair => insertProperty pair.1 pair.2 map) properties, []) := by
  induction pairs generalizing properties with
  | nil => rfl
  | cons pair pairs ih =>
    have hPair := hFit pair List.mem_cons_self
    have hRest := ih (fun other hMem => hFit other (List.mem_cons_of_mem pair hMem))
      (insertProperty pair.1 pair.2 properties)
    simpa [takeUserProperties, takeV5String_block, hPair, Except.bind] using hRest

theorem decodeV5Payload_layout {v5 : V5Info Str} (hFits : (v5.map asBytes).Fits) :
    decodeV5Payload (v5.map asBytes).layout = .ok (bindV5 v5) := by
  obtain ⟨hVersion, hExpiry, hReceive, hPacket, hCount, hPairs, -⟩ := hFits
  simp only [V5Info.map, List.length_map] at hVersion hExpiry hReceive hPacket hCount
  have hUsers : ∀ pair ∈ v5.userProperties,
      (asBytes pair.1).length ≤ 1024 ∧ (asBytes pair.2).length ≤ 1024 := by
    intro pair hMem
    have hPair := hPairs (asBytes pair.1, asBytes pair.2) (List.mem_map_of_mem hMem)
    exact ⟨hPair.2.1, hPair.2.2⟩
  have hFew : ¬ Kernel.maxV5BindUsers < v5.userProperties.length := Nat.not_lt.mpr hCount
  have hLt : v5.userProperties.length < 65536 := Nat.lt_of_le_of_lt hCount (by decide)
  simp (disch := omega) [decodeV5Payload, V5Info.layout, V5Info.map, List.flatMap_map, hFew,
    takeUserProperties_layout hUsers, drop_number, if_neg, Except.bind, bindV5]

theorem decodeBindV5Section_layout {v5 : V5Info Str} (hFits : (v5.map asBytes).Fits)
    {front : List UInt8} (hFront : 2 ≤ front.length) :
    decodeBindV5Section (front ++ ((v5.map asBytes).layout ++
        bigEndian 2 (v5.map asBytes).layout.length)) = .ok (front, bindV5 v5) := by
  have hPayload := decodeV5Payload_layout hFits
  have hMin : 13 ≤ (v5.map asBytes).layout.length := by
    simp only [V5Info.layout, List.length_append, length_bigEndian]
    omega
  have hMax : (v5.map asBytes).layout.length ≤ maxV5SectionLen := hFits.2.2.2.2.2.2
  have hLt := Nat.lt_of_le_of_lt hMax (by decide : maxV5SectionLen < 65536)
  generalize (v5.map asBytes).layout = payload at hPayload hMin hMax hLt ⊢
  have hLast : front.length + (payload.length + 2) - 2 = front.length + payload.length := by omega
  have hLen : uintAt 2 (bigEndian 2 payload.length) 0 = payload.length := by
    simpa using (uintAt_front hLt : uintAt 2 (bigEndian 2 payload.length ++ []) 0 = _)
  simp (disch := omega) [decodeBindV5Section, hPayload, hLast, hLen, if_neg, Except.map]

/-! ### The whole request -/

variable (cleanStart will v5 : Bool) {ip : IpSyntax}

theorem headFlags_cleanStart : (headFlags cleanStart will v5 &&& 0x01 != 0) = cleanStart := by
  revert cleanStart will v5
  decide

theorem headFlags_will : (headFlags cleanStart will v5 &&& 0x02 != 0) = will := by
  revert cleanStart will v5
  decide

theorem headFlags_v5 : (headFlags cleanStart will v5 &&& 0x04 != 0) = v5 := by
  revert cleanStart will v5
  decide

theorem decodeHeadWill_layout {cleanStart v5 : Bool} {will : Option (WillInfo Str)}
    (hFits : ∀ info ∈ will.map (·.map asBytes), info.Fits) (rest : List UInt8) :
    decodeHeadWill (headFlags cleanStart will.isSome v5)
        (willLayout (will.map (·.map asBytes)) ++ rest) = .ok (will.map bindWill, rest) := by
  unfold decodeHeadWill
  rw [headFlags_will]
  cases will with
  | none => rfl
  | some will =>
    have hWill := decodeBindWill_layout (hFits (will.map asBytes) rfl) rest
    rw [Option.isSome_some, if_pos rfl]
    simp only [Option.map_some, willLayout, Option.getD_some]
    rw [hWill]
    rfl

theorem decodeBindTail_layout {cleanStart will : Bool} {v5 : Option (V5Info Str)}
    (hFits : ∀ info ∈ v5.map (·.map asBytes), info.Fits) {front : List UInt8}
    (hFront : 2 ≤ front.length) : decodeBindTail ip (headFlags cleanStart will v5.isSome)
        (front ++ v5Layout (v5.map (·.map asBytes))) =
      (decodeLegacyTail ip front).map fun tail => (tail.1, tail.2, v5.map bindV5) := by
  unfold decodeBindTail
  rw [headFlags_v5]
  cases v5 with
  | none => simp [v5Layout]
  | some v5 =>
    have hV5 := decodeBindV5Section_layout (hFits (v5.map asBytes) rfl) hFront
    rw [Option.isSome_some, if_pos rfl]
    simp only [Option.map_some, v5Layout, Option.getD_some]
    rw [hV5]
    rfl

def requestOf (texts : BindInfo Str) : BindRequest where
  clientId := texts.clientId
  cleanStart := texts.cleanStart
  keepaliveSecs := texts.keepalive
  username := texts.username
  password := texts.password
  peerhost := texts.peer
  clientAliasMax := texts.aliasMax
  will := texts.will.map bindWill
  certCn := (certFields texts.cert).cn
  certSubject := (certFields texts.cert).subject
  certSans := (certFields texts.cert).sans
  protocolVersion := (texts.v5.map (·.version)).getD 4
  sessionExpiry := (texts.v5.map (·.sessionExpiry)).getD 0
  receiveMaximum := (texts.v5.map (·.receiveMax)).getD 65535
  maxPacketSize := (texts.v5.map (·.maxPacketSize)).getD 0
  userProperties := texts.v5.map fun v5 => (bindV5 v5).userProperties

/-- The head of the metadata is read back, whatever follows it. -/
theorem decodeBindMeta_head (ip : IpSyntax) {clientId : Str}
    (hId : (asBytes clientId).length < 65536) (flags : UInt8) {keepalive : Nat}
    (hKeepalive : keepalive < 65536) (body : List UInt8) :
    decodeBindMeta ip (block (asBytes clientId) ++ ([flags] ++ bigEndian 2 keepalive) ++ body) =
      (decodeHeadWill flags body).bind fun head =>
        (decodeBindTail ip flags head.2).map fun tail =>
          bindRequest clientId flags keepalive head.1 tail.1 tail.2.1 tail.2.2 := by
  have hFlags : [flags] = bigEndian 1 flags.toNat := by simp [bigEndian]
  have hLt := flags.toNat_lt
  rw [hFlags]
  simp (disch := omega) [decodeBindMeta, block, fromUtf8_eq_some.mpr rfl, drop_number, drop_past,
    Nat.sub_sub, if_neg]

/-- The unmarked sections decide what the kernel returns. -/
theorem decodeBindMeta_layout {texts : BindInfo Str}
    (hFits : (texts.map asBytes).Fits) : decodeBindMeta ip (texts.map asBytes).layout =
      (decodeLegacyTail ip ((texts.map asBytes).unmarked ++ bigEndian 2 texts.aliasMax)).map
        fun tail => bindRequest texts.clientId
          (headFlags texts.cleanStart texts.will.isSome texts.v5.isSome) texts.keepalive
          (texts.will.map bindWill) tail.1 tail.2 (texts.v5.map bindV5) := by
  let flags := headFlags texts.cleanStart texts.will.isSome texts.v5.isSome
  let legacy := (texts.map asBytes).unmarked ++ bigEndian 2 texts.aliasMax
  let behindWill := legacy ++ v5Layout (texts.map asBytes).v5
  have hWillSome : (texts.map asBytes).will.isSome = texts.will.isSome := by simp [BindInfo.map]
  have hV5Some : (texts.map asBytes).v5.isSome = texts.v5.isSome := by simp [BindInfo.map]
  have hTwo : 2 ≤ legacy.length := by simp [legacy]
  have hTail : decodeBindTail ip flags behindWill =
      (decodeLegacyTail ip legacy).map fun tail => (tail.1, tail.2, texts.v5.map bindV5) :=
    decodeBindTail_layout hFits.v5 hTwo
  have hWill : decodeHeadWill flags (willLayout (texts.map asBytes).will ++ behindWill) =
      .ok (texts.will.map bindWill, behindWill) :=
    decodeHeadWill_layout hFits.will _
  have hHead := decodeBindMeta_head ip (Nat.lt_succ_of_le hFits.clientId) flags
    (Nat.lt_succ_of_le hFits.keepalive)
  rw [BindInfo.layout, hWillSome, hV5Some]
  refine (hHead _).trans ?_
  refine (congrArg (Except.bind · _) hWill).trans ?_
  simp only [Except.bind, hTail]
  cases decodeLegacyTail ip legacy with
  | error reason => rfl
  | ok tail => rfl

theorem bindRequest_eq_iff {texts : BindInfo Str} {identity : BindIdentity} {aliasMax : Nat} :
    bindRequest texts.clientId (headFlags texts.cleanStart texts.will.isSome texts.v5.isSome)
        texts.keepalive (texts.will.map bindWill) identity aliasMax (texts.v5.map bindV5) =
      requestOf texts ↔ identity = bindIdentity texts ∧ aliasMax = texts.aliasMax := by
  obtain ⟨username, password, peerhost, cn, subject, sans⟩ := identity
  have hCert : certFields texts.cert = ⟨(certFields texts.cert).cn,
    (certFields texts.cert).subject, (certFields texts.cert).sans⟩ := rfl
  rw [bindIdentity, hCert, bindRequest, requestOf, headFlags_cleanStart]
  simp only [BindRequest.mk.injEq, BindIdentity.mk.injEq, CertFields.mk.injEq, Option.map_map,
    Function.comp_def, bindV5]
  tauto

/-- The kernel returns the fields that the edge put into a bind exactly when the bind is
unambiguous. On both sides the texts are in UTF-8, since the request holds strings. -/
theorem bind_decoded_iff {isPeerIp : List UInt8 → Bool}
    {info : BindInfo (List UInt8)} {bytes : List UInt8}
    (hEncode : encodeBindMeta isPeerIp info = some bytes) :
    (∃ texts : BindInfo Str, info = texts.map asBytes ∧
        decodeBindMeta ip bytes = .ok (requestOf texts)) ↔
      ∃ texts : BindInfo Str, info = texts.map asBytes ∧ Unambiguous ip texts := by
  obtain ⟨hFits, rfl⟩ := encodeBindMeta_eq_some hEncode
  grind [decodeBindMeta_layout, map_eq_ok, bindRequest_eq_iff, unambiguous_of_decodeLegacyTail,
    Unambiguous.decodeLegacyTail]

def dottedQuad : IpSyntax where
  parses text :=
    text.all (ipv4Chars.contains ·) &&
      let octets := text.splitOn '.'
      octets.length == 4 && octets.all fun octet =>
        1 ≤ octet.length && octet.length ≤ 3 && (octet.length == 1 || octet.head? != some '0') &&
          octet.foldl (fun n c => n * 10 + (c.toNat - 48)) 0 ≤ 255
  literal text hParses c hMem := by
    have hAll := List.all_eq_true.mp (Bool.and_eq_true_iff.mp hParses).1
    exact List.mem_append_left _ (List.contains_iff_mem.mp (hAll c hMem))

def certBind (username : Option Str) (password : Option (List UInt8)) : BindInfo Str :=
  { clientId := "meter".toList, cleanStart := true, keepalive := 60, username, password
    peer := some "10.0.0.1".toList, aliasMax := 0
    cert := some { cn := some "meter".toList, subject := none, sans := [] }
    will := none, v5 := none }

def edgeWrites (texts : BindInfo Str) : Option (List UInt8) :=
  encodeBindMeta (fun peer => (fromUtf8 peer).any dottedQuad.parses) (texts.map asBytes)

/-- With a username and a password the certificate and the peer are read back. -/
theorem login_with_certificate :
    ∃ bytes, edgeWrites (certBind (some "ann".toList) (some [0x70, 0x77])) = some bytes ∧
      ∃ texts, (certBind (some "ann".toList) (some [0x70, 0x77])).map asBytes = texts.map asBytes ∧
        decodeBindMeta dottedQuad bytes = .ok (requestOf texts) := by
  have hSome : (edgeWrites (certBind (some "ann".toList) (some [0x70, 0x77]))).isSome = true := by
    decide +kernel
  obtain ⟨bytes, hEncode⟩ := Option.isSome_iff_exists.mp hSome
  refine ⟨bytes, hEncode, (bind_decoded_iff hEncode).mpr ⟨_, rfl, ?_⟩⟩
  constructor
  case password => decide
  case peer =>
    rintro literal ⟨⟩
    decide +kernel
  case anonymous => nofun

def identityOf (req : BindRequest) : BindIdentity :=
  { username := req.username, password := req.password, peerhost := req.peerhost
    cert := { cn := req.certCn, subject := req.certSubject, sans := req.certSans } }

/-- Without credentials the peer address becomes the username and the certificate becomes the
password, and an empty password fails the bind. -/
theorem certificate_read_as_password :
    (edgeWrites (certBind none none)).map
        (fun bytes => (decodeBindMeta dottedQuad bytes).toOption.map identityOf) =
      some (some { username := some "10.0.0.1".toList
                   password := some [0, 5, 0x6D, 0x65, 0x74, 0x65, 0x72, 0, 0, 0, 0]
                   peerhost := none, cert := noCert }) ∧
    (edgeWrites (certBind (some "ann".toList) (some []))).map
        (fun bytes => (decodeBindMeta dottedQuad bytes).toOption.map identityOf) = some none := by
  constructor
  all_goals decide +kernel

end IndraMqtt.Link

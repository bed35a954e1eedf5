import IndraMqtt.Link.BindMeta

/-! The sections of a bind between the last will and the alias maximum: credentials, peer and
certificate. Each of them may be missing and none carries a mark of its own, and bytes that
can be credentials are read as credentials. -/
namespace IndraMqtt.Edge

open Bytes

/-! ### What the encoder writes -/

section Map

variable {τ σ : Type}

def WillInfo.map (f : τ → σ) (will : WillInfo τ) : WillInfo σ :=
  { will with topic := f will.topic }

def CertInfo.map (f : τ → σ) (cert : CertInfo τ) : CertInfo σ :=
  { cn := cert.cn.map f, subject := cert.subject.map f, sans := cert.sans.map f }

def V5Info.map (f : τ → σ) (v5 : V5Info τ) : V5Info σ :=
  { v5 with userProperties := v5.userProperties.map fun pair => (f pair.1, f pair.2) }

def BindInfo.map (f : τ → σ) (info : BindInfo τ) : BindInfo σ :=
  { info with
    clientId := f info.clientId
    username := info.username.map f
    peer := info.peer.map f
    cert := info.cert.map (·.map f)
    will := info.will.map (·.map f)
    v5 := info.v5.map (·.map f) }

end Map

def credsLayout : Option (List UInt8) → Option (List UInt8) → List UInt8
  | some user, some pass => block user ++ block pass
  | _, _ => []

def peerLayout (peer : Option (List UInt8)) : List UInt8 := (peer.map block).getD []

def certLayout (cert : Option (CertInfo (List UInt8))) : List UInt8 :=
  (cert.map fun cert => block cert.layout).getD []

def willLayout (will : Option (WillInfo (List UInt8))) : List UInt8 :=
  (will.map WillInfo.layout).getD []

def v5Layout (v5 : Option (V5Info (List UInt8))) : List UInt8 :=
  (v5.map fun v5 => v5.layout ++ bigEndian 2 v5.layout.length).getD []

def BindInfo.unmarked (info : BindInfo (List UInt8)) : List UInt8 :=
  credsLayout info.username info.password ++ (peerLayout info.peer ++ certLayout info.cert)

def BindInfo.layout (info : BindInfo (List UInt8)) : List UInt8 :=
  (block info.clientId ++
    ([headFlags info.cleanStart info.will.isSome info.v5.isSome] ++ bigEndian 2 info.keepalive)) ++
  (willLayout info.will ++ (info.unmarked ++ bigEndian 2 info.aliasMax ++ v5Layout info.v5))

def CredsFit : Option (List UInt8) → Option (List UInt8) → Prop
  | none, none => True
  | some user, some pass => user.length ≤ 65535 ∧ pass.length ≤ 65535
  | _, _ => False

structure BindInfo.Fits (info : BindInfo (List UInt8)) : Prop where
  aliasMax : info.aliasMax ≤ 65535
  keepalive : info.keepalive ≤ 65535
  clientId : info.clientId.length ≤ 65535
  will : ∀ will ∈ info.will, will.Fits
  creds : CredsFit info.username info.password
  peer : ∀ peer ∈ info.peer, 0 < peer.length ∧ peer.length ≤ 65535
  cert : ∀ cert ∈ info.cert, cert.Fits
  v5 : ∀ v5 ∈ info.v5, v5.Fits

variable {bytes : List UInt8}

theorem encodeOptional_eq_some {α : Type} {fits : α → Bool} {layout : α → List UInt8}
    {value : Option α} (hEncode : encodeOptional fits layout value = some bytes) :
    (∀ x ∈ value, fits x = true) ∧ bytes = (value.map layout).getD [] := by
  cases value with
  | none => simpa [encodeOptional] using hEncode.symm
  | some x => grind [encodeOptional]

theorem encodeCredsBin_eq_some {user pass : Option (List UInt8)}
    (hEncode : encodeCredsBin user pass = some bytes) :
    CredsFit user pass ∧ bytes = credsLayout user pass := by
  cases user with
  | none => grind [encodeCredsBin, CredsFit, credsLayout]
  | some user =>
    cases pass with
    | none => cases hEncode
    | some pass =>
      rw [encodeCredsBin, Option.ite_none_right_eq_some] at hEncode
      exact ⟨hEncode.1, (Option.some.inj hEncode.2).symm⟩

theorem encodeBindMeta_eq_some {isPeerIp : List UInt8 → Bool} {info : BindInfo (List UInt8)}
    (hEncode : encodeBindMeta isPeerIp info = some bytes) : info.Fits ∧ bytes = info.layout := by
  simp only [encodeBindMeta, Option.ite_none_right_eq_some, Option.bind_eq_some_iff,
    Option.map_eq_some_iff] at hEncode
  obtain ⟨hAlias, head, hHead, will, hWill, creds, hCreds, peer, hPeer, cert, hCert, v5, hV5,
    hBytes⟩ := hEncode
  rw [encodeHead, Option.ite_none_right_eq_some] at hHead
  have hHeadBytes := Option.some.inj hHead.2
  have hWill := encodeOptional_eq_some hWill
  have hCreds := encodeCredsBin_eq_some hCreds
  have hPeer := encodeOptional_eq_some hPeer
  have hCert := encodeOptional_eq_some hCert
  have hV5 := encodeOptional_eq_some hV5
  constructor
  · constructor
    case aliasMax => exact hAlias
    case keepalive => exact hHead.1.1
    case clientId => exact hHead.1.2
    case will => exact fun will hMem => of_decide_eq_true (hWill.1 will hMem)
    case creds => exact hCreds.1
    case peer => grind
    case cert => exact fun cert hMem => of_decide_eq_true (hCert.1 cert hMem)
    case v5 => exact fun v5 hMem => of_decide_eq_true (hV5.1 v5 hMem)
  · rw [← hBytes, ← hHeadBytes, hWill.2, hCreds.2, hPeer.2, hCert.2, hV5.2]
    rfl

end IndraMqtt.Edge

namespace IndraMqtt.Link

open Bytes Protocol Edge

variable {bytes rest : List UInt8} {ip : IpSyntax} {cert : Option (CertInfo (List UInt8))}
  {peer : Option Str} {identity : BindIdentity} {aliasMax : Nat}

/-! ### The certificate section -/

/-- A certificate field of length zero is absent. -/
def present (field : Option Str) : Option Str := field.filter fun text => !text.isEmpty

def certFields : Option (CertInfo Str) → CertFields
  | none => noCert
  | some cert =>
    { cn := present cert.cn, subject := present cert.subject
      sans := cert.sans.filter fun san => !san.isEmpty }

theorem present_ne (field : Option Str) : present field ≠ some [] := by
  intro hEmpty
  have hNonempty := (Option.filter_eq_some_iff.mp hEmpty).2
  cases hNonempty

theorem asBytes_present (field : Option Str) :
    asBytes ((present field).getD []) = (field.map asBytes).getD [] := by
  cases field with
  | none => rfl
  | some text =>
    cases text with
    | nil => rfl
    | cons c text => rfl

theorem reads_takeCertString : Reads takeCertString
      (fun field => field ≠ some [] ∧ (asBytes (field.getD [])).length ≤ maxCertFieldLen)
      (fun field => block (asBytes (field.getD []))) := by
  have hConvert : ∀ (x : List UInt8) (field : Option Str), x.length < 65536 →
      ((if maxCertFieldLen < x.length then none
        else if x.isEmpty then some none
        else (fromUtf8 x).map some) = some field ↔
        (field ≠ some [] ∧ (asBytes (field.getD [])).length ≤ maxCertFieldLen) ∧
          x = asBytes (field.getD [])) := by
    intro x field _
    have hRead (text : Str) := @fromUtf8_eq_some x text
    cases hText : fromUtf8 x <;> cases field <;> grind [asBytes_eq_nil]
  refine (reads_takeBlock.convert hConvert).congr ?_ (fun _ => rfl)
  intro field
  constructor
  · exact fun hValid => hValid.1
  · exact fun hValid => ⟨hValid, Nat.lt_of_le_of_lt hValid.2 (by decide)⟩

/-- The subject alternative names as the kernel reads them. -/
theorem sans_present (sans : List Str) :
    (sans.map fun san => present (some san)).filterMap id = sans.filter fun san => !san.isEmpty := by
  induction sans with
  | nil => rfl
  | cons san sans ih => cases san <;> simp_all [present, Option.filter]

theorem decodeCertSection_layout {cert : CertInfo Str} (hFits : (cert.map asBytes).Fits) :
    decodeCertSection (block (cert.map asBytes).layout) = some (certFields (some cert)) := by
  obtain ⟨hCn, hSubject, hCount, hSans, hLength⟩ := hFits
  rw [CertInfo.map, List.length_map] at hCount
  have hReads := reads_takeCertString
  have hPayload : exactly (takeBlock (block (cert.map asBytes).layout)) =
      some (cert.map asBytes).layout :=
    reads_takeBlock.exactly.mpr ⟨Nat.lt_succ_of_le hLength, rfl⟩
  let names := cert.sans.map fun san => present (some san)
  let written := names.flatMap fun field => block (asBytes (field.getD []))
  have hNames : (cert.map asBytes).sans.flatMap block = written := by
    simp [CertInfo.map, List.flatMap_map, asBytes_present, Option.getD_some, written, names]
  have hLayout : (cert.map asBytes).layout =
      (block (asBytes ((present cert.cn).getD [])) ++
        (block (asBytes ((present cert.subject).getD [])) ++ bigEndian 2 cert.sans.length)) ++
      written := by
    rw [CertInfo.layout, hNames, asBytes_present, asBytes_present]
    simp [CertInfo.map]
  have hHead := (hReads.both (hReads.both (reads_takeUInt 2))).append
    (x := (present cert.cn, present cert.subject, cert.sans.length))
    ⟨⟨present_ne _, by rw [asBytes_present]; exact hCn⟩,
      ⟨present_ne _, by rw [asBytes_present]; exact hSubject⟩, Nat.lt_of_le_of_lt hCount (by decide)⟩
    written
  have hMany : exactly (takeMany takeCertString cert.sans.length written) = some names := by
    refine (hReads.many cert.sans.length).exactly.mpr ⟨⟨List.length_map .., ?_⟩, rfl⟩
    intro field hMem
    obtain ⟨san, hSan, rfl⟩ := List.mem_map.mp hMem
    refine ⟨present_ne _, ?_⟩
    rw [asBytes_present]
    exact hSans (asBytes san) (List.mem_map_of_mem hSan)
  have hFew : ¬ maxCertSans < cert.sans.length := Nat.not_lt.mpr hCount
  rw [decodeCertSection, hPayload, Option.bind_some, hLayout, hHead, Option.bind_some, if_neg hFew,
    hMany, Option.map_some, sans_present]
  rfl

theorem decodeCertSection_block {fields : CertFields}
    (hDecode : decodeCertSection bytes = some fields) :
    ∃ payload, bytes = block payload ∧ payload.length < 65536 ∧ 6 ≤ payload.length := by
  obtain ⟨payload, hPayload, hDecode⟩ := Option.bind_eq_some_iff.mp hDecode
  obtain ⟨head, hHead, -⟩ := Option.bind_eq_some_iff.mp hDecode
  have hBlock := reads_takeBlock.exactly.mp hPayload
  have hReads := reads_takeCertString.both (reads_takeCertString.both (reads_takeUInt 2))
  have hBytes := ((hReads.law _ head.1 head.2).mp hHead).2
  grind [length_block, length_bigEndian]

/-! ### The peer section -/

structure IsPeer (ip : IpSyntax) (literal : Str) : Prop where
  parses : ip.parses literal = true
  nonempty : literal ≠ []
  length_lt : (asBytes literal).length < 65536

theorem reads_splitPeerPrefix (ip : IpSyntax) :
    Reads (splitPeerPrefix ip) (IsPeer ip) (fun literal => block (asBytes literal)) := by
  have hConvert : ∀ text literal : Str,
      (asBytes text).isEmpty = false ∧ (asBytes text).length < 65536 →
      ((if ip.parses text then some text else none) = some literal ↔
        ip.parses literal = true ∧ text = literal) := by
    grind
  refine ((reads_takeText List.isEmpty).convert hConvert).congr ?_ (fun _ => rfl)
  intro literal
  rw [List.isEmpty_eq_false_iff, ne_eq, asBytes_eq_nil]
  constructor
  · exact fun hValid => ⟨hValid.1, hValid.2.1, hValid.2.2⟩
  · exact fun hPeer => ⟨hPeer.parses, hPeer.nonempty, hPeer.length_lt⟩

variable {byte : UInt8} {user : Str} {pass : List UInt8} {texts : BindInfo Str}

/-- The first byte of a literal is that of a digit, a letter or a separator. -/
theorem IsPeer.head_gt {literal : Str} (hPeer : IsPeer ip literal)
    (hHead : (asBytes literal).head? = some byte) : 4 < byte.toNat := by
  have hChars : (ipChars.all fun c =>
      (String.utf8EncodeChar c).head?.any fun byte => 4 < byte.toNat) = true := by decide
  cases literal with
  | nil => exact absurd rfl hPeer.nonempty
  | cons c literal =>
    have hChar := List.all_eq_true.mp hChars c
      (ip.literal _ hPeer.parses c List.mem_cons_self)
    grind [asBytes]

/-- The first byte of a certificate is the high byte of a length. -/
theorem cert_head_le {cert : CertInfo (List UInt8)} (hFits : cert.Fits)
    (hHead : cert.layout.head? = some byte) : byte.toNat ≤ 4 := by
  have hCn : (cert.cn.getD []).length ≤ 1024 := hFits.1
  have hLayout : cert.layout.head? =
      some (UInt8.ofNat ((cert.cn.getD []).length / 256 ^ 1)) := rfl
  rw [hLayout, Option.some.injEq] at hHead
  rw [← hHead, UInt8.toNat_ofNat']
  omega

theorem splitPeerPrefix_certLayout (ip : IpSyntax) (hFits : ∀ info ∈ cert, info.Fits)
    (rest : List UInt8) (hRest : rest.length ≤ 2) :
    splitPeerPrefix ip (certLayout cert ++ rest) = none := by
  cases hSplit : splitPeerPrefix ip (certLayout cert ++ rest) with
  | none => rfl
  | some split =>
    have hRead := ((reads_splitPeerPrefix ip).law _ split.1 split.2).mp hSplit
    have hPeer := hRead.1
    cases cert with
    | none =>
      -- two bytes hold the length of a literal and nothing of the literal
      have hLength := congrArg List.length hRead.2
      simp only [certLayout, Option.map_none, Option.getD_none, List.nil_append,
        List.length_append, length_block] at hLength
      have hNil : asBytes split.1 = [] := List.length_eq_zero_iff.mp (by omega)
      exact absurd (asBytes_eq_nil.mp hNil) hPeer.nonempty
    | some cert =>
      have hCert := hFits cert rfl
      have hLt := Nat.lt_succ_of_le hCert.2.2.2.2
      have hSame : cert.layout = asBytes split.1 :=
        (block_append_inj hLt hPeer.length_lt hRead.2).1
      have hHead : cert.layout.head? =
          some (UInt8.ofNat ((cert.cn.getD []).length / 256 ^ 1)) := rfl
      have hLow := cert_head_le hCert hHead
      have hHigh := hPeer.head_gt (hSame ▸ hHead)
      omega

theorem decodeCertTail_certLayout {cert : Option (CertInfo Str)}
    (hFits : ∀ info ∈ cert.map (·.map asBytes), info.Fits) :
    decodeCertTail (certLayout (cert.map (·.map asBytes))) = some (certFields cert) := by
  cases cert with
  | none => rfl
  | some cert =>
    have hDecode := decodeCertSection_layout (hFits (cert.map asBytes) rfl)
    have hNonempty : (block (cert.map asBytes).layout).isEmpty = false := rfl
    rw [decodeCertTail]
    simpa [certLayout, hNonempty] using hDecode

/-- No certificate section ends in the alias maximum. -/
theorem decodeCertTail_alias (hFits : ∀ info ∈ cert, info.Fits) (aliasMax : Nat) :
    decodeCertTail (certLayout cert ++ bigEndian 2 aliasMax) = none := by
  have hNonempty : (certLayout cert ++ bigEndian 2 aliasMax).isEmpty = false := by
    simp [bigEndian]
  rw [decodeCertTail, hNonempty, if_neg Bool.false_ne_true]
  cases hDecode : decodeCertSection (certLayout cert ++ bigEndian 2 aliasMax) with
  | none => rfl
  | some fields =>
    obtain ⟨payload, hBytes, hLt, hRoom⟩ := decodeCertSection_block hDecode
    cases cert with
    | none => grind [certLayout, length_bigEndian, length_block]
    | some cert =>
      have hCert := Nat.lt_succ_of_le (hFits cert rfl).2.2.2.2
      have hSame : block cert.layout ++ bigEndian 2 aliasMax = block payload ++ [] :=
        hBytes.trans (List.append_nil _).symm
      have hRest := (block_append_inj hCert hLt hSame).2
      cases hRest

/-! ### Credentials, peer and certificate -/

section Identity

variable {ip : IpSyntax} {username : Option Str} {password : Option (List UInt8)}
  {otherwise : String} {field : List UInt8}

theorem peerAndCert_layout {cert : Option (CertInfo Str)}
    (hPeer : ∀ literal ∈ peer, IsPeer ip literal)
    (hFits : ∀ info ∈ cert.map (·.map asBytes), info.Fits) :
    peerAndCert ip username password otherwise
        (peerLayout (peer.map asBytes) ++ certLayout (cert.map (·.map asBytes))) =
      .ok { username, password, peerhost := peer, cert := certFields cert } := by
  have hCert := decodeCertTail_certLayout hFits
  cases peer with
  | none =>
    have hSplit := splitPeerPrefix_certLayout ip hFits [] (Nat.zero_le 2)
    rw [List.append_nil] at hSplit
    simp [peerLayout, Option.getD_none, List.nil_append, peerAndCert, hSplit, hCert]
  | some literal =>
    have hSplit := (reads_splitPeerPrefix ip).append (hPeer literal rfl)
      (certLayout (cert.map (·.map asBytes)))
    simp [peerLayout, Option.getD_some, peerAndCert, hSplit, hCert]

/-- The sections are not read together with the alias maximum. -/
theorem peerAndCert_alias (hPeer : ∀ literal ∈ peer, IsPeer ip literal)
    (hFits : ∀ info ∈ cert, info.Fits) (aliasMax : Nat) :
    ∃ reason, peerAndCert ip username password otherwise
        (peerLayout (peer.map asBytes) ++ (certLayout cert ++ bigEndian 2 aliasMax)) =
      .error reason := by
  have hCert := decodeCertTail_alias hFits aliasMax
  cases peer with
  | none =>
    have hSplit := splitPeerPrefix_certLayout ip hFits (bigEndian 2 aliasMax) (Nat.le_refl 2)
    exact ⟨otherwise, by
      simp only [peerLayout, Option.map_none, Option.getD_none, List.nil_append, peerAndCert,
        hSplit, hCert]⟩
  | some literal =>
    have hSplit := (reads_splitPeerPrefix ip).append (hPeer literal rfl)
      (certLayout cert ++ bigEndian 2 aliasMax)
    exact ⟨"bind meta length mismatch", by
      simp only [peerLayout, Option.map_some, Option.getD_some, peerAndCert, hSplit, hCert]⟩

theorem peerAndCert_inv {tail : List UInt8}
    (hDecode : peerAndCert ip username password otherwise tail = .ok identity) :
    identity.username = username ∧ identity.password = password ∧
      ∀ literal ∈ identity.peerhost, ip.parses literal = true := by
  have hPeer := (reads_splitPeerPrefix ip).law tail
  have hParses (literal : Str) := @IsPeer.parses ip literal
  grind [peerAndCert]

theorem uintAt_block (rest : List UInt8) (hLt : field.length < 65536) :
    uintAt 2 (block field ++ rest) 0 = field.length := by
  simp (disch := omega) [block]

theorem decodeBindIdentity_short (hTwo : 2 ≤ rest.length)
    (hShort : rest.length < 2 + uintAt 2 rest 0 + 2) :
    decodeBindIdentity ip rest = peerAndCert ip none none "bind credentials truncated" rest := by
  have hNonempty : rest ≠ [] := by grind
  simp (disch := omega) [decodeBindIdentity, hNonempty, if_neg, if_pos hShort]

/-- A single section without the alias maximum is too short for credentials. -/
theorem decodeBindIdentity_block (hLt : field.length < 65536) :
    decodeBindIdentity ip (block field) =
      peerAndCert ip none none "bind credentials truncated" (block field) := by
  have hLen := uintAt_block [] hLt
  rw [List.append_nil] at hLen
  apply decodeBindIdentity_short
  · rw [length_block]
    omega
  · rw [hLen, length_block]
    omega

theorem uintAt_bigEndian {n : Nat} (hLt : n < 65536) : uintAt 2 (bigEndian 2 n) 0 = n := by
  simpa using (uintAt_front hLt : uintAt 2 (bigEndian 2 n ++ []) 0 = n)

theorem decodeBindIdentity_alias (hAlias : aliasMax < 65536) :
    decodeBindIdentity ip (bigEndian 2 aliasMax) =
      peerAndCert ip none none "bind credentials truncated" (bigEndian 2 aliasMax) := by
  apply decodeBindIdentity_short
  · simp
  · rw [uintAt_bigEndian hAlias, length_bigEndian]
    omega

theorem decodeBindIdentity_creds (hUser : (asBytes user).length < 65536)
    (hPass : pass.length < 65536) (hNonempty : pass ≠ []) (tail : List UInt8) :
    decodeBindIdentity ip (block (asBytes user) ++ (block pass ++ tail)) =
      peerAndCert ip (some user) (some pass) "bind meta length mismatch" tail := by
  have hSome : bigEndian 2 (asBytes user).length ≠ [] := nofun
  simp (disch := omega) [decodeBindIdentity, block, fromUtf8_eq_some.mpr rfl, drop_number, drop_past,
    Nat.sub_sub, if_neg, hSome, hNonempty]
  rintro rfl
  rfl

/-- A section and the alias maximum are no credentials: the password would be empty or go
beyond the end. -/
theorem decodeBindIdentity_block_alias (hLt : field.length < 65536)
    (hAlias : aliasMax < 65536) :
    ∃ reason, decodeBindIdentity ip (block field ++ bigEndian 2 aliasMax) = .error reason := by
  have hSome : bigEndian 2 field.length ≠ [] := nofun
  simp (disch := omega) [decodeBindIdentity, block, hSome, uintAt_bigEndian hAlias, if_neg]
  cases fromUtf8 field with
  | none => exact ⟨_, rfl⟩
  | some text =>
    refine ⟨"bind credentials truncated", ?_⟩
    grind

structure BindIdentity.ReadFrom (ip : IpSyntax) (rest : List UInt8) (identity : BindIdentity) :
    Prop where
  password : identity.password ≠ some []
  peerhost : ∀ literal ∈ identity.peerhost, ip.parses literal = true
  anonymous : identity.username = none → rest = [] ∨ rest.length < 2 + uintAt 2 rest 0 + 2

theorem decodeBindIdentity_readFrom (hDecode : decodeBindIdentity ip rest = .ok identity) :
    identity.ReadFrom ip rest := by
  simp only [decodeBindIdentity] at hDecode
  split at hDecode
  · next hEmpty =>
    cases hDecode
    exact ⟨nofun, nofun, fun _ => .inl (List.isEmpty_iff.mp hEmpty)⟩
  split at hDecode
  · cases hDecode
  split at hDecode
  · next hShort =>
    have hInv := peerAndCert_inv hDecode
    exact ⟨by rw [hInv.2.1]; nofun, hInv.2.2, fun _ => .inr hShort⟩
  split at hDecode
  · cases hDecode
  split at hDecode
  · cases hDecode
  · next hLong =>
    have hLength := length_slice (Nat.not_lt.mp hLong)
    split at hDecode
    · cases hDecode
    · next hZero =>
      have hPass : ∀ pass : List UInt8, pass.length ≠ 0 → some pass ≠ some [] := by simp
      split at hDecode
      · cases hDecode
        exact ⟨hPass _ (by omega), nofun, nofun⟩
      · have hInv := peerAndCert_inv hDecode
        exact ⟨hInv.2.1 ▸ hPass _ (by omega), hInv.2.2, by rw [hInv.1]; nofun⟩

/-! ### The sections in front of the alias maximum -/

theorem decodeLegacyTail_append {reason : String} (hAlias : aliasMax < 65536)
    (hExact : decodeBindIdentity ip (rest ++ bigEndian 2 aliasMax) = .error reason)
    (hRest : decodeBindIdentity ip rest = .ok identity) :
    decodeLegacyTail ip (rest ++ bigEndian 2 aliasMax) = .ok (identity, aliasMax) := by
  have hCut : (rest ++ bigEndian 2 aliasMax).length - 2 = rest.length := by simp
  have hValue : decodeAliasMaximum (bigEndian 2 aliasMax) = some aliasMax := by
    rw [decodeAliasMaximum, if_neg (by simp), uintAt_bigEndian hAlias]
  rw [decodeLegacyTail, hExact, if_pos (by simp), hCut, List.take_left, List.drop_left, hValue]
  simp [hRest]

theorem decodeLegacyTail_readFrom {n : Nat}
    (hDecode : decodeLegacyTail ip (rest ++ bigEndian 2 aliasMax) = .ok (identity, n)) :
    identity.ReadFrom ip (rest ++ bigEndian 2 aliasMax) ∨ identity.ReadFrom ip rest := by
  have hCut : (rest ++ bigEndian 2 aliasMax).length - 2 = rest.length := by simp
  unfold decodeLegacyTail at hDecode
  cases hExact : decodeBindIdentity ip (rest ++ bigEndian 2 aliasMax) with
  | ok whole =>
    simp only [hExact] at hDecode
    cases hDecode
    exact .inl (decodeBindIdentity_readFrom hExact)
  | error reason =>
    rw [hExact, if_pos (by simp), hCut, List.take_left] at hDecode
    cases hRest : decodeBindIdentity ip rest with
    | error reason =>
      simp only [hRest] at hDecode
      cases hDecode
    | ok part =>
      simp only [hRest] at hDecode
      cases hDecode
      exact .inr (decodeBindIdentity_readFrom hRest)

theorem peer_or_cert_block {peer : Option (List UInt8)} (hOne : peer = none ∨ cert = none)
    (hPeer : ∀ literal ∈ peer, literal.length ≤ 65535) (hFits : ∀ info ∈ cert, info.Fits) :
    peerLayout peer ++ certLayout cert = [] ∨
      ∃ field, peerLayout peer ++ certLayout cert = block field ∧ field.length < 65536 := by
  cases peer with
  | none =>
    cases cert with
    | none => exact .inl rfl
    | some cert => exact .inr ⟨cert.layout, rfl, Nat.lt_succ_of_le (hFits cert rfl).2.2.2.2⟩
  | some literal =>
    cases cert with
    | none =>
      exact .inr ⟨literal, List.append_nil _, Nat.lt_succ_of_le (hPeer literal rfl)⟩
    | some cert => exact hOne.elim nofun nofun

/-- Without credentials one of the two sections is read back. -/
theorem decodeLegacyTail_anonymous {cert : Option (CertInfo Str)}
    (hOne : peer = none ∨ cert = none) (hPeer : ∀ literal ∈ peer, IsPeer ip literal)
    (hFits : ∀ info ∈ cert.map (·.map asBytes), info.Fits) (hAlias : aliasMax < 65536) :
    decodeLegacyTail ip ((peerLayout (peer.map asBytes) ++ certLayout (cert.map (·.map asBytes))) ++
        bigEndian 2 aliasMax) =
      .ok ({ username := none, password := none, peerhost := peer, cert := certFields cert },
        aliasMax) := by
  have hRead : peerAndCert ip none none "bind credentials truncated"
      (peerLayout (peer.map asBytes) ++ certLayout (cert.map (·.map asBytes))) =
      .ok { username := none, password := none, peerhost := peer, cert := certFields cert } :=
    peerAndCert_layout hPeer hFits
  have hWithAlias : ∃ reason, peerAndCert ip none none "bind credentials truncated"
      (peerLayout (peer.map asBytes) ++ (certLayout (cert.map (·.map asBytes)) ++
        bigEndian 2 aliasMax)) = .error reason :=
    peerAndCert_alias hPeer hFits aliasMax
  have hOneBytes : peer.map asBytes = none ∨ cert.map (·.map asBytes) = none := by
    simpa using hOne
  have hLengths : ∀ literal ∈ peer.map asBytes, literal.length ≤ 65535 := by
    intro literal hMem
    obtain ⟨text, hText, rfl⟩ := Option.mem_map.mp hMem
    exact Nat.le_of_lt_succ (hPeer text hText).length_lt
  rw [← List.append_assoc] at hWithAlias
  obtain hNil | ⟨field, hBlock, hLt⟩ := peer_or_cert_block hOneBytes hLengths hFits
  · rw [hNil] at hRead hWithAlias ⊢
    obtain ⟨reason, hReason⟩ := hWithAlias
    exact decodeLegacyTail_append hAlias ((decodeBindIdentity_alias hAlias).trans hReason) hRead
  · rw [hBlock] at hRead ⊢
    obtain ⟨reason, hReason⟩ : ∃ reason, decodeBindIdentity ip
        (block field ++ bigEndian 2 aliasMax) = .error reason :=
      decodeBindIdentity_block_alias hLt hAlias
    exact decodeLegacyTail_append hAlias hReason ((decodeBindIdentity_block hLt).trans hRead)

/-- Credentials with a password are read back with what follows them. -/
theorem decodeLegacyTail_creds {cert : Option (CertInfo Str)}
    (hUser : (asBytes user).length < 65536) (hPass : pass.length < 65536) (hNonempty : pass ≠ [])
    (hPeer : ∀ literal ∈ peer, IsPeer ip literal)
    (hFits : ∀ info ∈ cert.map (·.map asBytes), info.Fits) (hAlias : aliasMax < 65536) :
    decodeLegacyTail ip (((block (asBytes user) ++ block pass) ++
        (peerLayout (peer.map asBytes) ++ certLayout (cert.map (·.map asBytes)))) ++
        bigEndian 2 aliasMax) =
      .ok ({ username := some user, password := some pass, peerhost := peer
             cert := certFields cert }, aliasMax) := by
  have hWithAlias : ∃ reason, peerAndCert ip (some user) (some pass) "bind meta length mismatch"
      (peerLayout (peer.map asBytes) ++ (certLayout (cert.map (·.map asBytes)) ++
        bigEndian 2 aliasMax)) = .error reason :=
    peerAndCert_alias hPeer hFits aliasMax
  obtain ⟨reason, hReason⟩ := hWithAlias
  apply decodeLegacyTail_append hAlias
  · rw [List.append_assoc, List.append_assoc, List.append_assoc,
      decodeBindIdentity_creds hUser hPass hNonempty]
    exact hReason
  · rw [List.append_assoc, decodeBindIdentity_creds hUser hPass hNonempty]
    exact peerAndCert_layout hPeer hFits

end Identity

def bindIdentity (texts : BindInfo Str) : BindIdentity :=
  { username := texts.username, password := texts.password, peerhost := texts.peer
    cert := certFields texts.cert }

/-- No password is empty, the kernel knows the peer literal, and a bind without credentials
does not carry a peer and a certificate together. -/
structure Unambiguous (ip : IpSyntax) (texts : BindInfo Str) : Prop where
  password : texts.password ≠ some []
  peer : ∀ literal ∈ texts.peer, ip.parses literal = true
  anonymous : texts.username = none → texts.peer = none ∨ texts.cert = none

theorem Unambiguous.decodeLegacyTail (hUnambiguous : Unambiguous ip texts)
    (hFits : (texts.map asBytes).Fits) : Link.decodeLegacyTail ip
        ((texts.map asBytes).unmarked ++ bigEndian 2 texts.aliasMax) =
      .ok (bindIdentity texts, texts.aliasMax) := by
  have hAlias : texts.aliasMax < 65536 := Nat.lt_succ_of_le hFits.aliasMax
  have hPeer : ∀ literal ∈ texts.peer, IsPeer ip literal := by
    intro literal hMem
    have hLength := hFits.peer (asBytes literal) (Option.mem_map_of_mem asBytes hMem)
    refine ⟨hUnambiguous.peer literal hMem, ?_, Nat.lt_succ_of_le hLength.2⟩
    rintro rfl
    exact absurd hLength.1 (Nat.lt_irrefl 0)
  have hCreds := hFits.creds
  cases hUsername : texts.username with
  | none =>
    cases hPassword : texts.password with
    | some pass => simp [BindInfo.map, hUsername, hPassword, CredsFit] at hCreds
    | none =>
      have hTail := decodeLegacyTail_anonymous (hUnambiguous.anonymous hUsername) hPeer
        hFits.cert hAlias
      simpa [BindInfo.unmarked, BindInfo.map, credsLayout, bindIdentity, hUsername, hPassword]
        using hTail
  | some user =>
    cases hPassword : texts.password with
    | none => simp [BindInfo.map, hUsername, hPassword, CredsFit] at hCreds
    | some pass =>
      simp only [BindInfo.map, hUsername, hPassword, CredsFit, Option.map_some] at hCreds
      have hNonempty : pass ≠ [] := by
        rintro rfl
        exact hUnambiguous.password hPassword
      have hTail := decodeLegacyTail_creds (Nat.lt_succ_of_le hCreds.1)
        (Nat.lt_succ_of_le hCreds.2) hNonempty hPeer hFits.cert hAlias
      simpa [BindInfo.unmarked, BindInfo.map, credsLayout, bindIdentity, hUsername, hPassword]
        using hTail

/-- A peer and a certificate without credentials are long enough to be credentials. -/
theorem not_readFrom_peer_cert {literal : List UInt8} (hLt : literal.length < 65536)
    (payload rest : List UInt8) (hAnonymous : identity.username = none) :
    ¬ identity.ReadFrom ip (block literal ++ (block payload ++ rest)) := by
  intro hRead
  cases hRead.anonymous hAnonymous with
  | inl hNil => cases hNil
  | inr hShort =>
    rw [uintAt_block _ hLt] at hShort
    simp only [List.length_append, length_block] at hShort
    omega

theorem unambiguous_of_decodeLegacyTail {n : Nat} (hFits : (texts.map asBytes).Fits)
    (hDecode : decodeLegacyTail ip ((texts.map asBytes).unmarked ++ bigEndian 2 texts.aliasMax) =
      .ok (bindIdentity texts, n)) : Unambiguous ip texts := by
  have hRead := decodeLegacyTail_readFrom hDecode
  constructor
  case password => exact hRead.elim (·.password) (·.password)
  case peer => exact hRead.elim (·.peerhost) (·.peerhost)
  case anonymous =>
    intro hUsername
    cases hPeer : texts.peer with
    | none => exact .inl rfl
    | some literal =>
      cases hCert : texts.cert with
      | none => exact .inr rfl
      | some cert =>
        have hLength := hFits.peer (asBytes literal)
          (Option.mem_map_of_mem asBytes (Option.mem_def.mpr hPeer))
        have hLt := Nat.lt_succ_of_le hLength.2
        have hBytes : (texts.map asBytes).unmarked =
            block (asBytes literal) ++ block (cert.map asBytes).layout := by
          simp [BindInfo.unmarked, BindInfo.map, credsLayout, peerLayout, certLayout,
            hUsername, hPeer, hCert]
        rw [hBytes, List.append_assoc] at hRead
        cases hRead with
        | inl hWhole => exact absurd hWhole (not_readFrom_peer_cert hLt _ _ hUsername)
        | inr hPart =>
          rw [← List.append_nil (block (cert.map asBytes).layout)] at hPart
          exact absurd hPart (not_readFrom_peer_cert hLt _ _ hUsername)

end IndraMqtt.Link

import IndraMqtt.Lib.Bytes
import IndraMqtt.Session.Offline
import Mathlib.Data.List.TakeWhile

/-! The names of the queue files. A name spells its tenant and its client id byte by byte, so
that a restart can read them off the directory. Two queues never share a file. -/
namespace IndraMqtt.Storage

open Protocol Sessions Bytes
open OfflineQueueStore (hasPath)

variable {key : SessionKey}

def asChar (byte : UInt8) : Char := Char.ofNat byte.toNat

def isPlain (c : Char) : Bool := c.isAlphanum || c == '-' || c == '_' || c == '.'

/-- One byte of a name: itself, or `%` and two digits of base sixteen. -/
def encodeByte (byte : UInt8) : Str :=
  if isPlain (asChar byte) then [asChar byte]
  else ['%', (Nat.digitChar (byte.toNat / 16)).toUpper, (Nat.digitChar (byte.toNat % 16)).toUpper]

def encodeClient (clientId : Str) : Str := (asBytes clientId).flatMap encodeByte

def hexValue (c : Char) : Option Nat :=
  if c.isDigit then some (c.toNat - '0'.toNat)
  else if 'a' ≤ c ∧ c ≤ 'f' then some (c.toNat - 'a'.toNat + 10)
  else if 'A' ≤ c ∧ c ≤ 'F' then some (c.toNat - 'A'.toNat + 10)
  else none

/-- `u8::from_str_radix` on two bytes, which takes a sign in front of one digit. -/
def hexByte (first second : UInt8) : Option UInt8 :=
  if asChar first = '+' then (hexValue (asChar second)).map UInt8.ofNat
  else
    (hexValue (asChar first)).bind fun high =>
      (hexValue (asChar second)).map fun low => UInt8.ofNat (16 * high + low)

def decodeBytes : List UInt8 → Option (List UInt8)
  | [] => some []
  | byte :: rest =>
    if asChar byte = '%' then
      match rest with
      | first :: second :: rest =>
        (hexByte first second).bind fun byte => (decodeBytes rest).map (byte :: ·)
      | _ => none
    else (decodeBytes rest).map (byte :: ·)

def decodeClient (encoded : Str) : Option Str := (decodeBytes (asBytes encoded)).bind fromUtf8

/-- `decode_key`: the queue that a file belongs to. -/
def decodeKey (stem : Str) : Option SessionKey :=
  match stem.dropWhile (· != '+') with
  | [] => (decodeClient stem).map fun clientId => { tenant := defaultTenantId, clientId }
  | _ :: clientEnc =>
    let tenantEnc := stem.takeWhile (· != '+')
    if tenantEnc.isEmpty || clientEnc.isEmpty then none
    else if clientEnc.contains '+' then none
    else
      (decodeClient tenantEnc).bind fun tenant =>
        (decodeClient clientEnc).bind fun clientId =>
          if tenant.isEmpty || clientId.isEmpty then none else some { tenant, clientId }

def logStem (key : SessionKey) : Str :=
  if key.tenant = defaultTenantId then encodeClient key.clientId
  else encodeClient key.tenant ++ '+' :: encodeClient key.clientId

def logPathFor (key : SessionKey) : Option Str :=
  if hasPath key then some (logStem key ++ ".log".toList) else none

def stripLog (name : Str) : Option Str :=
  if ".log".toList.isSuffixOf name then some (name.take (name.length - 4)) else none

def readsBack (byte : UInt8) : Bool :=
  match asBytes (encodeByte byte) with
  | [only] => only == byte && asChar byte != '%'
  | [mark, first, second] => asChar mark == '%' && hexByte first second == some byte
  | _ => false

theorem readsBack_all (byte : UInt8) : readsBack byte = true := by
  have hAll : ∀ n : Fin 256, readsBack (UInt8.ofNat n) = true := by decide +kernel
  have hByte := hAll ⟨byte.toNat, byte.toNat_lt⟩
  rwa [UInt8.ofNat_toNat] at hByte

theorem decodeBytes_plain {byte : UInt8} (hPlain : asChar byte ≠ '%') (rest : List UInt8) :
    decodeBytes (byte :: rest) = (decodeBytes rest).map (byte :: ·) := by
  cases rest with
  | nil => simp [decodeBytes, hPlain]
  | cons first rest =>
    cases rest with
    | nil => simp [decodeBytes, hPlain]
    | cons second rest => simp [decodeBytes, hPlain]

theorem decodeBytes_encodeByte (byte : UInt8) (rest : List UInt8) :
    decodeBytes (asBytes (encodeByte byte) ++ rest) = (decodeBytes rest).map (byte :: ·) := by
  have hBack := readsBack_all byte
  grind [readsBack, decodeBytes_plain, decodeBytes]

theorem decodeBytes_encoded (bytes : List UInt8) :
    decodeBytes (asBytes (bytes.flatMap encodeByte)) = some bytes := by
  induction bytes with
  | nil => rfl
  | cons byte bytes ih =>
    have hSplit : asBytes ((byte :: bytes).flatMap encodeByte) =
        asBytes (encodeByte byte) ++ asBytes (bytes.flatMap encodeByte) := by
      rw [List.flatMap_cons]
      exact List.flatMap_append
    rw [hSplit, decodeBytes_encodeByte, ih, Option.map_some]

@[simp] theorem decodeClient_encodeClient (clientId : Str) :
    decodeClient (encodeClient clientId) = some clientId := by
  rw [decodeClient, encodeClient, decodeBytes_encoded, Option.bind_some]
  exact fromUtf8_eq_some.mpr rfl

variable {clientId : Str} {c : Char}

theorem encodeClient_inj {other : Str} :
    encodeClient clientId = encodeClient other ↔ clientId = other := by
  refine ⟨fun hSame => ?_, congrArg encodeClient⟩
  have hDecoded := congrArg decodeClient hSame
  rwa [decodeClient_encodeClient, decodeClient_encodeClient, Option.some.injEq] at hDecoded

/-- The characters of an encoded half. -/
theorem encodeClient_chars (hMem : c ∈ encodeClient clientId) : isPlain c = true ∨ c = '%' := by
  have hAll : ∀ n : Fin 256,
      (encodeByte (UInt8.ofNat n)).all (fun c => isPlain c || c == '%') = true := by
    decide +kernel
  obtain ⟨byte, -, hByte⟩ := List.mem_flatMap.mp hMem
  have hChars := hAll ⟨byte.toNat, byte.toNat_lt⟩
  rw [UInt8.ofNat_toNat, List.all_eq_true] at hChars
  simpa using hChars c hByte

theorem not_mem_encodeClient (hOther : isPlain c = false ∧ c ≠ '%') (clientId : Str) :
    c ∉ encodeClient clientId := fun hMem => by
  have hChar := encodeClient_chars hMem
  simp_all

theorem dotted_encodeClient : encodeClient clientId = ['.'] ∨ encodeClient clientId = ['.', '.'] ↔
      clientId = ['.'] ∨ clientId = ['.', '.'] := by
  have hDot : encodeClient ['.'] = ['.'] := by decide +kernel
  have hDots : encodeClient ['.', '.'] = ['.', '.'] := by decide +kernel
  rw [← @encodeClient_inj clientId ['.'], ← @encodeClient_inj clientId ['.', '.'], hDot, hDots]

theorem decodeKey_logStem (hPath : hasPath key = true) : decodeKey (logStem key) = some key := by
  obtain ⟨tenant, clientId⟩ := key
  simp only [hasPath, Bool.and_eq_true, bne_iff_ne] at hPath
  have hPlus := not_mem_encodeClient (c := '+') (by decide +kernel)
  have hAll : ∀ half, ∀ c ∈ encodeClient half, (c != '+') = true := by
    intro half c hMem
    exact bne_iff_ne.mpr fun hC => hPlus half (hC ▸ hMem)
  have hNil : ∀ half, (encodeClient half).isEmpty = true ↔ half = [] := fun half => by
    rw [List.isEmpty_iff]
    exact @encodeClient_inj half []
  unfold logStem
  by_cases hTenant : tenant = defaultTenantId
  · rw [if_pos hTenant, decodeKey, List.dropWhile_eq_nil_iff.mpr (hAll clientId)]
    simp [hTenant]
  · rw [if_neg hTenant, decodeKey, List.dropWhile_append_of_pos (hAll tenant),
      List.dropWhile_cons_of_neg (by simp)]
    simp [List.takeWhile_append_of_pos (hAll tenant), hNil, hPath, hPlus]

theorem decodeKey_of_logPathFor {name : Str} (hPath : logPathFor key = some name) :
    (stripLog name).bind decodeKey = some key := by
  unfold logPathFor at hPath
  split at hPath
  · next hAccepted =>
    cases hPath
    have hEnd : ".log".toList.isSuffixOf (logStem key ++ ".log".toList) = true :=
      List.isSuffixOf_iff_suffix.mpr (List.suffix_append _ _)
    have hStem : (logStem key ++ ".log".toList).take
        ((logStem key ++ ".log".toList).length - 4) = logStem key := by
      rw [List.length_append]
      exact List.take_left
    rw [stripLog, if_pos hEnd, hStem, Option.bind_some, decodeKey_logStem hAccepted]
  · cases hPath

/-- The name of a queue file leads back to its queue and lies in the directory of the queues. In
the default tenant the client ids `.` and `..` are their own stems, but with its ending no name
is one of the two. -/
theorem logStem_spec (hPath : hasPath key = true) :
    decodeKey (logStem key) = some key ∧
      (∀ other, hasPath other = true → logStem other = logStem key →
        other = key) ∧
      '/' ∉ logStem key ∧ '\\' ∉ logStem key ∧
      (logStem key = ['.'] ∨ logStem key = ['.', '.'] ↔
        key.tenant = defaultTenantId ∧ (key.clientId = ['.'] ∨ key.clientId = ['.', '.'])) ∧
      ∀ name, logPathFor key = some name → name ≠ ['.'] ∧ name ≠ ['.', '.'] := by
  have hDecoded := decodeKey_logStem hPath
  have hAbsent : ∀ c, c ≠ '+' → isPlain c = false ∧ c ≠ '%' → c ∉ logStem key := by
    intro c hPlus hOther
    have hHalf := not_mem_encodeClient hOther
    unfold logStem
    split
    · exact hHalf _
    · simp [hHalf, hPlus]
  refine ⟨hDecoded, fun other hOther hSame => ?_, hAbsent _ (by decide) (by decide +kernel),
    hAbsent _ (by decide) (by decide +kernel), ?_, fun name hName => ?_⟩
  · have hBack := decodeKey_logStem hOther
    rw [hSame, hDecoded] at hBack
    exact (Option.some.inj hBack).symm
  · by_cases hTenant : key.tenant = defaultTenantId
    · simp [logStem, hTenant, dotted_encodeClient]
    · have hMem : '+' ∈ logStem key := by simp [logStem, hTenant]
      refine ⟨fun hDots => ?_, fun hDots => absurd hDots.1 hTenant⟩
      obtain hDots | hDots := hDots <;> simp [hDots] at hMem
  · rw [logPathFor, if_pos hPath, Option.some.injEq] at hName
    have hLength : 4 ≤ name.length := by
      rw [← hName, List.length_append]
      exact Nat.le_add_left 4 _
    constructor <;> rintro rfl <;> simp at hLength

theorem stem_of_reader :
    decodeKey (logStem ⟨"a+b".toList, "x/y".toList⟩) = some ⟨"a+b".toList, "x/y".toList⟩ :=
  (logStem_spec (by decide)).1

/-- Two queues of the default tenant whose stems name the directory and the one above it. -/
theorem stem_of_dots :
    hasPath ⟨defaultTenantId, ['.']⟩ = true ∧
      logStem ⟨defaultTenantId, ['.']⟩ = ['.'] ∧
      logStem ⟨defaultTenantId, ['.', '.']⟩ = ['.', '.'] := by
  decide +kernel

end IndraMqtt.Storage

import IndraMqtt.Kernel.Subscribe
import IndraMqtt.Native.Egress
import IndraMqtt.Wire.Packets

/-! The metadata of a `SubscribeIn` frame. A version 4 SUBSCRIBE is written in the legacy form,
which has a QoS byte for each filter. The kernel tries the extended form first, in which four
bytes of subscription identifier follow the byte, and it has nothing but the lengths to tell
the two apart. -/
namespace IndraMqtt.Edge

open Bytes

variable {subs : List (Str × UInt8)} {entries : List SubscribeEntry} {bytes : List UInt8}
  {count : Nat} {clientId : Str} {packetId : UInt16}

def validateMetaSubs (subs : List (List UInt8 × Nat)) : Bool :=
  !subs.isEmpty && subs.length ≤ 65535 && subs.all fun sub => 0 < sub.1.length && sub.2 ≤ 2

def encodeSubscribeMeta (packetId : Nat) (clientId : List UInt8)
    (subs : List (List UInt8 × Nat)) : Option (List UInt8) :=
  if 1 ≤ packetId && packetId ≤ 65535 && validateMetaSubs subs then
    let subBin := subs.foldl
      (fun acc sub => acc ++ (bigEndian 2 sub.1.length ++ sub.1 ++ bigEndian 1 sub.2)) []
    some (bigEndian 2 packetId ++ (bigEndian 2 clientId.length ++ clientId) ++
      bigEndian 2 subs.length ++ subBin)
  else none

end IndraMqtt.Edge

namespace IndraMqtt.Native

open Bytes Protocol Wire

def subscribeInMeta (clientId : Str) (subscribe : Subscribe) (level : Nat) : List UInt8 :=
  bigEndian 2 subscribe.packetId.toNat ++
    (bigEndian 2 (asBytes clientId).length ++ asBytes clientId) ++
    bigEndian 2 subscribe.filters.length ++
    subscribe.filters.flatMap fun filter =>
      bigEndian 2 (asBytes filter.1).length ++ asBytes filter.1 ++ [filter.2] ++
        if level = 5 then bigEndian 4 subscribe.subscriptionId else []

end IndraMqtt.Native

namespace IndraMqtt.Link

open Bytes Protocol Wire Kernel
open Native (maxMetaLen)

/-! ### The decoder -/

def takeFilter : List UInt8 → Option (Str × List UInt8) := takeText List.isEmpty

def takeLegacyEntry : List UInt8 → Option (SubscribeEntry × List UInt8) :=
  takeAs
    (fun (filter, qos) =>
      some { filter, optsRaw := qos, subscriptionId := 0, hasOptions := false })
    (takeBoth takeFilter takeByte)

def takeExtendedEntry : List UInt8 → Option (SubscribeEntry × List UInt8) :=
  takeAs
    (fun (filter, opts, subId) =>
      some { filter, optsRaw := opts, subscriptionId := subId, hasOptions := true })
    (takeBoth takeFilter (takeBoth takeByte (takeUInt 4)))

def decodeSubscribeEntriesV5 (count : Nat) (bytes : List UInt8) : Option (List SubscribeEntry) :=
  exactly (takeMany takeExtendedEntry count bytes)

def decodeSubscribeMeta (bytes : List UInt8) : Option (UInt16 × Str × List SubscribeEntry) :=
  (takeUInt 2 bytes).bind fun packetId =>
    if packetId.1 = 0 then none
    else
      (takeBoth takeBlock (takeUInt 2) packetId.2).bind fun head =>
        (fromUtf8 head.1.1).bind fun clientId =>
          ((decodeSubscribeEntriesV5 head.1.2 head.2).or
            (exactly (takeMany takeLegacyEntry head.1.2 head.2))).map fun entries =>
              (UInt16.ofNat packetId.1, clientId, entries)

/-! ### What the decoder accepts -/

def FilterFits (filter : Str) : Prop := filter ≠ [] ∧ filter.len < 65536

theorem reads_takeFilter : Reads takeFilter FilterFits fun filter => block (asBytes filter) := by
  refine (reads_takeText List.isEmpty).congr (fun filter => ?_) (fun _ => rfl)
  rw [FilterFits, length_asBytes, List.isEmpty_eq_false_iff, ne_eq, asBytes_eq_nil]

def legacyBytes (entry : SubscribeEntry) : List UInt8 :=
  block (asBytes entry.filter) ++ [entry.optsRaw]

def extendedBytes (entry : SubscribeEntry) : List UInt8 :=
  block (asBytes entry.filter) ++ ([entry.optsRaw] ++ bigEndian 4 entry.subscriptionId)

structure IsLegacy (entry : SubscribeEntry) : Prop where
  filter : FilterFits entry.filter
  subscriptionId : entry.subscriptionId = 0
  hasOptions : entry.hasOptions = false

structure IsExtended (entry : SubscribeEntry) : Prop where
  filter : FilterFits entry.filter
  subscriptionId : entry.subscriptionId < 256 ^ 4
  hasOptions : entry.hasOptions = true

theorem reads_takeLegacyEntry : Reads takeLegacyEntry IsLegacy legacyBytes := by
  have hConvert : ∀ (x : Str × UInt8) (entry : SubscribeEntry), FilterFits x.1 ∧ True →
      (some { filter := x.1, optsRaw := x.2, subscriptionId := 0, hasOptions := false } =
        some entry ↔ (entry.subscriptionId = 0 ∧ entry.hasOptions = false) ∧
          x = (entry.filter, entry.optsRaw)) := by
    rintro ⟨filter, qos⟩ ⟨filter', optsRaw, subscriptionId, hasOptions⟩ -
    simp only [Option.some.injEq, SubscribeEntry.mk.injEq, Prod.mk.injEq]
    tauto
  refine ((reads_takeFilter.both reads_takeByte).convert hConvert).congr ?_ (fun _ => rfl)
  intro entry
  exact ⟨fun ⟨⟨hId, hOptions⟩, hFits, _⟩ => ⟨hFits, hId, hOptions⟩,
    fun hLegacy => ⟨⟨hLegacy.subscriptionId, hLegacy.hasOptions⟩, hLegacy.filter, trivial⟩⟩

theorem reads_takeExtendedEntry : Reads takeExtendedEntry IsExtended extendedBytes := by
  have hConvert : ∀ (x : Str × UInt8 × Nat) (entry : SubscribeEntry),
      FilterFits x.1 ∧ True ∧ x.2.2 < 256 ^ 4 →
      (some { filter := x.1, optsRaw := x.2.1, subscriptionId := x.2.2, hasOptions := true } =
        some entry ↔ entry.hasOptions = true ∧
          x = (entry.filter, entry.optsRaw, entry.subscriptionId)) := by
    rintro ⟨filter, opts, subId⟩ ⟨filter', optsRaw, subscriptionId, hasOptions⟩ -
    simp only [Option.some.injEq, SubscribeEntry.mk.injEq, Prod.mk.injEq]
    tauto
  refine ((reads_takeFilter.both (reads_takeByte.both (reads_takeUInt 4))).convert
    hConvert).congr ?_ (fun _ => rfl)
  intro entry
  exact ⟨fun ⟨hOptions, hFits, _, hLt⟩ => ⟨hFits, hLt, hOptions⟩,
    fun hExtended => ⟨hExtended.hasOptions, hExtended.filter, trivial, hExtended.subscriptionId⟩⟩

def subscribeMeta (packetId : UInt16) (clientId : Str) (count : Nat) (entries : List UInt8) :
    List UInt8 :=
  bigEndian 2 packetId.toNat ++ (block (asBytes clientId) ++ bigEndian 2 count ++ entries)

theorem decodeSubscribeMeta_form (hId : packetId ≠ 0) (hClient : clientId.len < 65536)
    (hCount : count < 65536) (entries : List UInt8) :
    decodeSubscribeMeta (subscribeMeta packetId clientId count entries) =
      ((decodeSubscribeEntriesV5 count entries).or
        (exactly (takeMany takeLegacyEntry count entries))).map
          fun entries => (packetId, clientId, entries) := by
  have hNonzero : packetId.toNat ≠ 0 := fun hZero => hId (UInt16.toNat_inj.mp hZero)
  have hHead := (reads_takeBlock.both (reads_takeUInt 2)).append (x := (asBytes clientId, count))
    ⟨(length_asBytes clientId).symm ▸ hClient, hCount⟩ entries
  rw [decodeSubscribeMeta, subscribeMeta, (reads_takeUInt 2).append packetId.toNat_lt,
    Option.bind_some, if_neg hNonzero, hHead, Option.bind_some, fromUtf8_eq_some.mpr rfl,
    Option.bind_some, UInt16.ofNat_toNat]

/-! ### The legacy form -/

def legacyEntry (sub : Str × UInt8) : SubscribeEntry :=
  { filter := sub.1, optsRaw := sub.2, subscriptionId := 0, hasOptions := false }

def legacyEntries (subs : List (Str × UInt8)) : List UInt8 :=
  (subs.map legacyEntry).flatMap legacyBytes

/-- The metadata that an end of the link writes for a version 4 SUBSCRIBE with these filters. -/
inductive Written (packetId : UInt16) (clientId : Str) (subs : List (Str × UInt8)) :
    List UInt8 → Prop where
  | edge {bytes : List UInt8}
      (hEncode : Edge.encodeSubscribeMeta packetId.toNat (asBytes clientId)
        (subs.map fun sub => (asBytes sub.1, sub.2.toNat)) = some bytes)
      (hFits : bytes.length ≤ maxMetaLen) : Written packetId clientId subs bytes
  | native {level : Nat} {body : List UInt8} {subscribe : Subscribe} (hLevel : level ≠ 5)
      (hDecode : decodeSubscribe body level = .ok subscribe)
      (hId : subscribe.packetId = packetId) (hFilters : subscribe.filters = subs)
      (hFits : (Native.subscribeInMeta clientId subscribe level).length ≤ maxMetaLen) :
      Written packetId clientId subs (Native.subscribeInMeta clientId subscribe level)

/-- What both writers guarantee. -/
structure LegacyForm (packetId : UInt16) (clientId : Str) (subs : List (Str × UInt8))
    (bytes : List UInt8) : Prop where
  nonzero : packetId ≠ 0
  nonempty : subs ≠ []
  filters : ∀ sub ∈ subs, sub.1 ≠ []
  fits : bytes.length ≤ maxMetaLen
  form : bytes = subscribeMeta packetId clientId subs.length (legacyEntries subs)

theorem legacyEntries_eq (subs : List (Str × UInt8)) :
    legacyEntries subs = subs.flatMap fun sub => block (asBytes sub.1) ++ [sub.2] := by
  rw [legacyEntries, List.flatMap_map]
  rfl

theorem Written.legacyForm (hWritten : Written packetId clientId subs bytes) :
    LegacyForm packetId clientId subs bytes := by
  cases hWritten with
  | edge hEncode hFits =>
    unfold Edge.encodeSubscribeMeta at hEncode
    split at hEncode
    · next hGuard =>
      simp only [Edge.validateMetaSubs, Bool.and_eq_true, decide_eq_true_eq, Bool.not_eq_true',
        List.isEmpty_eq_false_iff, List.all_eq_true, List.length_map] at hGuard
      obtain ⟨⟨hId, -⟩, ⟨hSubs, -⟩, hAll⟩ := hGuard
      have hBytes := Option.some.inj hEncode
      refine ⟨?_, ?_, ?_, hFits, ?_⟩
      · intro hZero
        rw [hZero] at hId
        exact absurd hId (by decide)
      · intro hNil
        exact hSubs (by rw [hNil]; rfl)
      · intro sub hMem hNil
        have hSub := hAll _ (List.mem_map_of_mem hMem)
        rw [hNil] at hSub
        exact absurd hSub.1 (Nat.lt_irrefl 0)
      · rw [← hBytes, ← List.flatMap_eq_foldl, List.flatMap_map, List.length_map,
          legacyEntries_eq, subscribeMeta]
        simp [bigEndian, block]
    · cases hEncode
  | native hLevel hDecode hId hFilters hFits =>
    obtain ⟨hNonzero, hSome, hNonempty⟩ := decodeSubscribe_accepted hDecode
    subst hId hFilters
    refine ⟨hNonzero, hSome, hNonempty, hFits, ?_⟩
    rw [Native.subscribeInMeta, legacyEntries_eq, subscribeMeta]
    simp [hLevel, block]

theorem length_legacyEntries (subs : List (Str × UInt8)) :
    subs.length ≤ (legacyEntries subs).length ∧
      ∀ sub ∈ subs, sub.1.len ≤ (legacyEntries subs).length := by
  induction subs with
  | nil => exact ⟨Nat.le_refl 0, fun _ hMem => absurd hMem List.not_mem_nil⟩
  | cons first subs ih =>
    have hLength : (legacyEntries (first :: subs)).length =
        first.1.len + 3 + (legacyEntries subs).length := by
      rw [legacyEntries, List.map_cons, List.flatMap_cons, List.length_append]
      simp [legacyEntries, legacyBytes, legacyEntry, length_asBytes]
    grind

/-- Everything in a frame fits its length field. -/
theorem LegacyForm.sizes (hForm : LegacyForm packetId clientId subs bytes) :
    clientId.len < 65536 ∧ subs.length < 65536 ∧ ∀ sub ∈ subs, FilterFits sub.1 := by
  have hFits := hForm.fits
  obtain ⟨hCount, hFilters⟩ := length_legacyEntries subs
  rw [hForm.form] at hFits
  simp only [subscribeMeta, List.length_append, length_block, length_bigEndian, length_asBytes,
    maxMetaLen] at hFits
  refine ⟨by omega, by omega, fun sub hMem => ⟨hForm.filters sub hMem, ?_⟩⟩
  have hSub := hFilters sub hMem
  omega

/-- The bytes of the legacy entries are also those of as many extended entries. -/
def Ambiguous (subs : List (Str × UInt8)) : Prop :=
  ∃ entries : List SubscribeEntry, entries.length = subs.length ∧
    (∀ entry ∈ entries, IsExtended entry) ∧ entries.flatMap extendedBytes = legacyEntries subs

theorem decodeSubscribeEntriesV5_eq_some : decodeSubscribeEntriesV5 count bytes = some entries ↔
      (entries.length = count ∧ ∀ entry ∈ entries, IsExtended entry) ∧
        bytes = entries.flatMap extendedBytes :=
  (reads_takeExtendedEntry.many count).exactly

theorem LegacyForm.decode_ambiguous (hForm : LegacyForm packetId clientId subs bytes)
    (hLength : entries.length = subs.length) (hExtended : ∀ entry ∈ entries, IsExtended entry)
    (hBytes : entries.flatMap extendedBytes = legacyEntries subs) :
    decodeSubscribeMeta bytes = some (packetId, clientId, entries) := by
  obtain ⟨hClient, hCount, -⟩ := hForm.sizes
  have hEntries := decodeSubscribeEntriesV5_eq_some.mpr ⟨⟨hLength, hExtended⟩, hBytes.symm⟩
  rw [hForm.form, decodeSubscribeMeta_form hForm.nonzero hClient hCount, hEntries]
  rfl

theorem LegacyForm.decode_unambiguous (hForm : LegacyForm packetId clientId subs bytes)
    (hUnique : ¬ Ambiguous subs) :
    decodeSubscribeMeta bytes = some (packetId, clientId, subs.map legacyEntry) := by
  obtain ⟨hClient, hCount, hFilters⟩ := hForm.sizes
  have hNone : decodeSubscribeEntriesV5 subs.length (legacyEntries subs) = none := by
    cases hEntries : decodeSubscribeEntriesV5 subs.length (legacyEntries subs) with
    | none => rfl
    | some entries =>
      obtain ⟨⟨hLength, hExtended⟩, hBytes⟩ := decodeSubscribeEntriesV5_eq_some.mp hEntries
      exact absurd ⟨entries, hLength, hExtended, hBytes.symm⟩ hUnique
  have hLegacy : exactly (takeMany takeLegacyEntry subs.length (legacyEntries subs)) =
      some (subs.map legacyEntry) := by
    refine (reads_takeLegacyEntry.many subs.length).exactly.mpr ⟨⟨List.length_map .., ?_⟩, rfl⟩
    intro entry hMem
    obtain ⟨sub, hSub, rfl⟩ := List.mem_map.mp hMem
    exact ⟨hFilters sub hSub, rfl, rfl⟩
  rw [hForm.form, decodeSubscribeMeta_form hForm.nonzero hClient hCount, hNone, Option.none_or,
    hLegacy]
  rfl

/-- The kernel reads back the list of a version 4 SUBSCRIBE exactly when its bytes are not
those of an extended list as well. -/
theorem legacy_decoded_iff {packetId : UInt16} {clientId : Str} {subs : List (Str × UInt8)}
    {bytes : List UInt8} (hWritten : Written packetId clientId subs bytes) :
    decodeSubscribeMeta bytes = some (packetId, clientId, subs.map legacyEntry) ↔
      ¬ Ambiguous subs := by
  have hForm := hWritten.legacyForm
  refine ⟨?_, hForm.decode_unambiguous⟩
  rintro hDecode ⟨entries, hLength, hExtended, hBytes⟩
  rw [hForm.decode_ambiguous hLength hExtended hBytes] at hDecode
  have hEntries : entries = subs.map legacyEntry := by
    simpa only [Option.some.injEq, Prod.mk.injEq, true_and] using hDecode
  cases subs with
  | nil => exact hForm.nonempty rfl
  | cons sub subs =>
    have hHead := (hExtended (legacyEntry sub) (by rw [hEntries]; simp)).hasOptions
    cases hHead

def meterSubscribes (subs : List (Str × UInt8)) : Option (List UInt8) :=
  Edge.encodeSubscribeMeta (9 : UInt16).toNat (asBytes "meter".toList)
    (subs.map fun sub => (asBytes sub.1, sub.2.toNat))

theorem written_meterSubscribes (hEncode : meterSubscribes subs = some bytes)
    (hFits : decide (bytes.length ≤ maxMetaLen) = true) : Written 9 "meter".toList subs bytes :=
  Written.edge hEncode (of_decide_eq_true hFits)

/-- Two short filters are read back. -/
theorem short_filters_unambiguous :
    ∃ bytes, Written 9 "meter".toList [("a".toList, 1), ("b".toList, 2)] bytes ∧
      ¬ Ambiguous [("a".toList, 1), ("b".toList, 2)] := by
  have hDecoded : (meterSubscribes [("a".toList, 1), ("b".toList, 2)]).map
      (fun bytes => (decide (bytes.length ≤ maxMetaLen), decodeSubscribeMeta bytes)) =
      some (true, some (9, "meter".toList,
        [("a".toList, 1), ("b".toList, 2)].map legacyEntry)) := by decide +kernel
  obtain ⟨bytes, hEncode, hResult⟩ := Option.map_eq_some_iff.mp hDecoded
  obtain ⟨hFits, hDecode⟩ := Prod.mk.inj hResult
  have hWritten := written_meterSubscribes hEncode hFits
  exact ⟨bytes, hWritten, (legacy_decoded_iff hWritten).mp hDecode⟩

def longFilter : Str :=
  ['b', 'b', '\x01', '\x01'] ++ List.replicate 257 'c' ++ ['d', 'd', 'd', 'd']

/-- The client asks for `a` and for a long filter, and the kernel reads a piece of the long
filter with options and an identifier. -/
theorem long_filter_misread :
    ∃ bytes, Written 9 "meter".toList [("a".toList, 0), (longFilter, 0)] bytes ∧
      decodeSubscribeMeta bytes = some (9, "meter".toList,
        [⟨"a".toList, 0, 0x01096262, true⟩, ⟨List.replicate 257 'c', 0x64, 0x64646400, true⟩]) := by
  have hFits : (meterSubscribes [("a".toList, 0), (longFilter, 0)]).map
      (fun bytes => decide (bytes.length ≤ maxMetaLen)) = some true := by decide +kernel
  obtain ⟨bytes, hEncode, hResult⟩ := Option.map_eq_some_iff.mp hFits
  have hWritten := written_meterSubscribes hEncode hResult
  refine ⟨bytes, hWritten, hWritten.legacyForm.decode_ambiguous rfl ?_ (by decide +kernel)⟩
  intro entry hMem
  simp only [List.mem_cons, List.not_mem_nil, or_false] at hMem
  obtain rfl | rfl := hMem
  · exact ⟨⟨by decide, by decide⟩, by decide, rfl⟩
  · exact ⟨⟨by decide +kernel, by decide +kernel⟩, by decide, rfl⟩

end IndraMqtt.Link

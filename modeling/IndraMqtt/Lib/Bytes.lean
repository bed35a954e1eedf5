import Mathlib.Algebra.Order.Ring.Nat
import Mathlib.Data.List.Induction

/-! Byte strings made of big-endian numbers, length-prefixed blocks and UTF-8 text. A reader
takes a value off the front of the bytes and returns it with the rest. Its law says which
bytes it accepts: those that a writer puts in front of the rest. -/
namespace IndraMqtt.Bytes

/-! ### Big-endian numbers -/

def bigEndian : Nat → Nat → List UInt8
  | 0, _ => []
  | width + 1, n => UInt8.ofNat (n / 256 ^ width) :: bigEndian width n

def ofBigEndian : List UInt8 → Nat
  | [] => 0
  | byte :: bytes => byte.toNat * 256 ^ bytes.length + ofBigEndian bytes

@[simp] theorem length_bigEndian (width n : Nat) : (bigEndian width n).length = width := by
  induction width with
  | zero => rfl
  | succ width ih => simp [bigEndian, ih]

theorem ofBigEndian_lt (bytes : List UInt8) : ofBigEndian bytes < 256 ^ bytes.length := by
  induction bytes with
  | nil => simp [ofBigEndian]
  | cons byte bytes ih =>
    have hByte := byte.toNat_lt
    calc ofBigEndian (byte :: bytes)
        < byte.toNat * 256 ^ bytes.length + 256 ^ bytes.length := Nat.add_lt_add_left ih _
      _ = (byte.toNat + 1) * 256 ^ bytes.length := (Nat.succ_mul ..).symm
      _ ≤ 256 * 256 ^ bytes.length := Nat.mul_le_mul_right _ hByte
      _ = 256 ^ (byte :: bytes).length := (Nat.pow_succ').symm

theorem ofBigEndian_bigEndian (width n : Nat) : ofBigEndian (bigEndian width n) = n % 256 ^ width := by
  induction width with
  | zero => simp [bigEndian, ofBigEndian, Nat.mod_one]
  | succ width ih =>
    have hByte : (UInt8.ofNat (n / 256 ^ width)).toNat = n / 256 ^ width % 256 :=
      UInt8.toNat_ofNat' ..
    rw [bigEndian, ofBigEndian, length_bigEndian, ih, hByte, Nat.pow_succ, Nat.mod_mul,
      Nat.add_comm, Nat.mul_comm]

/-- Bytes are the low bytes of their value, whatever stands above them. -/
theorem bigEndian_ofBigEndian (high : Nat) (bytes : List UInt8) :
    bigEndian bytes.length (high * 256 ^ bytes.length + ofBigEndian bytes) = bytes := by
  induction bytes generalizing high with
  | nil => rfl
  | cons byte bytes ih =>
    have hShape : high * 256 ^ (bytes.length + 1) + ofBigEndian (byte :: bytes) =
        (high * 256 + byte.toNat) * 256 ^ bytes.length + ofBigEndian bytes := by
      rw [ofBigEndian, Nat.pow_succ', Nat.add_mul, Nat.mul_assoc, Nat.add_assoc]
    have hHead : ((high * 256 + byte.toNat) * 256 ^ bytes.length + ofBigEndian bytes) /
        256 ^ bytes.length = high * 256 + byte.toNat := by
      simp [Nat.mul_comm, Nat.mul_add_div, ofBigEndian_lt]
    simp_all [bigEndian]

/-! ### Readers -/

def takeBytes (n : Nat) (bytes : List UInt8) : Option (List UInt8 × List UInt8) :=
  if n ≤ bytes.length then some (bytes.take n, bytes.drop n) else none

structure Reads {α : Type} (read : List UInt8 → Option (α × List UInt8)) (valid : α → Prop)
    (write : α → List UInt8) : Prop where
  law : ∀ bytes x rest, read bytes = some (x, rest) ↔ valid x ∧ bytes = write x ++ rest

variable {α β ε : Type} {bytes rest : List UInt8} {start count : Nat} {byte : UInt8}
  {read : List UInt8 → Option (α × List UInt8)} {valid : α → Prop} {write : α → List UInt8}
  {text : List Char}

theorem Reads.append (hReads : Reads read valid write) {x : α} (hValid : valid x)
    (rest : List UInt8) : read (write x ++ rest) = some (x, rest) :=
  (hReads.law _ x rest).mpr ⟨hValid, rfl⟩

theorem Reads.congr {valid' : α → Prop} {write' : α → List UInt8} (hReads : Reads read valid write)
    (hValid : ∀ x, valid x ↔ valid' x) (hWrite : ∀ x, write x = write' x) :
    Reads read valid' write' where
  law bytes x rest := by rw [hReads.law bytes x rest, hValid, hWrite]

theorem Reads.length_le (hReads : Reads read valid write) {x : α}
    (hRead : read bytes = some (x, rest)) : rest.length ≤ bytes.length := by
  obtain ⟨-, rfl⟩ := (hReads.law bytes x rest).mp hRead
  simp

theorem takeBytes_eq_some {n : Nat} {field : List UInt8} :
    takeBytes n bytes = some (field, rest) ↔ field.length = n ∧ bytes = field ++ rest := by
  grind [takeBytes, List.take_append_drop]

theorem reads_takeBytes (n : Nat) : Reads (takeBytes n) (·.length = n) id where
  law _ _ _ := takeBytes_eq_some

def takeUInt (width : Nat) (bytes : List UInt8) : Option (Nat × List UInt8) :=
  (takeBytes width bytes).map fun taken => (ofBigEndian taken.1, taken.2)

open Option (bind_eq_some_iff bind_some map_eq_some_iff map_some)

/-- A field of fixed width, read by a code and written by its inverse. -/
theorem reads_coded {width : Nat} {decode : List UInt8 → Nat} {encode : Nat → List UInt8}
    (hDecode : ∀ field, field.length = width →
      decode field < 256 ^ width ∧ encode (decode field) = field)
    (hEncode : ∀ n, n < 256 ^ width → (encode n).length = width ∧ decode (encode n) = n) :
    Reads (fun bytes => (takeBytes width bytes).map fun taken => (decode taken.1, taken.2))
      (· < 256 ^ width) encode where
  law bytes n rest := by
    constructor
    · intro hTake
      obtain ⟨⟨field, left⟩, hField, hResult⟩ := map_eq_some_iff.mp hTake
      obtain ⟨rfl, rfl⟩ := Prod.mk.inj hResult
      obtain ⟨hLength, rfl⟩ := takeBytes_eq_some.mp hField
      obtain ⟨hLt, hBytes⟩ := hDecode field hLength
      exact ⟨hLt, congrArg (· ++ left) hBytes.symm⟩
    · rintro ⟨hLt, rfl⟩
      obtain ⟨hLength, hValue⟩ := hEncode n hLt
      rw [takeBytes_eq_some.mpr ⟨hLength, rfl⟩, map_some, hValue]

theorem bigEndian_coded (field : List UInt8) :
    ofBigEndian field < 256 ^ field.length ∧ bigEndian field.length (ofBigEndian field) = field := by
  have hBytes := bigEndian_ofBigEndian 0 field
  rw [Nat.zero_mul, Nat.zero_add] at hBytes
  exact ⟨ofBigEndian_lt field, hBytes⟩

theorem reads_takeUInt (width : Nat) :
    Reads (takeUInt width) (· < 256 ^ width) (bigEndian width) := by
  refine reads_coded ?_ fun n hLt => ⟨length_bigEndian width n, ?_⟩
  · rintro field rfl
    exact bigEndian_coded field
  · rw [ofBigEndian_bigEndian, Nat.mod_eq_of_lt hLt]

def littleEndian (width n : Nat) : List UInt8 := (bigEndian width n).reverse

@[simp] theorem length_littleEndian (width n : Nat) : (littleEndian width n).length = width := by
  simp [littleEndian]

def ofLittleEndian (bytes : List UInt8) : Nat := ofBigEndian bytes.reverse

def takeLittle (width : Nat) (bytes : List UInt8) : Option (Nat × List UInt8) :=
  (takeBytes width bytes).map fun taken => (ofLittleEndian taken.1, taken.2)

theorem reads_takeLittle (width : Nat) :
    Reads (takeLittle width) (· < 256 ^ width) (littleEndian width) := by
  refine reads_coded ?_ fun n hLt => ⟨length_littleEndian width n, ?_⟩
  · rintro field rfl
    simpa [littleEndian, ofLittleEndian, List.reverse_eq_iff] using bigEndian_coded field.reverse
  · rw [ofLittleEndian, littleEndian, List.reverse_reverse, ofBigEndian_bigEndian,
      Nat.mod_eq_of_lt hLt]

def takeByte : List UInt8 → Option (UInt8 × List UInt8)
  | [] => none
  | byte :: rest => some (byte, rest)

theorem reads_takeByte : Reads takeByte (fun _ => True) ([·]) where
  law bytes byte rest := by
    cases bytes with
    | nil => simp [takeByte]
    | cons first bytes => simp [takeByte]

def block (bytes : List UInt8) : List UInt8 := bigEndian 2 bytes.length ++ bytes

@[simp] theorem length_block (bytes : List UInt8) : (block bytes).length = bytes.length + 2 := by
  simp [block, Nat.add_comm]

def takeBlock (bytes : List UInt8) : Option (List UInt8 × List UInt8) :=
  (takeUInt 2 bytes).bind fun taken => takeBytes taken.1 taken.2

theorem reads_takeBlock : Reads takeBlock (·.length < 65536) block where
  law bytes field rest := by
    constructor
    · intro hTake
      obtain ⟨⟨n, left⟩, hLength, hField⟩ := bind_eq_some_iff.mp hTake
      obtain ⟨hLt, rfl⟩ := ((reads_takeUInt 2).law _ n left).mp hLength
      obtain ⟨rfl, rfl⟩ := takeBytes_eq_some.mp hField
      exact ⟨hLt, (List.append_assoc ..).symm⟩
    · rintro ⟨hLt, rfl⟩
      rw [takeBlock, block, List.append_assoc, (reads_takeUInt 2).append hLt, bind_some]
      exact takeBytes_eq_some.mpr ⟨rfl, rfl⟩

def sized (width : Nat) (field : List UInt8) : List UInt8 :=
  littleEndian width field.length ++ field

def takeSized (width : Nat) (accepts : Nat → Bool) (bytes : List UInt8) :
    Option (List UInt8 × List UInt8) :=
  (takeLittle width bytes).bind fun taken =>
    if accepts taken.1 then takeBytes taken.1 taken.2 else none

theorem reads_takeSized (width : Nat) (accepts : Nat → Bool) : Reads (takeSized width accepts)
      (fun field => field.length < 256 ^ width ∧ accepts field.length = true) (sized width) where
  law bytes field rest := by
    constructor
    · intro hTake
      obtain ⟨⟨n, left⟩, hLength, hField⟩ := bind_eq_some_iff.mp hTake
      obtain ⟨hLt, rfl⟩ := ((reads_takeLittle width).law _ n left).mp hLength
      split at hField
      · next hAccepts =>
        obtain ⟨rfl, rfl⟩ := takeBytes_eq_some.mp hField
        exact ⟨⟨hLt, hAccepts⟩, (List.append_assoc ..).symm⟩
      · cases hField
    · rintro ⟨⟨hLt, hAccepts⟩, rfl⟩
      rw [takeSized, sized, List.append_assoc, (reads_takeLittle width).append hLt,
        bind_some, if_pos hAccepts]
      exact takeBytes_eq_some.mpr ⟨rfl, rfl⟩

def takeBoth (read : List UInt8 → Option (α × List UInt8))
    (read' : List UInt8 → Option (β × List UInt8)) (bytes : List UInt8) :
    Option ((α × β) × List UInt8) :=
  (read bytes).bind fun first => (read' first.2).map fun second => ((first.1, second.1), second.2)

theorem Reads.both {read' : List UInt8 → Option (β × List UInt8)} {valid' : β → Prop}
    {write' : β → List UInt8} (hReads : Reads read valid write)
    (hReads' : Reads read' valid' write') :
    Reads (takeBoth read read') (fun x => valid x.1 ∧ valid' x.2)
      (fun x => write x.1 ++ write' x.2) where
  law bytes x rest := by
    obtain ⟨first, second⟩ := x
    constructor
    · intro hTake
      obtain ⟨⟨a, left⟩, hFirst, hRest⟩ := bind_eq_some_iff.mp hTake
      obtain ⟨⟨b, left'⟩, hSecond, hResult⟩ := map_eq_some_iff.mp hRest
      cases hResult
      obtain ⟨hValid, rfl⟩ := (hReads.law _ _ _).mp hFirst
      obtain ⟨hValid', rfl⟩ := (hReads'.law left b left').mp hSecond
      exact ⟨⟨hValid, hValid'⟩, (List.append_assoc ..).symm⟩
    · rintro ⟨⟨hValid, hValid'⟩, rfl⟩
      rw [takeBoth, List.append_assoc, hReads.append hValid, bind_some,
        hReads'.append hValid', map_some]

/-- A value that is checked and converted. -/
def takeAs (convert : α → Option β) (read : List UInt8 → Option (α × List UInt8))
    (bytes : List UInt8) : Option (β × List UInt8) :=
  (read bytes).bind fun taken => (convert taken.1).map fun value => (value, taken.2)

theorem Reads.convert (hReads : Reads read valid write) {convert : α → Option β} {valid' : β → Prop}
    {back : β → α} (hConvert : ∀ x y, valid x → (convert x = some y ↔ valid' y ∧ x = back y)) :
    Reads (takeAs convert read) (fun y => valid' y ∧ valid (back y)) (fun y => write (back y)) where
  law bytes y rest := by
    constructor
    · intro hTake
      obtain ⟨⟨x, left⟩, hTaken, hRest⟩ := bind_eq_some_iff.mp hTake
      obtain ⟨value, hValue, hResult⟩ := map_eq_some_iff.mp hRest
      cases hResult
      obtain ⟨hValid, rfl⟩ := (hReads.law _ _ _).mp hTaken
      obtain ⟨hValid', rfl⟩ := (hConvert x y hValid).mp hValue
      exact ⟨⟨hValid', hValid⟩, rfl⟩
    · rintro ⟨⟨hValid', hValid⟩, rfl⟩
      have hValue : convert (back y) = some y := (hConvert _ y hValid).mpr ⟨hValid', rfl⟩
      rw [takeAs, hReads.append hValid, bind_some, hValue, map_some]

def exactly (taken : Option (α × List UInt8)) : Option α :=
  taken.bind fun taken => if taken.2.isEmpty then some taken.1 else none

theorem Reads.exactly (hReads : Reads read valid write) {x : α} :
    Bytes.exactly (read bytes) = some x ↔ valid x ∧ bytes = write x := by
  have hLaw := hReads.law bytes x []
  rw [List.append_nil] at hLaw
  rw [← hLaw]
  cases read bytes with
  | none => simp [Bytes.exactly]
  | some taken => grind [exactly]

def takeMany {α : Type} (read : List UInt8 → Option (α × List UInt8)) :
    Nat → List UInt8 → Option (List α × List UInt8)
  | 0, bytes => some ([], bytes)
  | n + 1, bytes =>
    (read bytes).bind fun taken =>
      (takeMany read n taken.2).map fun others => (taken.1 :: others.1, others.2)

theorem Reads.many (hReads : Reads read valid write) (n : Nat) :
    Reads (takeMany read n) (fun xs => xs.length = n ∧ ∀ x ∈ xs, valid x) (·.flatMap write) where
  law bytes xs rest := by
    induction n generalizing bytes xs with
    | zero =>
      cases xs with
      | nil => simp [takeMany]
      | cons x xs => simp [takeMany]
    | succ n ih =>
      constructor
      · intro hTake
        obtain ⟨⟨x, left⟩, hHead, hTail⟩ := bind_eq_some_iff.mp hTake
        obtain ⟨⟨others, rest'⟩, hOthers, hResult⟩ := map_eq_some_iff.mp hTail
        obtain ⟨rfl, rfl⟩ := Prod.mk.inj hResult
        obtain ⟨hValid, rfl⟩ := (hReads.law _ x left).mp hHead
        obtain ⟨⟨rfl, hAll⟩, rfl⟩ := (ih left others).mp hOthers
        refine ⟨⟨rfl, List.forall_mem_cons.mpr ⟨hValid, hAll⟩⟩, ?_⟩
        rw [List.flatMap_cons, List.append_assoc]
      · rintro ⟨⟨hLength, hAll⟩, rfl⟩
        cases xs with
        | nil => cases hLength
        | cons x xs =>
          obtain ⟨hValid, hAll⟩ := List.forall_mem_cons.mp hAll
          have hOthers := (ih (xs.flatMap write ++ rest) xs).mpr
            ⟨⟨Nat.succ.inj hLength, hAll⟩, rfl⟩
          rw [takeMany, List.flatMap_cons, List.append_assoc, hReads.append hValid,
            bind_some, hOthers]
          rfl

/-- Values in a row behind their number, when the number is accepted. -/
def takeCounted (width : Nat) (accepts : Nat → Bool)
    (read : List UInt8 → Option (α × List UInt8)) (bytes : List UInt8) :
    Option (List α × List UInt8) :=
  (takeLittle width bytes).bind fun taken =>
    if accepts taken.1 then takeMany read taken.1 taken.2 else none

theorem Reads.counted (hReads : Reads read valid write) (width : Nat) (accepts : Nat → Bool) :
    Reads (takeCounted width accepts read)
      (fun xs => xs.length < 256 ^ width ∧ accepts xs.length = true ∧ ∀ x ∈ xs, valid x)
      (fun xs => littleEndian width xs.length ++ xs.flatMap write) where
  law bytes xs rest := by
    constructor
    · intro hTake
      obtain ⟨⟨n, left⟩, hCount, hMany⟩ := bind_eq_some_iff.mp hTake
      obtain ⟨hLt, rfl⟩ := ((reads_takeLittle width).law _ n left).mp hCount
      split at hMany
      · next hAccepts =>
        obtain ⟨⟨rfl, hAll⟩, rfl⟩ := ((hReads.many n).law left xs rest).mp hMany
        exact ⟨⟨hLt, hAccepts, hAll⟩, (List.append_assoc ..).symm⟩
      · cases hMany
    · rintro ⟨⟨hLt, hAccepts, hAll⟩, rfl⟩
      rw [takeCounted, List.append_assoc, (reads_takeLittle width).append hLt,
        bind_some, if_pos hAccepts]
      exact ((hReads.many xs.length).law _ xs rest).mpr ⟨⟨rfl, hAll⟩, rfl⟩

theorem block_append_inj {field field' rest' : List UInt8} (hLt : field.length < 65536)
    (hLt' : field'.length < 65536) (hBytes : block field ++ rest = block field' ++ rest') :
    field = field' ∧ rest = rest' := by
  have hTake := reads_takeBlock.append (x := field) hLt rest
  rw [hBytes, reads_takeBlock.append (x := field') hLt' rest', Option.some.injEq,
    Prod.mk.injEq] at hTake
  exact ⟨hTake.1.symm, hTake.2.symm⟩

/-! ### Fields at a position -/

def slice (bytes : List UInt8) (start count : Nat) : List UInt8 := (bytes.drop start).take count

def uintAt (width : Nat) (bytes : List UInt8) (start : Nat) : Nat :=
  ofBigEndian (slice bytes start width)

theorem length_slice (hLe : start + count ≤ bytes.length) :
    (slice bytes start count).length = count := by
  rw [slice, List.length_take, List.length_drop]
  omega

/-- What stands at a position does not depend on the bytes behind it. -/
theorem slice_append (hLe : start + count ≤ bytes.length) (more : List UInt8) :
    slice (bytes ++ more) start count = slice bytes start count := by
  grind [slice]

/-! With these, `simp (disch := omega)` finds the fields of bytes that are written out. -/

section Written

variable {front rest : List UInt8} {start width n : Nat}

theorem drop_past (hLe : front.length ≤ start) :
    (front ++ rest).drop start = rest.drop (start - front.length) := by
  rw [List.drop_append, List.drop_eq_nil_of_le hLe, List.nil_append]

@[simp] theorem slice_past (hLe : front.length ≤ start) (count : Nat) :
    slice (front ++ rest) start count = slice rest (start - front.length) count := by
  rw [slice, slice, drop_past hLe]

@[simp] theorem uintAt_past (hLe : front.length ≤ start) :
    uintAt width (front ++ rest) start = uintAt width rest (start - front.length) := by
  rw [uintAt, uintAt, slice_past hLe]

theorem drop_number (hLe : width ≤ start) :
    (bigEndian width n ++ rest).drop start = rest.drop (start - width) := by
  rw [drop_past (by simpa), length_bigEndian]

@[simp] theorem slice_number (hLe : width ≤ start) (count : Nat) :
    slice (bigEndian width n ++ rest) start count = slice rest (start - width) count := by
  rw [slice, slice, drop_number hLe]

@[simp] theorem uintAt_number (hLe : width ≤ start) (width' : Nat) :
    uintAt width' (bigEndian width n ++ rest) start = uintAt width' rest (start - width) := by
  rw [uintAt, uintAt, slice_number hLe]

@[simp] theorem uintAt_cons (byte : UInt8) :
    uintAt width (byte :: rest) (start + 1) = uintAt width rest start := rfl

@[simp] theorem slice_front (field : List UInt8) : slice (field ++ rest) 0 field.length = field :=
  List.take_left

@[simp] theorem uintAt_front (hLt : n < 256 ^ width) :
    uintAt width (bigEndian width n ++ rest) 0 = n := by
  rw [uintAt, slice, List.drop_zero, List.take_left' (length_bigEndian width n),
    ofBigEndian_bigEndian, Nat.mod_eq_of_lt hLt]

end Written

/-! ### Loops over the rest of the bytes -/

theorem bind_eq_ok {x : Except ε α} {f : α → Except ε β} {b : β} :
    x.bind f = .ok b ↔ ∃ a, x = .ok a ∧ f a = .ok b := by
  cases x with
  | error reason => simp [Except.bind]
  | ok a => simp [Except.bind]

theorem map_eq_ok {x : Except ε α} {f : α → β} {b : β} :
    x.map f = .ok b ↔ ∃ a, x = .ok a ∧ f a = b := by
  cases x with
  | error reason => simp [Except.map]
  | ok a => simp [Except.map]

def required {ε α : Type} (reason : ε) : Option α → Except ε α
  | none => .error reason
  | some field => .ok field

theorem required_eq_ok {reason : ε} {taken : Option α} {field : α} :
    required reason taken = .ok field ↔ taken = some field := by
  cases taken with
  | none => simp [required]
  | some found => simp [required]

/-- A reader returns no more bytes than it is given. -/
def Shortens {ε α : Type} (read : List UInt8 → Except ε (α × List UInt8)) : Prop :=
  ∀ bytes x rest, read bytes = .ok (x, rest) → rest.length ≤ bytes.length

namespace Shortens

variable {ε α β : Type} {read : List UInt8 → Except ε (α × List UInt8)}

theorem bind {next : α × List UInt8 → Except ε (β × List UInt8)} (hRead : Shortens read)
    (hNext : ∀ x, Shortens fun left => next (x, left)) :
    Shortens fun bytes => (read bytes).bind next := by
  intro bytes y rest hTaken
  obtain ⟨⟨x, left⟩, hFirst, hSecond⟩ := bind_eq_ok.mp hTaken
  exact (hNext x left y rest hSecond).trans (hRead bytes x left hFirst)

theorem map {f : α × List UInt8 → β × List UInt8} (hRead : Shortens read)
    (hRest : ∀ taken, (f taken).2 = taken.2) : Shortens fun bytes => (read bytes).map f := by
  intro bytes y rest hTaken
  obtain ⟨⟨x, left⟩, hFirst, hResult⟩ := map_eq_ok.mp hTaken
  have hLeft : left = rest := (hRest (x, left)).symm.trans (congrArg Prod.snd hResult)
  exact hLeft ▸ hRead bytes x left hFirst

theorem ok (x : α) : Shortens fun bytes => (.ok (x, bytes) : Except ε (α × List UInt8)) := by
  intro bytes y rest hTaken
  cases hTaken
  exact Nat.le_refl _

theorem error (reason : ε) : Shortens fun _ => (.error reason : Except ε (α × List UInt8)) := by
  intro bytes y rest hTaken
  cases hTaken

theorem ite (c : Prop) [Decidable c] {read' : List UInt8 → Except ε (α × List UInt8)}
    (hRead : Shortens read) (hRead' : Shortens read') :
    Shortens fun bytes => if c then read bytes else read' bytes := by
  intro bytes x rest hTaken
  by_cases hCond : c
  · exact hRead bytes x rest ((if_pos hCond).symm.trans hTaken)
  · exact hRead' bytes x rest ((if_neg hCond).symm.trans hTaken)

theorem required {take : List UInt8 → Option (α × List UInt8)} {valid : α → Prop}
    {write : α → List UInt8} (hReads : Reads take valid write) (reason : ε) :
    Shortens fun bytes => Bytes.required reason (take bytes) := by
  intro bytes x rest hTaken
  exact hReads.length_le (required_eq_ok.mp hTaken)

end Shortens

section Drain

variable {σ ε : Type} {round : σ → List UInt8 → Except ε (σ × List UInt8)}

/-- Every round of a loop leaves fewer bytes than it finds. -/
def Consumes (round : σ → List UInt8 → Except ε (σ × List UInt8)) : Prop :=
  ∀ state byte bytes next rest, round state (byte :: bytes) = .ok (next, rest) →
    rest.length ≤ bytes.length

def drain (round : σ → List UInt8 → Except ε (σ × List UInt8)) (hConsumes : Consumes round)
    (state : σ) (bytes : List UInt8) : Except ε σ :=
  match bytes with
  | [] => .ok state
  | byte :: bytes =>
    match _hRound : round state (byte :: bytes) with
    | .error reason => .error reason
    | .ok (next, rest) => drain round hConsumes next rest
termination_by bytes.length
decreasing_by exact Nat.lt_succ_of_le (hConsumes state byte bytes next rest _hRound)

theorem drain_round (hConsumes : Consumes round) {state next : σ}
    (hRound : round state (byte :: bytes) = .ok (next, rest)) :
    drain round hConsumes state (byte :: bytes) = drain round hConsumes next rest := by
  rw [drain, hRound]

/-- What every round keeps holds at the end of the loop. -/
theorem drain_invariant {P : σ → Prop} (hConsumes : Consumes round)
    (hRound : ∀ state bytes next rest, P state → round state bytes = .ok (next, rest) → P next)
    {state last : σ} (hStart : P state) (hDrain : drain round hConsumes state bytes = .ok last) :
    P last := by
  induction state, bytes using drain.induct round hConsumes with
  | case1 state =>
    rw [drain] at hDrain
    cases hDrain
    exact hStart
  | case2 state byte bytes reason hFails =>
    rw [drain, hFails] at hDrain
    cases hDrain
  | case3 state byte bytes next rest hNext ih => grind [drain]

end Drain

/-! ### UTF-8 -/

def asBytes (text : List Char) : List UInt8 := text.flatMap String.utf8EncodeChar

def fromUtf8 (bytes : List UInt8) : Option (List Char) :=
  (ByteArray.utf8Decode? bytes.toByteArray).map Array.toList

theorem fromUtf8_eq_some : fromUtf8 bytes = some text ↔ bytes = asBytes text := by
  constructor
  · intro hText
    obtain ⟨chars, hDecode, rfl⟩ := map_eq_some_iff.mp hText
    have hSome : (ByteArray.utf8Decode? bytes.toByteArray).isSome := by rw [hDecode]; rfl
    have hBytes : chars.toList.utf8Encode = bytes.toByteArray := by
      have hGet := ByteArray.utf8Encode_get_utf8Decode? (h := hSome)
      rwa [Option.get_of_eq_some hSome hDecode] at hGet
    exact (List.toByteArray_inj.mp hBytes).symm
  · rintro rfl
    have hDecode : ByteArray.utf8Decode? (asBytes text).toByteArray = some text.toArray :=
      List.utf8Decode?_utf8Encode
    rw [fromUtf8, hDecode, map_some, List.toList_toArray]

theorem asBytes_inj {text' : List Char} (hBytes : asBytes text = asBytes text') : text = text' :=
  Option.some.inj ((fromUtf8_eq_some.mpr rfl).symm.trans (fromUtf8_eq_some.mpr hBytes))

theorem asBytes_eq_nil : asBytes text = [] ↔ text = [] :=
  ⟨fun hNil => asBytes_inj (hNil.trans rfl), fun hNil => hNil ▸ rfl⟩

theorem asBytes_append (text more : List Char) :
    asBytes (text ++ more) = asBytes text ++ asBytes more := List.flatMap_append

theorem utf8EncodeChar_of_ascii {c : Char} (hMem : byte ∈ String.utf8EncodeChar c)
    (hAscii : byte.toNat < 128) : byte.toNat = c.toNat := by
  have hHigh : ∀ n, 128 ≤ n → n < 256 → byte = UInt8.ofNat n → False := by
    rintro n hLow hLt rfl
    rw [UInt8.toNat_ofNat'] at hAscii
    omega
  unfold String.utf8EncodeChar at hMem
  simp only at hMem
  split_ifs at hMem with hOne hTwo hThree
  · rw [List.mem_singleton.mp hMem, UInt8.toNat_ofNat', Nat.mod_eq_of_lt (by omega)]
    rfl
  · grind
  · grind
  · grind

theorem utf8EncodeChar_ne_nil (c : Char) : String.utf8EncodeChar c ≠ [] := by
  simp

/-- A character does not end in a byte that begins a longer one. -/
theorem last_of_utf8EncodeChar {c : Char} (hLast : (String.utf8EncodeChar c).getLast? = some byte) :
    byte.toNat < 192 := by
  have hLow : ∀ n, n % 256 < 192 → some (UInt8.ofNat n) = some byte → byte.toNat < 192 := by
    intro n hLt hSame
    rw [← Option.some.inj hSame, UInt8.toNat_ofNat']
    exact hLt
  unfold String.utf8EncodeChar at hLast
  simp only at hLast
  split_ifs at hLast with hOne hTwo hThree
  all_goals exact hLow _ (by omega) hLast

theorem last_of_asBytes (hLast : (asBytes text).getLast? = some byte) : byte.toNat < 192 := by
  induction text using List.reverseRecOn with
  | nil => cases hLast
  | append_singleton front c _ =>
    grind [asBytes, last_of_utf8EncodeChar]

/-- A length-prefixed string in UTF-8, unless its bytes are refused. -/
def takeText (refuses : List UInt8 → Bool) : List UInt8 → Option (List Char × List UInt8) :=
  takeAs (fun field => if refuses field then none else fromUtf8 field) takeBlock

theorem reads_takeText (refuses : List UInt8 → Bool) : Reads (takeText refuses)
      (fun text => refuses (asBytes text) = false ∧ (asBytes text).length < 65536)
      (fun text => block (asBytes text)) := by
  refine reads_takeBlock.convert fun field text _ => ?_
  simp_all [fromUtf8_eq_some]

end IndraMqtt.Bytes

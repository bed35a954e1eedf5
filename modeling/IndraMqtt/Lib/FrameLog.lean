import IndraMqtt.Lib.Bytes

/-! Append-only logs. A log is a row of frames, and it is scanned frame by frame up to the
first place where no frame can be read. A scan therefore finds the frames that were written
whole up to the first damage, and nothing of what stands behind it. -/
namespace IndraMqtt.FrameLog

open Bytes

/-- How the values of a log are written as frames and read off the front of it. -/
structure Format (α : Type) where
  read : List UInt8 → Option (α × List UInt8)
  valid : α → Prop
  write : α → List UInt8
  reads : Reads read valid write
  nonempty : ∀ x, valid x → write x ≠ []

namespace Format

variable {α : Type} (format : Format α) (bytes : List UInt8)

theorem read_shorter {bytes rest : List UInt8} {x : α}
    (hRead : format.read bytes = some (x, rest)) : rest.length < bytes.length := by
  obtain ⟨hValid, rfl⟩ := (format.reads.law bytes x rest).mp hRead
  have hSome := List.length_pos_iff.mpr (format.nonempty x hValid)
  rw [List.length_append]
  omega

/-- The values of the frames at the start of a log, the position where the last of them
ends, and whether that is the end of the log. -/
def scan (bytes : List UInt8) : List α × Nat × Bool :=
  match bytes with
  | [] => ([], 0, true)
  | byte :: bytes =>
    match _hRead : format.read (byte :: bytes) with
    | none => ([], 0, false)
    | some (x, rest) =>
      let (xs, length, complete) := scan rest
      (x :: xs, (byte :: bytes).length - rest.length + length, complete)
termination_by bytes.length
decreasing_by exact format.read_shorter _hRead

theorem scan_nil : format.scan [] = ([], 0, true) := by
  rw [scan]

theorem scan_none {bytes : List UInt8} (hRead : format.read bytes = none) :
    format.scan bytes = ([], 0, bytes.isEmpty) := by
  cases bytes with
  | nil => rw [scan_nil, List.isEmpty_nil]
  | cons byte bytes =>
    rw [scan]
    split
    · rfl
    · next hSome => cases hRead.symm.trans hSome

theorem scan_some {bytes rest : List UInt8} {x : α} (hRead : format.read bytes = some (x, rest)) :
    format.scan bytes =
      (x :: (format.scan rest).1, bytes.length - rest.length + (format.scan rest).2.1,
        (format.scan rest).2.2) := by
  cases bytes with
  | nil => cases format.read_shorter hRead
  | cons byte bytes => grind [scan]

def frames (xs : List α) : List UInt8 := xs.flatMap format.write

@[simp] theorem frames_nil : format.frames [] = [] := rfl

@[simp] theorem frames_append (xs ys : List α) :
    format.frames (xs ++ ys) = format.frames xs ++ format.frames ys :=
  List.flatMap_append

theorem frames_singleton (x : α) : format.frames [x] = format.write x :=
  List.append_nil _

/-- A scan reads the frames at the start and goes on behind them. -/
theorem scan_frames {xs : List α} (hValid : ∀ x ∈ xs, format.valid x) (rest : List UInt8) :
    format.scan (format.frames xs ++ rest) =
      (xs ++ (format.scan rest).1, (format.frames xs).length + (format.scan rest).2.1,
        (format.scan rest).2.2) := by
  induction xs with
  | nil => simp
  | cons x xs ih =>
    rw [List.forall_mem_cons] at hValid
    have hRead := format.reads.append hValid.1 (format.frames xs ++ rest)
    grind [frames, scan_some]

theorem scan_intact {xs : List α} (hValid : ∀ x ∈ xs, format.valid x) :
    format.scan (format.frames xs) = (xs, (format.frames xs).length, true) := by
  have hScan := format.scan_frames hValid []
  rw [List.append_nil, scan_nil, List.append_nil] at hScan
  exact hScan

/-- Every log starts with the frames that a scan of it finds, and behind them no frame can
be read. -/
theorem scan_spec : ∃ tail, bytes = format.frames (format.scan bytes).1 ++ tail ∧
      (∀ x ∈ (format.scan bytes).1, format.valid x) ∧
      (format.scan bytes).2.1 = (format.frames (format.scan bytes).1).length ∧
      ((format.scan bytes).2.2 = true ↔ tail = []) := by
  induction hLength : bytes.length using Nat.strong_induction_on generalizing bytes with
  | _ n ih =>
    cases hRead : format.read bytes with
    | none => simp_all [scan_none]
    | some taken =>
      obtain ⟨x, rest⟩ := taken
      obtain ⟨tail, hRest, hValid, hEnd, hComplete⟩ :=
        ih rest.length (hLength ▸ format.read_shorter hRead) rest rfl
      obtain ⟨hOwn, hBytes⟩ := (format.reads.law bytes x rest).mp hRead
      rw [format.scan_some hRead]
      refine ⟨tail, ?_, List.forall_mem_cons.mpr ⟨hOwn, hValid⟩, ?_, hComplete⟩
      · calc bytes = format.write x ++ rest := hBytes
          _ = format.write x ++ (format.frames (format.scan rest).1 ++ tail) := by rw [← hRest]
          _ = format.frames (x :: (format.scan rest).1) ++ tail :=
            (List.append_assoc ..).symm
      · grind [frames]

/-- Cutting a log where the last frame ends keeps the frames. -/
theorem take_scan : bytes.take (format.scan bytes).2.1 = format.frames (format.scan bytes).1 := by
  obtain ⟨tail, hBytes, -, hEnd, -⟩ := format.scan_spec bytes
  calc bytes.take (format.scan bytes).2.1
      = (format.frames (format.scan bytes).1 ++ tail).take (format.scan bytes).2.1 :=
        congrArg (List.take _) hBytes
    _ = format.frames (format.scan bytes).1 := by rw [hEnd, List.take_left]

theorem scan_append (bytes more : List UInt8) :
    (format.scan bytes).1 <+: (format.scan (bytes ++ more)).1 := by
  obtain ⟨tail, hBytes, hValid, -⟩ := format.scan_spec bytes
  have hScan := format.scan_frames hValid (tail ++ more)
  grind

theorem scan_valid : ∀ x ∈ (format.scan bytes).1, format.valid x := by
  obtain ⟨-, -, hValid, -⟩ := format.scan_spec bytes
  exact hValid

theorem read_torn {x : α} (hValid : format.valid x) {part more : List UInt8}
    (hFrame : format.write x = part ++ more) (hMore : more ≠ []) : format.read part = none := by
  cases hRead : format.read part with
  | none => rfl
  | some taken =>
    obtain ⟨found, rest⟩ := taken
    obtain ⟨hFound, rfl⟩ := (format.reads.law part found rest).mp hRead
    have hWhole := format.reads.append hValid []
    have hPart := format.reads.append hFound (rest ++ more)
    simp_all

section Checked

variable {σ : Type} (check : σ → α → Option σ)

/-- A scan that holds every value against those before it, and stops at the first one that
does not fit. -/
def scanChecked (state : σ) (bytes : List UInt8) : List α × Nat × Bool :=
  match bytes with
  | [] => ([], 0, true)
  | byte :: bytes =>
    match _hRead : format.read (byte :: bytes) with
    | none => ([], 0, false)
    | some (x, rest) =>
      match check state x with
      | none => ([], 0, false)
      | some next =>
        let (xs, length, complete) := scanChecked next rest
        (x :: xs, (byte :: bytes).length - rest.length + length, complete)
termination_by bytes.length
decreasing_by exact format.read_shorter _hRead

theorem scanChecked_nil (state : σ) : format.scanChecked check state [] = ([], 0, true) := by
  rw [scanChecked]

theorem scanChecked_none (state : σ) {bytes : List UInt8} (hRead : format.read bytes = none)
    (hBytes : bytes ≠ []) : format.scanChecked check state bytes = ([], 0, false) := by
  cases bytes with
  | nil => exact absurd rfl hBytes
  | cons byte bytes => grind [scanChecked]

theorem scanChecked_some {state next : σ} {bytes rest : List UInt8} {x : α}
    (hRead : format.read bytes = some (x, rest)) (hCheck : check state x = some next) :
    format.scanChecked check state bytes =
      (x :: (format.scanChecked check next rest).1,
        bytes.length - rest.length + (format.scanChecked check next rest).2.1,
        (format.scanChecked check next rest).2.2) := by
  cases bytes with
  | nil => cases format.read_shorter hRead
  | cons byte bytes => grind [scanChecked]

section

variable {last state : σ} {xs : List α} (hValid : ∀ x ∈ xs, format.valid x)
  (hFits : xs.foldlM check state = some last)
include hValid hFits

/-- A checked scan reads the frames at the start when their values fit, and goes on behind
them. -/
theorem scanChecked_frames (rest : List UInt8) :
    format.scanChecked check state (format.frames xs ++ rest) =
      (xs ++ (format.scanChecked check last rest).1,
        (format.frames xs).length + (format.scanChecked check last rest).2.1,
        (format.scanChecked check last rest).2.2) := by
  induction xs generalizing state with
  | nil =>
    obtain rfl : state = last := Option.some.inj hFits
    simp
  | cons x xs ih =>
    rw [List.forall_mem_cons] at hValid
    rw [List.foldlM_cons, Option.bind_eq_bind, Option.bind_eq_some_iff] at hFits
    obtain ⟨next, hCheck, hRest⟩ := hFits
    have hRead := format.reads.append hValid.1 (format.frames xs ++ rest)
    grind [frames, scanChecked_some]

theorem scanChecked_intact : format.scanChecked check state (format.frames xs) =
      (xs, (format.frames xs).length, true) := by
  have hScan := format.scanChecked_frames check hValid hFits []
  rw [List.append_nil, scanChecked_nil, List.append_nil] at hScan
  exact hScan

end

/-- Behind whole frames a frame that was cut short ends the scan. -/
theorem scanChecked_torn {xs : List α} (hValid : ∀ x ∈ xs, format.valid x) {state last : σ}
    (hFits : xs.foldlM check state = some last) {x : α} (hLast : format.valid x)
    {part more : List UInt8} (hFrame : format.write x = part ++ more) (hPart : part ≠ [])
    (hMore : more ≠ []) : format.scanChecked check state (format.frames xs ++ part) =
      (xs, (format.frames xs).length, false) := by
  rw [format.scanChecked_frames check hValid hFits,
    format.scanChecked_none check last (format.read_torn hLast hFrame hMore) hPart,
    List.append_nil, Nat.add_zero]

end Checked

end Format

end IndraMqtt.FrameLog

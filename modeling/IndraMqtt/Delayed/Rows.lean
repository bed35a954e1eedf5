import IndraMqtt.Delayed.Scheduler

/-! What the operations of the scheduler leave in its file. The entries of a file are read line
by line, also when the file as a whole is not UTF-8. An append at the start of a line adds its
entry, a rewrite that could read the file keeps the entries of the other ids, and a restart keeps
those whose deadline is ahead. -/
namespace IndraMqtt.Delayed

open Protocol Bytes

variable {entry : DelayedEntry} {file : File} {entries : List DelayedEntry} {ls : List Str}
  {now : UInt64}

/-! ### Entries -/

theorem keepsLines_utf8 :
    Lines.KeepsLines String.utf8EncodeChar '\n' '\r' (10 : UInt8) (13 : UInt8) where
  feed := rfl
  back := rfl
  nonempty := utf8EncodeChar_ne_nil
  inside c hMem := Char.toNat_inj.mp (utf8EncodeChar_of_ascii hMem (by decide)).symm
  last c hLast :=
    Char.toNat_inj.mp (utf8EncodeChar_of_ascii (List.mem_of_mem_getLast? hLast) (by decide)).symm

theorem rawLines_asBytes (text : Str) : rawLines (asBytes text) = (lines text).map asBytes :=
  keepsLines_utf8.lines text

theorem entriesOf_asBytes (text : Str) :
    entriesOf (some (asBytes text)) = (lines text).filterMap decodeLine := by
  rw [entriesOf, Option.getD_some, rawLines_asBytes, List.filterMap_map]
  apply congrArg (List.filterMap · (lines text))
  funext line
  rw [Function.comp_apply, fromUtf8_eq_some.mpr rfl, Option.bind_some]

section

variable (hLines : ∀ line ∈ ls, '\n' ∉ line)
include hLines

theorem lines_unlines : lines (Lines.unlines '\n' ls) = ls.map (Lines.chomp '\r') := by
  have hText : lines (Lines.unlines '\n' ls ++ []) = ls.map (Lines.chomp '\r') ++ lines [] :=
    Lines.lines_unlines hLines []
  rw [List.append_nil] at hText
  rw [hText]
  exact List.append_nil _

theorem entriesOf_unlines :
    entriesOf (some (asBytes (Lines.unlines '\n' ls))) = ls.filterMap decodeLine := by
  simp_all [entriesOf_asBytes, lines_unlines, decodeLine_chomp]

end

variable {bytes : List UInt8} {next : File} {readable : Bool} {maxSecs : UInt64}

theorem rawLines_append (hStart : Lines.AtStart 10 bytes) (more : List UInt8) :
    rawLines (bytes ++ more) = rawLines bytes ++ rawLines more :=
  Lines.lines_append hStart more

/-- What is added at the start of a line leaves the entries in front of it. -/
theorem entriesOf_append (hStart : Lines.AtStart 10 (file.getD [])) {more : List UInt8}
    (hNext : next.getD [] = file.getD [] ++ more) :
    entriesOf next = entriesOf file ++ entriesOf (some more) := by
  rw [entriesOf, hNext, rawLines_append hStart, List.filterMap_append]
  rfl

theorem entriesOf_congr (hSame : next.getD [] = file.getD []) :
    entriesOf next = entriesOf file := by
  rw [entriesOf, entriesOf, hSame]

theorem entriesOf_lineBytes (hStorable : Storable entry) :
    entriesOf (some (lineBytes (encodeEntry entry))) = [entry] := by
  have hShape : encodeEntry entry ++ ['\n'] = Lines.unlines '\n' [encodeEntry entry] := by
    rw [Lines.unlines, List.flatMap_singleton]
  simp_all [lineBytes, entriesOf_unlines, decodeLine_encodeEntry, lf_not_mem_encodeEntry]

theorem atStart_lineBytes (line : Str) : Lines.AtStart 10 (lineBytes line) := by
  rw [lineBytes, asBytes_append]
  exact Or.inr List.getLast?_concat

theorem filterMap_decodeLine_encodeEntry (hStorable : ∀ entry ∈ entries, Storable entry) :
    (entries.map encodeEntry).filterMap decodeLine = entries := by
  induction entries with
  | nil => rfl
  | cons entry entries ih => simp_all [decodeLine_encodeEntry]

theorem length_entriesOf_le (file : File) :
    (entriesOf file).length ≤ (rawLines (file.getD [])).length := List.length_filterMap_le ..

/-! ### Reading -/

theorem readToString_eq_ok {text : Str} :
    readToString readable file = .ok text ↔ readable = true ∧ file = some (asBytes text) := by
  cases readable with
  | false => simp [readToString]
  | true =>
    cases file with
    | none => simp [readToString]
    | some bytes =>
      rw [Option.some.injEq, ← fromUtf8_eq_some, readToString, if_pos rfl]
      cases fromUtf8 bytes with
      | none => simp
      | some found => simp

/-- A file that ends inside a character cannot be read. -/
theorem readToString_of_last {byte : UInt8} (hLast : bytes.getLast? = some byte)
    (hHigh : 192 ≤ byte.toNat) (text : Str) : readToString readable (some bytes) ≠ .ok text := by
  grind [readToString_eq_ok, last_of_asBytes]

/-! ### Removing -/

namespace DelayedScheduler

variable {scheduler : DelayedScheduler} {ids : List UInt64} {readable written : Bool} {text : Str}

theorem keeps_iff {line : Str} (hEntry : decodeLine line = some entry) :
    keeps ids line = true ↔ entry.id ∉ ids := by
  simp_all [decodeLine, keeps, idOf_of_decodeLine]

theorem lf_not_mem_kept : ∀ line ∈ (lines text).filter (keeps ids), '\n' ∉ line := fun _ hMem =>
  Lines.not_mem_of_mem_linesFrom List.not_mem_nil (List.mem_of_mem_filter hMem)

theorem file_removeIds (hIds : ids ≠ []) : (scheduler.removeIds ids readable true).file =
      some (asBytes (Lines.unlines '\n'
        ((lines (unwrapOrDefault (readToString readable scheduler.file))).filter (keeps ids)))) := by
  have hNonempty : ids.isEmpty = false := List.isEmpty_eq_false_iff.mpr hIds
  rw [removeIds, hNonempty]
  rfl

theorem mem_removeIds_read (hIds : ids ≠ [])
    (hRead : readToString readable scheduler.file = .ok text) :
    entry ∈ entriesOf (scheduler.removeIds ids readable true).file ↔
      entry ∈ entriesOf scheduler.file ∧ entry.id ∉ ids := by
  grind [readToString_eq_ok, file_removeIds, unwrapOrDefault, entriesOf_unlines, lf_not_mem_kept,
    keeps_iff, entriesOf_asBytes]

theorem entriesOf_removeIds_unread (hIds : ids ≠ [])
    (hRead : ∀ text, readToString readable scheduler.file ≠ .ok text) :
    entriesOf (scheduler.removeIds ids readable true).file = [] := by
  rw [file_removeIds hIds]
  cases hOutcome : readToString readable scheduler.file with
  | ok text => exact absurd hOutcome (hRead text)
  | error reason => rfl

/-- No rewrite adds a line. -/
theorem length_kept_le (readable : Bool) (file : File) (ids : List UInt64) :
    ((lines (unwrapOrDefault (readToString readable file))).filter (keeps ids)).length ≤
      (rawLines (file.getD [])).length := by
  apply (List.length_filter_le _ _).trans
  cases hOutcome : readToString readable file with
  | ok text =>
    rw [(readToString_eq_ok.mp hOutcome).2, Option.getD_some, rawLines_asBytes, List.length_map]
    exact Nat.le_refl _
  | error reason => exact Nat.zero_le _

theorem removeIds_unwritten : scheduler.removeIds ids readable false = scheduler := by
  rw [removeIds]
  split <;> rfl

/-- No rewrite adds an entry. -/
theorem mem_of_mem_removeIds
    (hMem : entry ∈ entriesOf (scheduler.removeIds ids readable written).file) :
    entry ∈ entriesOf scheduler.file := by
  cases written with
  | false =>
    rw [removeIds_unwritten] at hMem
    exact hMem
  | true =>
    by_cases hIds : ids = []
    · rw [hIds] at hMem
      exact hMem
    · grind [mem_removeIds_read, entriesOf_removeIds_unread]

/-! ### Restarting -/

theorem mem_live (hMem : entry ∈ live now entries) : entry ∈ entries ∧ now < entry.deliverAtMs := by
  have hSorted := (List.mem_insertionSort _).mp (List.mem_of_mem_take hMem)
  simp_all

/-- Within the bound no entry with its deadline ahead is dropped. -/
theorem mem_live_of_le (hLength : entries.length ≤ maxDelayedPending) (hMem : entry ∈ entries)
    (hLive : now < entry.deliverAtMs) : entry ∈ live now entries := by
  grind [List.length_insertionSort, live, List.take_of_length_le, List.mem_insertionSort]

theorem restart_read (hRead : readToString readable scheduler.file = .ok text) :
    (scheduler.restart maxSecs now readable written).1 =
      let kept := live now (entriesOf scheduler.file)
      { wheel := kept.foldl (WheelInner.place now) .new
        maxSecs := maxSecs
        nextId := kept.foldl (fun next entry => max next (entry.id + 1)) 1
        file := writeLines written scheduler.file (kept.map encodeEntry) } := by
  have hFile := (readToString_eq_ok.mp hRead).2
  have hRows : ((lines text).filter fun line => !(Kernel.trim line).isEmpty).filterMap decodeLine =
      entriesOf scheduler.file := by
    rw [hFile, entriesOf_asBytes, List.filterMap_filter]
    apply congrArg (List.filterMap · (lines text))
    grind [decodeLine]
  rw [restart, load]
  simp [new, hRead, hRows]

/-- A restart that cannot read the file starts with nothing and leaves the file as it is. -/
theorem restart_unread (hRead : ∀ text, readToString readable scheduler.file ≠ .ok text) :
    (scheduler.restart maxSecs now readable written).1 = new maxSecs scheduler.file := by
  grind [restart, load, new]

theorem lf_not_mem_encoded (entries : List DelayedEntry) :
    ∀ line ∈ entries.map encodeEntry, '\n' ∉ line := by
  simp [lf_not_mem_encodeEntry]

/-- The entries that a restart writes back. -/
theorem entriesOf_kept (now : UInt64) (file : File) :
    entriesOf (some (asBytes (Lines.unlines '\n' ((live now (entriesOf file)).map encodeEntry)))) =
      live now (entriesOf file) := by
  rw [entriesOf_unlines (lf_not_mem_encoded _), filterMap_decodeLine_encodeEntry]
  intro entry hMem
  obtain ⟨line, -, hLine⟩ := List.mem_filterMap.mp (mem_live hMem).1
  obtain ⟨text, -, hText⟩ := Option.bind_eq_some_iff.mp hLine
  exact (idOf_of_decodeLine hText).1

end DelayedScheduler

end IndraMqtt.Delayed

import IndraMqtt.Delayed.Wheel
import IndraMqtt.Lib.Runs
import Mathlib.Data.List.Sort

/-! The scheduler of the delayed publications with its file `delayed.jsonl`. A publication is
appended to the file before it is put on the wheel. The ids of the fired entries are taken out
of the file by a rewrite, and a restart reads the file again. Every file operation can fail; an
append that fails may have stored any part of its line. The counters are left out, and so is a
scheduler without a directory. -/
namespace IndraMqtt.Delayed

open Protocol Sessions Bytes

/-! ### The file -/

abbrev File := Option (List UInt8)

def lines (text : Str) : List Str := Lines.lines '\n' '\r' text

def rawLines (bytes : List UInt8) : List (List UInt8) := Lines.lines 10 13 bytes

def entriesOf (file : File) : List DelayedEntry :=
  (rawLines (file.getD [])).filterMap fun line => (fromUtf8 line).bind decodeLine

inductive ReadError where
  | notFound
  | other
  deriving DecidableEq

/-- `std::fs::read_to_string`. A file that is not UTF-8 is an error, like any other failure. -/
def readToString (readable : Bool) (file : File) : Except ReadError Str :=
  if readable then
    match file with
    | none => .error .notFound
    | some bytes =>
      match fromUtf8 bytes with
      | none => .error .other
      | some text => .ok text
  else .error .other

def unwrapOrDefault : Except ReadError Str → Str
  | .ok text => text
  | .error _ => []

/-- `write_lines`: a temporary file that takes the place of the file when it is complete. -/
def writeLines (written : Bool) (file : File) (ls : List Str) : File :=
  if written then some (asBytes (Lines.unlines '\n' ls)) else file

/-- How the file operations of an append end, with the text of the error. -/
inductive AppendIO where
  | noDirectory (error : Str)
  | notOpened (error : Str)
  | notWritten (stored : Nat) (error : Str)
  | notSynced (error : Str)
  | done

def lineBytes (line : Str) : List UInt8 := asBytes (line ++ ['\n'])

def AppendIO.stored (line : Str) : AppendIO → List UInt8
  | noDirectory _ => []
  | notOpened _ => []
  | notWritten stored _ => (lineBytes line).take stored
  | notSynced _ => lineBytes line
  | done => lineBytes line

def appendLine (file : File) (line : Str) (io : AppendIO) : File × Except Str Unit :=
  let appended := some (file.getD [] ++ io.stored line)
  match io with
  | .noDirectory error => (file, .error ("cannot create delayed dir: ".toList ++ error))
  | .notOpened error => (file, .error ("cannot open delayed file: ".toList ++ error))
  | .notWritten _ error => (appended, .error ("cannot append delayed entry: ".toList ++ error))
  | .notSynced error => (appended, .error ("cannot fsync delayed entry: ".toList ++ error))
  | .done => (appended, .ok ())

/-! ### The scheduler -/

inductive ScheduleError where
  | overLimit
  | payloadTooLarge
  | overflow
  | persistFailed (reason : Str)

/-- `DelayedScheduler` with its file. -/
structure DelayedScheduler where
  wheel : WheelInner
  maxSecs : UInt64
  nextId : UInt64
  file : File

def saturating (n : Nat) : UInt64 := UInt64.ofNat (min n (2 ^ 64 - 1))

structure Request where
  topic : Topic
  qos : QoS
  retain : Bool
  payload : Payload
  publisher : Option Str
  publisherTenant : Str
  delaySecs : UInt64

def Request.entry (request : Request) (id now : UInt64) : DelayedEntry where
  id := id
  deliverAtMs := saturating (now.toNat + (saturating (request.delaySecs.toNat * 1000)).toNat)
  topic := request.topic.text
  qos := request.qos.toU8
  retain := request.retain
  payload := request.payload
  publisher := request.publisher
  publisherTenant := request.publisherTenant

namespace DelayedScheduler

def new (maxSecs : UInt64) (file : File) : DelayedScheduler := ⟨.new, maxSecs, 1, file⟩

variable (scheduler : DelayedScheduler)

/-- The checks of `persist_and_schedule` in front of the append. -/
def refusal (entry : DelayedEntry) (delaySecs : UInt64) : Option ScheduleError :=
  if delaySecs > scheduler.maxSecs then some .overLimit
  else if entry.payload.length > maxDelayedPayloadBytes then some .payloadTooLarge
  else if scheduler.wheel.len ≥ maxDelayedPending then some .overflow
  else none

def persistAndSchedule (entry : DelayedEntry) (delaySecs : UInt64)
    (io : AppendIO) (now : UInt64) : DelayedScheduler × Except ScheduleError Unit :=
  match scheduler.refusal entry delaySecs with
  | some error => (scheduler, .error error)
  | none =>
    match appendLine scheduler.file (encodeEntry entry) io with
    | (file, .error reason) => ({ scheduler with file }, .error (.persistFailed reason))
    | (file, .ok _) =>
      ({ scheduler with file, wheel := scheduler.wheel.place now entry }, .ok ())

/-- `apply_delayed_publish` from the id on. The id is used up even when the entry is refused. -/
def publish (request : Request) (clock : UInt64) (io : AppendIO)
    (now : UInt64) : DelayedScheduler × Except ScheduleError Unit :=
  let id := scheduler.nextId
  { scheduler with nextId := id + 1 }.persistAndSchedule (request.entry id clock)
    request.delaySecs io now

/-- The lines that `remove_ids` keeps. -/
def keeps (ids : List UInt64) (line : Str) : Bool :=
  !(Kernel.trim line).isEmpty &&
    match idOf line with
    | some id => !ids.contains id
    | none => false

def removeIds (ids : List UInt64) (readable written : Bool) : DelayedScheduler :=
  if ids.isEmpty then scheduler
  else
    let text := unwrapOrDefault (readToString readable scheduler.file)
    { scheduler with file := writeLines written scheduler.file ((lines text).filter (keeps ids)) }

structure Loaded where
  loaded : Nat
  torn : Nat
  expired : Nat
  deriving DecidableEq

def live (now : UInt64) (entries : List DelayedEntry) : List DelayedEntry :=
  ((entries.filter (now < ·.deliverAtMs)).insertionSort
    fun first second => first.deliverAtMs ≤ second.deliverAtMs).take maxDelayedPending

def load (now : UInt64) (readable written : Bool) : DelayedScheduler × Loaded :=
  match readToString readable scheduler.file with
  | .error .notFound => (scheduler, ⟨0, 0, 0⟩)
  | .error .other => (scheduler, ⟨0, 1, 0⟩)
  | .ok text =>
    let rows := (lines text).filter fun line => !(Kernel.trim line).isEmpty
    let entries := rows.filterMap decodeLine
    let kept := live now entries
    ({ scheduler with
        wheel := kept.foldl (WheelInner.place now) scheduler.wheel
        nextId := kept.foldl (fun next entry => max next (entry.id + 1)) scheduler.nextId
        file := writeLines written scheduler.file (kept.map encodeEntry) },
      ⟨kept.length, rows.length - entries.length,
        (entries.filter (·.deliverAtMs ≤ now)).length⟩)

def restart (maxSecs now : UInt64) (readable written : Bool) : DelayedScheduler × Loaded :=
  (new maxSecs scheduler.file).load now readable written

end DelayedScheduler

/-! ### Runs -/

inductive DelayedEvent where
  | publish (request : Request) (clock : UInt64) (io : AppendIO) (now : UInt64)
  | tickDue (now : UInt64)
  | removeIds (ids : List UInt64) (readable written : Bool)
  | restart (maxSecs now : UInt64) (readable written : Bool)

inductive DelayedAnswer where
  | published (result : Except ScheduleError Unit)
  | due (entries : List DelayedEntry)
  | removed
  | loaded (counts : DelayedScheduler.Loaded)

def step (scheduler : DelayedScheduler) : DelayedEvent → Option (DelayedScheduler × DelayedAnswer)
  | .publish request clock io now =>
    let (next, result) := scheduler.publish request clock io now
    some (next, .published result)
  | .tickDue now =>
    let (due, wheel) := scheduler.wheel.tick now
    some ({ scheduler with wheel }, .due due)
  | .removeIds ids readable written => some (scheduler.removeIds ids readable written, .removed)
  | .restart maxSecs now readable written =>
    let (next, counts) := scheduler.restart maxSecs now readable written
    some (next, .loaded counts)

end IndraMqtt.Delayed


/-! A buffer that grows at its end with every read and gives packets off at its front. A look
at the buffer finds a packet, finds that the stream ends here, or has to wait for more bytes.
What it finds does not depend on the bytes behind it, so the packets of a stream do not depend
on the reads that bring it. -/
namespace IndraMqtt.ReadBuffer

/-- One look at the buffer. The packet of an `ending` is the one that caused it, if any. -/
inductive Look (σ π ω β : Type) where
  | wait
  | packet (next : σ) (packet : π) (rest : List β)
  | ending (last : σ) (packet : Option π) (reason : ω)

/-- A way to take packets off a buffer, with a state that the packets change. -/
structure Extractor (σ π ω β : Type) where
  look : σ → List β → Look σ π ω β
  shrinks : ∀ {state buf next packet rest},
    look state buf = .packet next packet rest → rest.length < buf.length
  packet_append : ∀ {state buf next packet rest},
    look state buf = .packet next packet rest →
      ∀ more, look state (buf ++ more) = .packet next packet (rest ++ more)
  ending_append : ∀ {state buf last packet reason},
    look state buf = .ending last packet reason →
      ∀ more, look state (buf ++ more) = .ending last packet reason

/-- What was taken off a stream so far. After an ending the buffer is not looked at again. -/
structure Extraction (σ π ω β : Type) where
  packets : List π
  state : σ
  buf : List β
  reason : Option ω

variable {σ π ω β : Type}

namespace Extraction

def start (state : σ) : Extraction σ π ω β := ⟨[], state, [], none⟩

def after (packets : List π) (extraction : Extraction σ π ω β) : Extraction σ π ω β :=
  { extraction with packets := packets ++ extraction.packets }

end Extraction

def drain (extractor : Extractor σ π ω β) (state : σ) (buf : List β) : Extraction σ π ω β :=
  match _hLook : extractor.look state buf with
  | .wait => ⟨[], state, buf, none⟩
  | .packet next packet rest => (drain extractor next rest).after [packet]
  | .ending last packet reason => ⟨packet.toList, last, [], some reason⟩
termination_by buf.length
decreasing_by exact extractor.shrinks _hLook

def feed (extractor : Extractor σ π ω β) (extraction : Extraction σ π ω β) (bytes : List β) :
    Extraction σ π ω β :=
  match extraction.reason with
  | some _ => extraction
  | none => (drain extractor extraction.state (extraction.buf ++ bytes)).after extraction.packets

/-- The reads of a connection. After each of them it stops when the stream ended there or when
it was told to close. The reads that were not made are returned. -/
def run (extractor : Extractor σ π ω β) (closes : σ → Bool) :
    Extraction σ π ω β → List (List β) → Extraction σ π ω β × List (List β)
  | extraction, [] => (extraction, [])
  | extraction, bytes :: reads =>
    let next := feed extractor extraction bytes
    if next.reason.isSome ∨ closes next.state then (next, reads)
    else run extractor closes next reads

section

variable (extractor : Extractor σ π ω β)

variable {state : σ} {buf : List β} {extraction : Extraction σ π ω β}

theorem drain_wait (hLook : extractor.look state buf = .wait) :
    drain extractor state buf = ⟨[], state, buf, none⟩ := by
  rw [drain, hLook]

theorem drain_packet {next : σ} {rest : List β} {packet : π}
    (hLook : extractor.look state buf = .packet next packet rest) :
    drain extractor state buf = (drain extractor next rest).after [packet] := by
  rw [drain, hLook]

theorem drain_ending {last : σ} {packet : Option π} {reason : ω}
    (hLook : extractor.look state buf = .ending last packet reason) :
    drain extractor state buf = ⟨packet.toList, last, [], some reason⟩ := by
  rw [drain, hLook]

theorem feed_after (packets : List π) (extraction : Extraction σ π ω β) (bytes : List β) :
    feed extractor (extraction.after packets) bytes =
      (feed extractor extraction bytes).after packets := by
  obtain ⟨held, state, buf, reason⟩ := extraction
  cases reason with
  | none => simp [feed, Extraction.after]
  | some reason => rfl

/-- Bytes that come later are drained as if they had been there. -/
theorem drain_append (state : σ) (buf more : List β) :
    drain extractor state (buf ++ more) = feed extractor (drain extractor state buf) more := by
  induction state, buf using drain.induct extractor with
  | case1 state buf hLook =>
    rw [drain_wait extractor hLook]
    rfl
  | case2 state buf next packet rest hLook ih =>
    rw [drain_packet extractor (extractor.packet_append hLook more), ih,
      drain_packet extractor hLook, feed_after]
  | case3 state buf last packet reason hLook =>
    rw [drain_ending extractor (extractor.ending_append hLook more),
      drain_ending extractor hLook]
    rfl

/-- Two reads bring what one read of both brings. -/
theorem feed_feed (extraction : Extraction σ π ω β) (first second : List β) :
    feed extractor (feed extractor extraction first) second =
      feed extractor extraction (first ++ second) := by
  grind [feed, feed_after, drain_append]

theorem foldl_feed (extraction : Extraction σ π ω β) (bytes : List β) (reads : List (List β)) :
    (bytes :: reads).foldl (feed extractor) extraction =
      feed extractor extraction (bytes :: reads).flatten := by
  induction reads generalizing extraction bytes with
  | nil => rw [List.flatten_singleton, List.foldl_cons, List.foldl_nil]
  | cons read reads ih =>
    rw [List.foldl_cons, ih, feed_feed]
    rfl

theorem feed_ended (hReason : extraction.reason.isSome) (bytes : List β) :
    feed extractor extraction bytes = extraction := by
  obtain ⟨reason, hSome⟩ := Option.isSome_iff_exists.mp hReason
  rw [feed, hSome]

variable (closes : σ → Bool)

/-- The reads that were made bring what one read of all their bytes brings, and reads are left
out only behind an ending or an order to close. -/
theorem run_spec (extraction : Extraction σ π ω β) (bytes : List β) (reads : List (List β)) :
    ∃ made, reads = made ++ (run extractor closes extraction (bytes :: reads)).2 ∧
      (run extractor closes extraction (bytes :: reads)).1 =
        feed extractor extraction (bytes ++ made.flatten) ∧
      ((run extractor closes extraction (bytes :: reads)).2 ≠ [] →
        (run extractor closes extraction (bytes :: reads)).1.reason.isSome ∨
          closes (run extractor closes extraction (bytes :: reads)).1.state) := by
  induction reads generalizing extraction bytes with
  | nil => simp [run]
  | cons read reads ih =>
    rw [run]
    by_cases hStop : (feed extractor extraction bytes).reason.isSome ∨
        closes (feed extractor extraction bytes).state
    · simp_all
    · obtain ⟨made, hReads, hRun, hLeft⟩ := ih (feed extractor extraction bytes) read
      grind [feed_feed]

/-- A connection that is not told to close before the end takes off its stream what one read of
the whole stream brings. -/
theorem run_eq_feed {bytes : List β} {reads : List (List β)}
    (hWhole : (run extractor closes extraction (bytes :: reads)).2 = [] ∨
      (run extractor closes extraction (bytes :: reads)).1.reason.isSome) :
    (run extractor closes extraction (bytes :: reads)).1 =
      feed extractor extraction (bytes :: reads).flatten := by
  obtain ⟨made, hReads, hRun, -⟩ := run_spec extractor closes extraction bytes reads
  rcases hWhole with hNone | hEnded
  · rw [hNone, List.append_nil] at hReads
    rw [hRun, hReads, List.flatten_cons]
  · generalize (run extractor closes extraction (bytes :: reads)).2 = left at hReads
    rw [← feed_ended extractor hEnded left.flatten, hRun, feed_feed, hReads, List.flatten_cons,
      List.flatten_append, List.append_assoc]

end

end IndraMqtt.ReadBuffer

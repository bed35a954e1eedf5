import IndraMqtt.Protocol.Text

/-! Topics, topic filters and quality of service as the protocol crate defines
them. Validity is decided on the raw text before a `Topic` or a `TopicFilter`
exists, and every later function receives a value that carries the proof. -/
namespace IndraMqtt.Protocol

inductive ProtocolError where
  | invalidQoS (value : UInt8)
  | invalidTopic (message : String)
  | emptyTopicLevel
  deriving DecidableEq, Repr

inductive QoS where
  | atMostOnce
  | atLeastOnce
  | exactlyOnce
  deriving DecidableEq, Repr

namespace QoS

def tryFrom (value : UInt8) : Except ProtocolError QoS :=
  if value = 0 then .ok atMostOnce
  else if value = 1 then .ok atLeastOnce
  else if value = 2 then .ok exactlyOnce
  else .error (.invalidQoS value)

def toU8 : QoS → UInt8
  | atMostOnce => 0
  | atLeastOnce => 1
  | exactlyOnce => 2

@[simp] theorem tryFrom_toU8 (qos : QoS) : tryFrom qos.toU8 = .ok qos := by
  cases qos <;> rfl

/-- The derived order of the source enumeration, used when a subscription
caps the quality of service of a publication. -/
def min (first second : QoS) : QoS :=
  if first.toU8 ≤ second.toU8 then first else second

end QoS

def Topic.validate (topic : Str) : Except ProtocolError Unit :=
  if topic = [] then .error (.invalidTopic "topic cannot be empty")
  else if '+' ∈ topic ∨ '#' ∈ topic then
    .error (.invalidTopic "concrete topic cannot contain wildcards")
  else .ok ()

/-- A concrete topic: nonempty and free of wildcard characters. -/
structure Topic where
  text : Str
  valid : Topic.validate text = .ok ()
  deriving DecidableEq

/-- `TopicFilter::validate`. The outer `none` is a panic of the byte slice in
front of a final `#`; the inner value is the function's own result. -/
def TopicFilter.validate (filter : Str) : Option (Except ProtocolError Unit) :=
  if filter = [] then some (.error (.invalidTopic "filter cannot be empty"))
  else
    match Str.find filter '#' with
    | none => some (.ok ())
    | some pos =>
      if pos ≠ Str.len filter - 1 then
        some (.error (.invalidTopic "'#' wildcard must be the final level"))
      else if 0 < pos then
        match Str.slice filter (pos - 1) pos with
        | none => none
        | some before =>
          if before ≠ ['/'] then
            some (.error (.invalidTopic "'#' wildcard must be prefixed with '/'"))
          else some (.ok ())
      else some (.ok ())

/-- A filter that passed validation. A `+` inside a longer level is allowed,
since the source never looks for it. -/
structure TopicFilter where
  text : Str
  valid : TopicFilter.validate text = some (.ok ())
  deriving DecidableEq

def Topic.new (text : Str) : Except ProtocolError Topic :=
  match h : Topic.validate text with
  | .ok () => .ok ⟨text, h⟩
  | .error e => .error e

/-- `TopicFilter::new`, with `none` for a panic inside validation. -/
def TopicFilter.new (text : Str) : Option (Except ProtocolError TopicFilter) :=
  match h : TopicFilter.validate text with
  | none => none
  | some (.ok ()) => some (.ok ⟨text, h⟩)
  | some (.error e) => some (.error e)

/-- The loop of `TopicFilter::matches` over the levels still to be compared.
The inner test is the source's early exit after the last filter level. -/
def matchLevels : List Str → List Str → Bool
  | [], topic => topic.isEmpty
  | part :: filter, topic =>
    if part = ['#'] then true
    else
      match topic with
      | [] => false
      | level :: topic =>
        if part = ['+'] ∨ part = level then
          if filter.isEmpty ∧ ¬topic.isEmpty then false
          else matchLevels filter topic
        else false

def TopicFilter.matches (filter : TopicFilter) (topic : Topic) : Bool :=
  matchLevels filter.text.levels topic.text.levels

variable (text : Str) (topic : Topic)

theorem Topic.validate_eq_ok_iff :
    Topic.validate text = .ok () ↔ text ≠ [] ∧ '+' ∉ text ∧ '#' ∉ text := by
  grind [Topic.validate]

theorem Topic.text_ne_nil : topic.text ≠ [] :=
  ((Topic.validate_eq_ok_iff _).mp topic.valid).1

theorem Topic.new_eq_ok : Topic.new topic.text = .ok topic := by
  unfold Topic.new
  split
  · rfl
  · rename_i hError
    rw [topic.valid] at hError
    cases hError

open TopicFilter

theorem TopicFilter.validate_of_not_mem (hEmpty : text ≠ []) (hHash : '#' ∉ text) :
    validate text = some (.ok ()) := by
  rw [validate, if_neg hEmpty, (Str.find_eq_none_iff _ _).mpr hHash]

theorem TopicFilter.validate_inner_hash (before after : Str) (hBefore : '#' ∉ before)
    (hAfter : after ≠ []) : validate (before ++ '#' :: after) =
      some (.error (.invalidTopic "'#' wildcard must be the final level")) := by
  have hFind : Str.find (before ++ '#' :: after) '#' = some (Str.len before) :=
    (Str.find_eq_some_iff _ _ _).mpr ⟨before, after, rfl, hBefore, rfl⟩
  have hRest : Str.len after ≠ 0 := fun h => hAfter ((Str.len_eq_zero_iff _).mp h)
  have hPos : Str.len before ≠ Str.len (before ++ '#' :: after) - 1 := by
    simp only [Str.len_append, Str.len_cons, show '#'.utf8Size = 1 from rfl]
    omega
  simp_all [validate]

/-- A single final `#` leaves the decision to the slice of one byte in front
of it, which exists only if the preceding character takes one byte. -/
theorem TopicFilter.validate_final_hash (init : Str) (c : Char) (hInit : '#' ∉ init)
    (hc : c ≠ '#') : validate (init ++ [c, '#']) =
      if c.utf8Size = 1 then
        if c = '/' then some (.ok ())
        else some (.error (.invalidTopic "'#' wildcard must be prefixed with '/'"))
      else none := by
  have hFind : Str.find (init ++ [c, '#']) '#' = some (Str.len init + c.utf8Size) := by
    refine (Str.find_eq_some_iff _ _ _).mpr ⟨init ++ [c], [], by simp, ?_, by simp⟩
    simp [hInit, Ne.symm hc]
  have hPos : Str.len init + c.utf8Size = Str.len (init ++ [c, '#']) - 1 := by
    simp only [Str.len_append, Str.len_cons, Str.len_nil, show '#'.utf8Size = 1 from rfl]
    omega
  have hStart : 0 < Str.len init + c.utf8Size := by
    have := c.utf8Size_pos
    omega
  rw [validate, if_neg (by simp), hFind]
  grind [Str.slice_last_byte]

/-- Every text is empty, free of `#`, the lone `#`, or has its first `#` inside
or at the end. These are the branches of validation. -/
theorem filter_text_cases : text = [] ∨ (text ≠ [] ∧ '#' ∉ text) ∨ text = ['#'] ∨
      (∃ before after, text = before ++ '#' :: after ∧ '#' ∉ before ∧ after ≠ []) ∨
      ∃ init c, text = init ++ [c, '#'] ∧ '#' ∉ init ∧ c ≠ '#' := by
  by_cases hEmpty : text = []
  · exact Or.inl hEmpty
  cases hFind : Str.find text '#' with
  | none => exact Or.inr (Or.inl ⟨hEmpty, (Str.find_eq_none_iff _ _).mp hFind⟩)
  | some pos =>
    obtain ⟨before, after, rfl, hBefore, -⟩ := (Str.find_eq_some_iff _ _ _).mp hFind
    by_cases hAfter : after = []
    · subst hAfter
      rcases List.eq_nil_or_concat before with rfl | ⟨init, c, rfl⟩
      · exact Or.inr (Or.inr (Or.inl rfl))
      · grind
    · exact Or.inr (Or.inr (Or.inr (Or.inl ⟨before, after, rfl, hBefore, hAfter⟩)))

/-- The slice panics exactly on the strings whose only `#` ends the string
right after a multi-byte character. -/
theorem TopicFilter.validate_eq_none_iff : validate text = none ↔
      ∃ init c, text = init ++ [c, '#'] ∧ '#' ∉ init ∧ 1 < c.utf8Size := by
  constructor
  · intro hPanic
    rcases filter_text_cases text with rfl | ⟨hEmpty, hHash⟩ | rfl | ⟨before, after, rfl, hBefore,
      hAfter⟩ | ⟨init, c, rfl, hInit, hc⟩
    · cases hPanic
    · rw [validate_of_not_mem text hEmpty hHash] at hPanic
      cases hPanic
    · cases hPanic
    · simp_all [validate_inner_hash]
    · have hpos := c.utf8Size_pos
      grind [validate_final_hash]
  · rintro ⟨init, c, rfl, hInit, hSize⟩
    have hc : c ≠ '#' := by
      rintro rfl
      exact absurd hSize (by decide)
    rw [validate_final_hash init c hInit hc, if_neg (by omega)]

theorem TopicFilter.validate_eq_ok_iff : validate text = some (.ok ()) ↔
      text ≠ [] ∧ ('#' ∉ text ∨ text = ['#'] ∨ ∃ init, text = init ++ ['/', '#'] ∧ '#' ∉ init) := by
  constructor
  · intro hOk
    rcases filter_text_cases text with rfl | ⟨hEmpty, hHash⟩ | rfl | ⟨before, after, rfl, hBefore,
      hAfter⟩ | ⟨init, c, rfl, hInit, hc⟩
    · cases hOk
    · exact ⟨hEmpty, Or.inl hHash⟩
    · exact ⟨by simp, Or.inr (Or.inl rfl)⟩
    · simp_all [validate_inner_hash]
    · simp_all [validate_final_hash]
  · rintro ⟨hEmpty, hHash | rfl | ⟨init, rfl, hInit⟩⟩
    · exact validate_of_not_mem text hEmpty hHash
    · rfl
    · rw [validate_final_hash init '/' hInit (by decide)]
      rfl

/-- Validation returns, with acceptance or an error, on every other string. -/
theorem TopicFilter.validate_returns_iff (text : Str) :
    (∃ result, TopicFilter.validate text = some result) ↔
      ¬∃ init c, text = init ++ [c, '#'] ∧ '#' ∉ init ∧ 1 < c.utf8Size := by
  rw [← TopicFilter.validate_eq_none_iff]
  exact Option.ne_none_iff_exists'.symm

/-- The filter of two characters whose first takes two bytes. -/
theorem TopicFilter.validate_panics_on_accent :
    ¬∃ result, TopicFilter.validate "é#".toList = some result := by
  rintro ⟨result, hReturn⟩
  have hPanic : TopicFilter.validate "é#".toList = none := rfl
  rw [hPanic] at hReturn
  cases hReturn

end IndraMqtt.Protocol

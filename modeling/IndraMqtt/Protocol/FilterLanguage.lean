import IndraMqtt.Lib.LevelPattern
import IndraMqtt.Protocol.Topic

/-! The set of topics that a filter matches, as a pattern over levels. The
broker compares texts of levels; here a level text is read as a fixed level, a
single wildcard or a remainder, and the comparison loop is shown to decide
membership in the language of the resulting pattern. -/
namespace IndraMqtt.Protocol

open LevelPattern TopicFilter

/-- The meaning of one level of a filter. A `+` or `#` inside a longer level
is an ordinary character. -/
def seg (level : Str) : Seg Str :=
  if level = ['#'] then .rest else if level = ['+'] then .any else .lit level

@[simp] theorem seg_hash : seg ['#'] = .rest := rfl

@[simp] theorem seg_plus : seg ['+'] = .any := rfl

variable (text : Str) (ls : List Str) (topic : Topic) (level : Str)

@[simp] theorem seg_eq_rest_iff : seg level = .rest ↔ level = ['#'] := by
  unfold seg
  split_ifs <;> simp_all

@[simp] theorem seg_eq_any_iff : seg level = .any ↔ level = ['+'] := by
  unfold seg
  split_ifs <;> simp_all

theorem seg_injective : Function.Injective seg := by
  intro a b h
  unfold seg at h
  split_ifs at h <;> simp_all

theorem seg_of_ne (hHash : level ≠ ['#']) (hPlus : level ≠ ['+']) : seg level = .lit level := by
  simp [seg, hHash, hPlus]

/-- The early exit of the loop changes nothing, since the exhausted filter
would refuse the remaining levels in the next round. -/
theorem matchLevels_cons (part level : Str) (filter topic : List Str) (hHash : part ≠ ['#']) :
    matchLevels (part :: filter) (level :: topic) = true ↔
      (part = ['+'] ∨ part = level) ∧ matchLevels filter topic = true := by
  grind [matchLevels]

theorem matchLevels_iff (filter topic : List Str) :
    matchLevels filter topic = true ↔ Matches (filter.map seg) topic := by
  induction filter generalizing topic with
  | nil => simp [matchLevels]
  | cons part filter ih =>
    by_cases hHash : part = ['#']
    · subst hHash
      simp [matchLevels]
    · have hRest : seg part ≠ .rest := by simpa using hHash
      rw [List.map_cons, matches_cons_iff hRest]
      cases topic with
      | nil => simp [matchLevels, hHash]
      | cons level topic =>
        rw [matchLevels_cons _ _ _ _ hHash, ih]
        by_cases hPlus : part = ['+']
        · simp [hPlus, Seg.Fits]
        · simp [seg_of_ne part hHash hPlus, hPlus, Seg.Fits, eq_comm]

theorem TopicFilter.matches_iff (filter : TopicFilter) (topic : Topic) :
    filter.matches topic = true ↔ Matches (filter.text.levels.map seg) topic.text.levels :=
  matchLevels_iff _ _

/-- A validated text has `#` only as a whole final level. -/
theorem validate_levels (hOk : validate text = some (.ok ())) :
    (∀ level ∈ text.levels, '#' ∉ level) ∨
      ∃ init, text.levels = init ++ [['#']] ∧ ∀ level ∈ init, '#' ∉ level := by
  obtain ⟨-, hHash | rfl | ⟨init, rfl, hInit⟩⟩ := (validate_eq_ok_iff text).mp hOk
  · grind [Str.mem_iff_mem_levels]
  · exact Or.inr ⟨[], rfl, by simp⟩
  · grind [Str.levels_append_slash, Str.levels_of_not_mem, Str.mem_iff_mem_levels]

/-- Conversely, these shapes of levels pass validation. -/
theorem validate_of_levels (hEmpty : text ≠ []) (h : (∀ level ∈ text.levels, '#' ∉ level) ∨
      ∃ init, text.levels = init ++ [['#']] ∧ ∀ level ∈ init, '#' ∉ level) :
    validate text = some (.ok ()) := by
  apply (validate_eq_ok_iff text).mpr
  refine ⟨hEmpty, ?_⟩
  rcases h with h | ⟨init, hInit, h⟩
  · grind [Str.mem_iff_mem_levels]
  · right
    cases init with
    | nil =>
      left
      apply Str.levels_injective
      rw [hInit, Str.levels_of_not_mem ['#'] (by decide)]
      rfl
    | cons first others =>
      right
      have hSlash : ∀ level ∈ first :: others, '/' ∉ level := by grind [Str.slash_not_mem_level]
      obtain ⟨front, hFront⟩ := Str.exists_levels_eq (first :: others) (by simp) hSlash
      grind [Str.levels_injective, Str.levels_append_slash, Str.levels_of_not_mem,
        Str.mem_iff_mem_levels]

theorem restLast_of_hash_free (h : ∀ level ∈ ls, '#' ∉ level) : RestLast (ls.map seg) := by
  induction ls with
  | nil => trivial
  | cons l ls ih =>
    refine ⟨fun hl => ?_, ih fun level hm => h level (List.mem_cons_of_mem _ hm)⟩
    rw [seg_eq_rest_iff] at hl
    exact absurd (h l (by simp)) (by simp [hl])

theorem restLast_concat (h : ∀ level ∈ ls, '#' ∉ level) : RestLast ((ls ++ [['#']]).map seg) := by
  induction ls with
  | nil => exact ⟨fun _ => rfl, trivial⟩
  | cons l ls ih =>
    refine ⟨fun hl => ?_, ih fun level hm => h level (List.mem_cons_of_mem _ hm)⟩
    rw [seg_eq_rest_iff] at hl
    exact absurd (h l (by simp)) (by simp [hl])

theorem validate_restLast (hOk : validate text = some (.ok ())) :
    RestLast (text.levels.map seg) := by
  grind [validate_levels, restLast_of_hash_free, restLast_concat]

theorem TopicFilter.hash_level (filter : TopicFilter) (level : Str)
    (hl : level ∈ filter.text.levels) (hHash : '#' ∈ level) : level = ['#'] := by
  rcases validate_levels _ filter.valid with h | ⟨init, hInit, h⟩
  · exact absurd hHash (h level hl)
  · grind

/-- Levels of a concrete topic contain neither wildcard character. -/
theorem Topic.level_plain (hl : level ∈ topic.text.levels) : '+' ∉ level ∧ '#' ∉ level := by
  obtain ⟨-, hPlus, hHash⟩ := (Topic.validate_eq_ok_iff _).mp topic.valid
  grind [Str.mem_iff_mem_levels]

theorem Topic.level_ne_wildcard : ∀ level ∈ topic.text.levels, level ≠ ['+'] ∧ level ≠ ['#'] := by
  intro level hl
  obtain ⟨hPlus, hHash⟩ := topic.level_plain level hl
  grind

/-- A topic read as a filter, which matches that topic alone. -/
def Topic.asFilter : TopicFilter :=
  ⟨topic.text, validate_of_not_mem _ topic.text_ne_nil
    ((Topic.validate_eq_ok_iff _).mp topic.valid).2.2⟩

theorem Topic.map_seg_levels : topic.text.levels.map seg = topic.text.levels.map Seg.lit := by
  grind [List.map_congr_left, Topic.level_ne_wildcard, seg_of_ne]

theorem Topic.levels_ne_blank : topic.text.levels ≠ [[]] := by
  intro h
  exact topic.text_ne_nil (Str.levels_injective (h.trans Str.levels_nil.symm))

theorem exists_topic_levels (hne : ls ≠ []) (hBlank : ls ≠ [[]])
    (hPlain : ∀ level ∈ ls, '/' ∉ level ∧ '+' ∉ level ∧ '#' ∉ level) :
    ∃ topic : Topic, topic.text.levels = ls := by
  obtain ⟨text, rfl⟩ := Str.exists_levels_eq ls hne fun level hl => (hPlain level hl).1
  refine ⟨⟨text, (Topic.validate_eq_ok_iff text).mpr ⟨?_, ?_, ?_⟩⟩, rfl⟩
  · rintro rfl
    exact hBlank rfl
  · grind [Str.mem_iff_mem_levels]
  · grind [Str.mem_iff_mem_levels]

/-- `#` occurs only as the whole last level. -/
def HashWholeLast : Prop :=
  ∀ before level after, text.levels = before ++ level :: after → '#' ∈ level →
    level = ['#'] ∧ after = []

/-- The filters of the MQTT standard. -/
structure MqttFilter (text : Str) : Prop where
  nonempty : text ≠ []
  short : Str.len text ≤ 65535
  noNul : '\x00' ∉ text
  hash : HashWholeLast text
  plus : ∀ level ∈ text.levels, '+' ∈ level → level = ['+']

theorem hashWholeLast_iff : HashWholeLast text ↔ (∀ level ∈ text.levels, '#' ∉ level) ∨
      ∃ init, text.levels = init ++ [['#']] ∧ ∀ level ∈ init, '#' ∉ level := by
  constructor
  · intro hLast
    by_cases hFree : ∀ level ∈ text.levels, '#' ∉ level
    · exact Or.inl hFree
    · push Not at hFree
      obtain ⟨level, hl, hm⟩ := hFree
      obtain ⟨init, after, hLevels⟩ := List.append_of_mem hl
      obtain ⟨rfl, rfl⟩ := hLast init level after hLevels hm
      refine Or.inr ⟨init, hLevels, ?_⟩
      intro other hOther hHash
      -- A `#` in front of the last level would stand in front of a level.
      obtain ⟨front, back, rfl⟩ := List.append_of_mem hOther
      have hEarlier := hLast front other (back ++ [['#']]) (by simp [hLevels]) hHash
      simp at hEarlier
  · intro hShape before level after hLevels hm
    rcases hShape with hFree | ⟨init, hInit, hFree⟩
    · exact absurd hm (hFree level (by simp [hLevels]))
    · rcases List.eq_nil_or_concat after with rfl | ⟨middle, last, rfl⟩
      · simp_all
      · grind [List.append_inj']

/-- Validation accepts the nonempty texts with `#` only as the whole last level. The length,
a NUL character and the place of `+` are not looked at. -/
theorem TopicFilter.validate_accepts_iff (text : Str) :
    validate text = some (.ok ()) ↔ text ≠ [] ∧ HashWholeLast text := by
  grind [hashWholeLast_iff, validate_eq_ok_iff, validate_levels, validate_of_levels]

/-- Accepted texts that are no MQTT filters: a `+` inside a level, a NUL character, and a
text of 65536 bytes. -/
theorem TopicFilter.validate_accepts_more :
    (validate "a+".toList = some (.ok ()) ∧ ¬MqttFilter "a+".toList) ∧
      (validate ['\x00'] = some (.ok ()) ∧ ¬MqttFilter ['\x00']) ∧
      validate (List.replicate 65536 'a') = some (.ok ()) ∧
      ¬MqttFilter (List.replicate 65536 'a') := by
  refine ⟨⟨by decide, ?_⟩, ⟨by decide, ?_⟩, ?_, ?_⟩
  · intro hFilter
    exact absurd (hFilter.plus "a+".toList (by decide) (by decide)) (by decide)
  · intro hFilter
    exact hFilter.noNul (List.mem_singleton_self _)
  · grind [validate_of_not_mem]
  · intro hFilter
    have hShort := hFilter.short
    rw [Str.len_replicate] at hShort
    exact absurd hShort (by decide)

end IndraMqtt.Protocol

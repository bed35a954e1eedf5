import IndraMqtt.Auth.Acl

/-! What the coverage walk of a rule says about topics. The walk is meant as
inclusion of the requested filter's topics in those of the rule pattern; this
module determines exactly for which pairs it is. -/
namespace IndraMqtt.Auth

open Protocol LevelPattern TopicFilter
open List (map_append)

/-- The pattern levels equal the request levels or are `+`, one by one. -/
def LevelsAligned (pattern request : List Str) : Prop :=
  List.Forall₂ (fun pat req => pat ≠ ['#'] ∧ (pat = ['+'] ∨ pat = req)) pattern request

/-- A final `#` of the request stands where the pattern has `+`, and the
pattern ends there or has only a `#` left. In the second form the request `#`
alone and the request `/#` are harmless, since no topic is empty. -/
def PlusOverHash (pattern request : List Str) : Prop :=
  ∃ pats reqs, request = reqs ++ [['#']] ∧ LevelsAligned pats reqs ∧
    (pattern = pats ++ [['+']] ∨ (pattern = pats ++ [['+'], ['#']] ∧ reqs ≠ [] ∧ reqs ≠ [[]]))

/-- The walk stops at a `#` of the pattern that is not its last level. Such a
pattern is no valid filter and matches no topic. -/
def HashInside (pattern request : List Str) : Prop :=
  ∃ pats tail reqs more, pattern = pats ++ ['#'] :: tail ∧ tail ≠ [] ∧
    request = reqs ++ more ∧ more ≠ [] ∧ LevelsAligned pats reqs

/-- No level mixes `+` with other characters. Topics have no `+`, so that any
other filter matches nothing at all. -/
def Satisfiable (request : List Str) : Prop :=
  ∀ level ∈ request, '+' ∈ level → level = ['+']

def Overgrants (pattern : Str) (filter : TopicFilter) : Prop :=
  Satisfiable filter.text.levels ∧
    (PlusOverHash pattern.levels filter.text.levels ∨ HashInside pattern.levels filter.text.levels)

variable (pattern : List Str) (rule : AclRule) (request : List Str) (filter : TopicFilter)

theorem levelsAligned_iff :
    LevelsAligned pattern request ↔ Aligned (pattern.map seg) (request.map seg) := by
  unfold LevelsAligned Aligned
  rw [List.forall₂_map_left_iff, List.forall₂_map_right_iff]
  apply iff_of_eq
  congr 1
  funext pat req
  simp [seg_injective.eq_iff]

theorem map_seg_eq_concat_rest (bs : List (Seg Str)) (h : request.map seg = bs ++ [.rest]) :
    ∃ reqs, request = reqs ++ [['#']] ∧ reqs.map seg = bs := by
  simp_all [List.map_eq_append_iff]

theorem map_seg_eq_concat_any (as : List (Seg Str)) (h : pattern.map seg = as ++ [.any]) :
    ∃ pats, pattern = pats ++ [['+']] ∧ pats.map seg = as := by
  simp_all [List.map_eq_append_iff]

/-- The general overrun of two patterns, read back on level texts. -/
theorem overrun_levels (h : Overrun (pattern.map seg) (request.map seg)) :
    ∃ pats reqs, request = reqs ++ [['#']] ∧ LevelsAligned pats reqs ∧
      (pattern = pats ++ [['+']] ∨ pattern = pats ++ [['+'], ['#']]) := by
  obtain ⟨as, bs, hRequest, hAlign, hPattern⟩ := h
  obtain ⟨reqs, hReqs, rfl⟩ := map_seg_eq_concat_rest request bs hRequest
  rcases hPattern with hPattern | hPattern
  · obtain ⟨pats, hPats, rfl⟩ := map_seg_eq_concat_any pattern as hPattern
    exact ⟨pats, reqs, hReqs, (levelsAligned_iff _ _).mpr hAlign, Or.inl hPats⟩
  · have hShape : pattern.map seg = (as ++ [.any]) ++ [.rest] := by simpa using hPattern
    obtain ⟨front, hFront, hMap⟩ := map_seg_eq_concat_rest pattern _ hShape
    obtain ⟨pats, hPats, rfl⟩ := map_seg_eq_concat_any front as hMap
    refine ⟨pats, reqs, hReqs, (levelsAligned_iff _ _).mpr hAlign, Or.inr ?_⟩
    rw [hFront, hPats]
    simp

theorem LevelsAligned.hash_free {pats reqs : List Str} (h : LevelsAligned pats reqs)
    (hReqs : ∀ level ∈ reqs, '#' ∈ level → level = ['#']) : ∀ level ∈ pats, '#' ∉ level := by
  induction h with
  | nil => simp
  | @cons pat req pats reqs hab _ ih => grind

theorem satisfiable_of_matches (topic : List Str) (hRequest : RestLast (request.map seg))
    (hTopic : ∀ level ∈ topic, '+' ∉ level) (hMatch : Matches (request.map seg) topic) :
    Satisfiable request := by
  induction request generalizing topic with
  | nil =>
    intro level hl
    simp at hl
  | cons req request ih =>
    intro level hl hm
    by_cases hHash : req = ['#']
    · have hNil : request = [] := by simpa using hRequest.1 (by simp [hHash])
      simp_all
    · rw [List.map_cons, matches_cons_iff (by simpa using hHash)] at hMatch
      obtain ⟨x, ys, rfl, hFit, hTail⟩ := hMatch
      rcases List.mem_cons.mp hl with rfl | hl
      · by_contra hPlus
        rw [seg_of_ne level hHash hPlus] at hFit
        have hx : x = level := hFit
        exact hTopic x (by simp) (hx ▸ hm)
      · exact ih ys hRequest.2 (fun level h => hTopic level (List.mem_cons_of_mem _ h)) hTail
          level hl hm

/-- The walk only accepts an invalid pattern by stopping at an inner `#`. -/
theorem validate_or_hashInside (pattern : Str) (filter : TopicFilter)
    (hCover : coverLevels pattern.levels filter.text.levels = true) :
    validate pattern = some (.ok ()) ∨
      HashInside pattern.levels filter.text.levels := by
  have hHash := filter.hash_level
  rcases covers_iff.mp ((coverLevels_iff _ _).mp hCover) with
    ⟨as, tail, bs, more, hPattern, hRequest, hMore, hAlign⟩ | hAlign | ⟨as, hPattern, hAlign⟩
  · obtain ⟨pats, others, hPats, rfl, hOthers⟩ := List.map_eq_append_iff.mp hPattern
    obtain ⟨hash, rest, rfl, hLevel, rfl⟩ := List.map_eq_cons_iff.mp hOthers
    obtain ⟨reqs, rest', hReqs, rfl, rfl⟩ := List.map_eq_append_iff.mp hRequest
    rw [seg_eq_rest_iff] at hLevel
    subst hLevel
    have hLevels := (levelsAligned_iff _ _).mpr hAlign
    by_cases hRest : rest = []
    · left
      subst hRest
      apply validate_of_levels
      · rintro rfl
        simp only [Str.levels_nil] at hPats
        cases pats <;> simp at hPats
      · grind [LevelsAligned.hash_free]
    · right
      exact ⟨pats, rest, reqs, rest', hPats, hRest, hReqs, by simpa using hMore, hLevels⟩
  · left
    have hLevels := (levelsAligned_iff _ _).mpr hAlign
    apply validate_of_levels
    · rintro rfl
      rw [Str.levels_nil] at hLevels
      cases hFilter : filter.text.levels with
      | nil => exact Str.levels_ne_nil _ hFilter
      | cons level others =>
        rw [hFilter] at hLevels
        cases hLevels with
        | cons hab hTail =>
          cases hTail
          have hEq : level = [] := (hab.2.resolve_left (by decide)).symm
          have hText : filter.text = [] :=
            Str.levels_injective (by rw [hFilter, hEq, Str.levels_nil])
          exact ((validate_eq_ok_iff _).mp filter.valid).1 hText
    · exact Or.inl (hLevels.hash_free hHash)
  · left
    obtain ⟨pats, hPats, rfl⟩ := map_seg_eq_concat_rest _ as hPattern
    have hLevels := (levelsAligned_iff _ _).mpr hAlign
    apply validate_of_levels
    · rintro rfl
      simp only [Str.levels_nil] at hPats
      cases pats <;> simp at hPats
    · exact Or.inr ⟨pats, hPats, hLevels.hash_free hHash⟩

/-- A concrete level that a level of a filter admits. -/
def fill (level : Str) : Str := if level = ['+'] then ['a'] else level

theorem fill_fits (hRequest : ∀ level ∈ request, level ≠ ['#']) :
    List.Forall₂ Seg.Fits (request.map seg) (request.map fill) := by
  rw [List.forall₂_map_left_iff, List.forall₂_map_right_iff, List.forall₂_same]
  intro level hl
  by_cases hPlus : level = ['+']
  · simp [hPlus, Seg.Fits]
  · simp [seg_of_ne level (hRequest level hl) hPlus, fill, hPlus, Seg.Fits]

theorem fill_plain (hSat : Satisfiable filter.text.levels) (level : Str)
    (hl : level ∈ filter.text.levels) (hHash : level ≠ ['#']) :
    '/' ∉ fill level ∧ '+' ∉ fill level ∧ '#' ∉ fill level := by
  by_cases hPlus : level = ['+']
  · simp [fill, hPlus]
  · rw [fill, if_neg hPlus]
    refine ⟨Str.slash_not_mem_level _ level hl, fun h => hPlus (hSat level hl h), fun h => ?_⟩
    exact hHash (filter.hash_level level hl h)

theorem fill_eq_nil_iff (level : Str) : fill level = [] ↔ level = [] := by
  by_cases hPlus : level = ['+']
  all_goals simp [fill, hPlus]

/-- A request that ends in `#` matches a topic with any plain continuation. -/
theorem exists_topic_below_hash (hSat : Satisfiable filter.text.levels) (reqs tail : List Str)
    (hReqs : filter.text.levels = reqs ++ [['#']])
    (hTail : ∀ level ∈ tail, '/' ∉ level ∧ '+' ∉ level ∧ '#' ∉ level)
    (hne : reqs.map fill ++ tail ≠ []) (hBlank : reqs.map fill ++ tail ≠ [[]]) :
    ∃ topic : Topic, filter.matches topic = true ∧ topic.text.levels = reqs.map fill ++ tail := by
  have hRest : Seg.rest ∉ reqs.map seg := by
    have hLast := validate_restLast _ filter.valid
    rw [hReqs, map_append] at hLast
    exact hLast.not_mem_left (by simp)
  have hHash : ∀ level ∈ reqs, level ≠ ['#'] := by
    intro level hl hEq
    exact hRest (List.mem_map.mpr ⟨level, hl, by simp [hEq]⟩)
  obtain ⟨topic, hTopic⟩ := exists_topic_levels (reqs.map fill ++ tail) hne hBlank (by
    intro level hl
    rcases List.mem_append.mp hl with hl | hl
    · obtain ⟨req, hReq, rfl⟩ := List.mem_map.mp hl
      exact fill_plain filter hSat req (by rw [hReqs]; exact List.mem_append_left _ hReq)
        (hHash req hReq)
    · exact hTail level hl)
  refine ⟨topic, ?_, hTopic⟩
  rw [matches_iff, hReqs, hTopic, map_append]
  apply (matches_append_iff _ _ hRest).mpr
  exact ⟨reqs.map fill, tail, rfl, fill_fits reqs hHash, by simp⟩

theorem exists_topic_matched (hSat : Satisfiable filter.text.levels) :
    ∃ topic : Topic, filter.matches topic = true := by
  rcases validate_levels _ filter.valid with hFree | ⟨reqs, hReqs, -⟩
  · have hHash : ∀ level ∈ filter.text.levels, level ≠ ['#'] := by
      intro level hl hEq
      exact hFree level hl (by simp [hEq])
    have hText := ((validate_eq_ok_iff _).mp filter.valid).1
    obtain ⟨topic, hTopic⟩ := exists_topic_levels (filter.text.levels.map fill)
      (by simpa using Str.levels_ne_nil filter.text) (by
        intro hBlank
        obtain ⟨level, hLevels, hLevel⟩ := List.map_eq_singleton_iff.mp hBlank
        rw [fill_eq_nil_iff] at hLevel
        exact hText (Str.levels_injective (by rw [hLevels, hLevel, Str.levels_nil]))) (by
        intro level hl
        obtain ⟨req, hReq, rfl⟩ := List.mem_map.mp hl
        exact fill_plain filter hSat req hReq (hHash req hReq))
    refine ⟨topic, ?_⟩
    grind [matches_iff, matches_iff_forall₂, fill_fits, seg_eq_rest_iff]
  · obtain ⟨topic, hTopic, -⟩ := exists_topic_below_hash filter hSat reqs [['a']] hReqs
      (by simp) (by simp) (by cases reqs <;> simp)
    exact ⟨topic, hTopic⟩

/-- Outside the excepted pairs the comment on the walk is right: every topic
of the request is a topic of the rule. -/
theorem AclRule.topicMatches_of_filterCovered (topic : Topic)
    (hCover : rule.filterCovered filter = true) (hOver : ¬Overgrants rule.topicPattern filter)
    (hMatch : filter.matches topic = true) : rule.topicMatches topic = some true := by
  rw [matches_iff] at hMatch
  have hRequest := validate_restLast _ filter.valid
  have hSat := satisfiable_of_matches _ _ hRequest (fun level hl => (topic.level_plain level hl).1)
    hMatch
  have hValid : validate rule.topicPattern = some (.ok ()) := by
    apply (validate_or_hashInside _ _ hCover).resolve_right
    intro hInside
    exact hOver ⟨hSat, Or.inr hInside⟩
  refine (rule.topicMatches_eq_true_iff topic).mpr ⟨hValid, ?_⟩
  apply (((coverLevels_iff _ _).mp hCover).matches_or_overrun (validate_restLast _ hValid) hRequest
    hMatch).elim id
  intro hRun
  obtain ⟨pats, reqs, hReqs, hAlign, hEnd⟩ := overrun_levels _ _ hRun
  rcases hEnd with hEnd | hEnd
  · exact absurd ⟨hSat, Or.inl ⟨pats, reqs, hReqs, hAlign, Or.inl hEnd⟩⟩ hOver
  · have hShort : reqs = [] ∨ reqs = [[]] := by
      by_contra hLong
      rw [not_or] at hLong
      exact hOver ⟨hSat, Or.inl ⟨pats, reqs, hReqs, hAlign, Or.inr ⟨hEnd, hLong⟩⟩⟩
    rw [hReqs, map_append] at hMatch hRequest
    have hRest := hRequest.not_mem_left (by simp)
    rw [hEnd, map_append]
    apply (((levelsAligned_iff _ _).mp hAlign).matches_any_rest_iff hRest hMatch).mpr
    have hSome : topic.text.levels ≠ [] := Str.levels_ne_nil _
    have hLength := List.length_pos_iff.mpr hSome
    rcases hShort with hShort | hShort
    · simpa [hShort] using hLength
    · rw [hShort] at hMatch ⊢
      -- The first level is empty, so a topic of one level would be the empty text.
      obtain ⟨x, ys, hTopic, hFit, -⟩ := (matches_cons_iff (by decide)).mp hMatch
      have hx : x = [] := hFit
      cases ys with
      | nil => exact absurd (by rw [hTopic, hx]) topic.levels_ne_blank
      | cons y ys => simp [hTopic]

theorem plusOverHash_escapes (hSat : Satisfiable filter.text.levels)
    (h : PlusOverHash rule.topicPattern.levels filter.text.levels) :
    rule.filterCovered filter = true ∧
      ∃ topic : Topic, filter.matches topic = true ∧ rule.topicMatches topic ≠ some true := by
  obtain ⟨pats, reqs, hReqs, hAlign, hEnd⟩ := h
  have hAligned := (levelsAligned_iff _ _).mp hAlign
  have hRest : Seg.rest ∉ reqs.map seg := by
    have hLast := validate_restLast _ filter.valid
    rw [hReqs, map_append] at hLast
    exact hLast.not_mem_left (by simp)
  refine ⟨(coverLevels_iff _ _).mpr (Overrun.covers ⟨pats.map seg, reqs.map seg, ?_, hAligned, ?_⟩),
    ?_⟩
  · simp [hReqs]
  · rcases hEnd with hEnd | ⟨hEnd, -⟩
    · exact Or.inl (by simp [hEnd])
    · exact Or.inr (by simp [hEnd])
  rcases hEnd with hEnd | ⟨hEnd, hSome, hBlank⟩
  · -- Two levels below the `#`, while the pattern allows exactly one.
    obtain ⟨topic, hMatch, hTopic⟩ := exists_topic_below_hash filter hSat reqs [['a'], ['a']] hReqs
      (by simp) (by simp) (by cases reqs <;> simp)
    refine ⟨topic, hMatch, ?_⟩
    rw [ne_eq, AclRule.topicMatches_eq_true_iff, hEnd, map_append]
    rw [matches_iff, hReqs, map_append] at hMatch
    intro hBoth
    have hCount := (hAligned.matches_any_iff hRest hMatch).mp hBoth.2
    simp [hTopic] at hCount
  · -- No level below the `#`, while the pattern asks for at least one.
    obtain ⟨topic, hMatch, hTopic⟩ := exists_topic_below_hash filter hSat reqs [] hReqs (by simp)
      (by simpa using hSome) (by
        rw [List.append_nil]
        intro hMap
        obtain ⟨level, hLevels, hLevel⟩ := List.map_eq_singleton_iff.mp hMap
        exact hBlank (by rw [hLevels, (fill_eq_nil_iff level).mp hLevel]))
    refine ⟨topic, hMatch, ?_⟩
    rw [ne_eq, AclRule.topicMatches_eq_true_iff, hEnd, map_append]
    rw [matches_iff, hReqs, map_append] at hMatch
    intro hBoth
    have hCount := (hAligned.matches_any_rest_iff hRest hMatch).mp hBoth.2
    simp [hTopic] at hCount

theorem hashInside_escapes (hSat : Satisfiable filter.text.levels)
    (h : HashInside rule.topicPattern.levels filter.text.levels) :
    rule.filterCovered filter = true ∧
      ∃ topic : Topic, filter.matches topic = true ∧ rule.topicMatches topic ≠ some true := by
  obtain ⟨pats, tail, reqs, more, hPattern, hTail, hRequest, hMore, hAlign⟩ := h
  constructor
  · apply (coverLevels_iff _ _).mpr
    rw [covers_iff, hPattern, hRequest]
    left
    exact ⟨pats.map seg, tail.map seg, reqs.map seg, more.map seg, by simp, by simp, by simpa,
      (levelsAligned_iff _ _).mp hAlign⟩
  · obtain ⟨topic, hMatch⟩ := exists_topic_matched filter hSat
    refine ⟨topic, hMatch, ?_⟩
    rw [ne_eq, AclRule.topicMatches_eq_true_iff]
    intro hBoth
    have hLast := validate_restLast _ hBoth.1
    rw [hPattern, map_append, List.map_cons, seg_hash] at hLast
    exact hTail (by simpa using hLast.tail_eq_nil)

/-- The walk is sound for a pair of pattern and request exactly when the pair
is not one of those listed above. -/
theorem AclRule.filterCovered_sound_iff (rule : AclRule) (filter : TopicFilter) :
    (rule.filterCovered filter = true →
      ∀ topic : Topic, filter.matches topic = true → rule.topicMatches topic = some true) ↔
    ¬Overgrants rule.topicPattern filter := by
  constructor
  · intro hSound hOver
    obtain ⟨hSat, hCase⟩ := hOver
    grind [plusOverHash_escapes, hashInside_escapes]
  · grind [AclRule.topicMatches_of_filterCovered]

/-- The pattern `+` covers the request `#`, and the topic `a/b` shows that it
should not. -/
theorem AclRule.filterCovered_plus_hash :
    let rule : AclRule := ⟨"*".toList, .all, "+".toList, true⟩
    let filter : TopicFilter := ⟨"#".toList, rfl⟩
    let topic : Topic := ⟨"a/b".toList, rfl⟩
    rule.filterCovered filter = true ∧ filter.matches topic = true ∧
      rule.topicMatches topic = some false := by
  decide

end IndraMqtt.Auth

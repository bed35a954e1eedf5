import IndraMqtt.Protocol.FilterLanguage

/-! Access-control rules. A publication is compared with a rule through the
rule's topic pattern, a subscription through a walk that compares the requested
filter with the same pattern. -/
namespace IndraMqtt.Auth

open Protocol LevelPattern

inductive AclAction where
  | publish
  | subscribe
  | all
  deriving DecidableEq, Repr

def AclAction.covers (rule action : AclAction) : Bool :=
  rule = .all || rule = action

/-- One ordered entry. Neither pattern is validated when a rule is stored, so
that both may be arbitrary texts. -/
structure AclRule where
  clientPattern : Str
  action : AclAction
  topicPattern : Str
  allow : Bool
  deriving DecidableEq

/-- The loop of `filter_covered` over the request levels still to be walked,
with the pattern levels from position `pi` on. -/
def coverLevels : List Str → List Str → Bool
  | pattern, [] => pattern.isEmpty || pattern = [['#']]
  | [], _ :: _ => false
  | pat :: pattern, req :: request =>
    if pat = ['#'] then true
    else if pat = ['+'] then coverLevels pattern request
    else if pat = req then coverLevels pattern request
    else false

namespace AclRule

/-- `AclRule::client_matches`, with `none` for a panic while the client pattern
is validated. -/
def clientMatches (rule : AclRule) (clientId : Str) : Option Bool :=
  if rule.clientPattern = ['*'] ∨ rule.clientPattern = clientId then some true
  else if ¬('+' ∈ rule.clientPattern ∨ '#' ∈ rule.clientPattern) then some false
  else
    match TopicFilter.new rule.clientPattern with
    | none => none
    | some (.error _) => some false
    | some (.ok filter) =>
      match Topic.new clientId with
      | .error _ => some false
      | .ok id => some (filter.matches id)

/-- `AclRule::topic_matches`. A pattern that fails validation matches nothing. -/
def topicMatches (rule : AclRule) (topic : Topic) : Option Bool :=
  match TopicFilter.new rule.topicPattern with
  | none => none
  | some (.error _) => some false
  | some (.ok filter) => some (filter.matches topic)

/-- `AclRule::filter_covered`. The pattern is split without validation. -/
def filterCovered (rule : AclRule) (filter : TopicFilter) : Bool :=
  coverLevels rule.topicPattern.levels filter.text.levels

end AclRule

theorem coverLevels_iff (pattern request : List Str) :
    coverLevels pattern request = true ↔ Covers (pattern.map seg) (request.map seg) := by
  induction request generalizing pattern with
  | nil => simp [coverLevels, Covers]
  | cons req request ih =>
    cases pattern with
    | nil => simp [coverLevels, Covers]
    | cons pat pattern => grind [coverLevels, Covers, seg]

theorem AclRule.topicMatches_eq_true_iff (rule : AclRule) (topic : Topic) :
    rule.topicMatches topic = some true ↔
      TopicFilter.validate rule.topicPattern = some (.ok ()) ∧
        Matches (rule.topicPattern.levels.map seg) topic.text.levels := by
  rw [← matchLevels_iff]
  grind [topicMatches, TopicFilter.new, TopicFilter.matches]

end IndraMqtt.Auth

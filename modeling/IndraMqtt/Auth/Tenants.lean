import IndraMqtt.Auth.Coverage
import IndraMqtt.Lib.Dict

/-! Credential and rule state of the built-in store, one entry for each tenant,
and the first-match decisions on publications and subscriptions. -/
namespace IndraMqtt.Auth

open Protocol LevelPattern

inductive AuthError where
  | authenticationFailed (message : Str)
  | publishDenied (message : Str)
  | subscribeDenied (message : Str)
  deriving DecidableEq

/-- The stored verifier of one user. The hash functions themselves belong to
other crates and enter as a parameter wherever a password is verified. -/
inductive PasswordVerifier where
  | sha256 (hash : List UInt8)
  | bcrypt (encoded : Str)
  | pbkdf2 (iterations : Nat) (salt hash : List UInt8)
  | argon2 (encoded : Str)
  | locked
  deriving DecidableEq

structure UserQuotas where
  maxConnections : Option Nat
  maxPublishRate : Option Nat
  maxPublishBurst : Option Nat
  deriving DecidableEq

structure UserEntry where
  verifier : PasswordVerifier
  quotas : UserQuotas
  deriving DecidableEq

structure TenantState where
  users : Dict Str UserEntry
  rules : List AclRule

abbrev Tenants := Dict Str TenantState

def defaultTenantId : Str := "default".toList

def maxTenantIdLen : Nat := 128

def isDefaultTenant (tenant : Str) : Bool := tenant = [] || tenant = defaultTenantId

def isControl (c : Char) : Bool := c.toNat < 32 || (127 ≤ c.toNat && c.toNat < 160)

def isValidTenantId (id : Str) : Bool :=
  !id.isEmpty && id.len ≤ maxTenantIdLen && !id.any isControl

def tenantKey (tenant : Str) : Str := if tenant = [] then defaultTenantId else tenant

/-- The rule loop of `check_in_tenant`. Each `none` is a panic inside a rule's
own pattern check, which stops the loop. -/
def checkRules (clientId : Str) (action : AclAction) (matchesRule : AclRule → Option Bool) :
    List AclRule → Option Bool
  | [] => some false
  | rule :: rules =>
    (rule.clientMatches clientId).bind fun client =>
      if client && rule.action.covers action then
        (matchesRule rule).bind fun hit =>
          if hit then some rule.allow else checkRules clientId action matchesRule rules
      else checkRules clientId action matchesRule rules

variable (tenants : Tenants) (tenant clientId : Str)

def checkInTenant (action : AclAction) (matchesRule : AclRule → Option Bool) : Option Bool :=
  let key := tenantKey tenant
  let globallyEmpty :=
    tenants.values.all fun state => state.users.values.isEmpty && state.rules.isEmpty
  match tenants.get? key with
  | none => some (isDefaultTenant key || globallyEmpty)
  | some state =>
    if state.rules.isEmpty then some (isDefaultTenant key || globallyEmpty)
    else checkRules clientId action matchesRule state.rules

def authorizePublishInTenant (topic : Topic) : Option (Except AuthError Unit) :=
  let key := tenantKey tenant
  let denied := Except.error (.publishDenied (clientId ++ " cannot publish".toList))
  if !isDefaultTenant key && !isValidTenantId key then some denied
  else
    (checkInTenant tenants key clientId .publish fun rule => rule.topicMatches topic).map
      fun allowed => if allowed then .ok () else denied

def authorizeSubscribeInTenant (filter : TopicFilter) : Option (Except AuthError Unit) :=
  let key := tenantKey tenant
  let denied := Except.error (.subscribeDenied (clientId ++ " cannot subscribe".toList))
  if !isDefaultTenant key && !isValidTenantId key then some denied
  else
    (checkInTenant tenants key clientId .subscribe fun rule => some (rule.filterCovered filter)).map
      fun allowed => if allowed then .ok () else denied

/-- The rule decides the request: all three of its checks succeed. -/
def AclRule.Hits (rule : AclRule) (clientId : Str) (action : AclAction)
    (matchesRule : AclRule → Option Bool) : Prop :=
  rule.clientMatches clientId = some true ∧ rule.action.covers action = true ∧
    matchesRule rule = some true

def AclRule.Passes (rule : AclRule) (clientId : Str) (action : AclAction)
    (matchesRule : AclRule → Option Bool) : Prop :=
  rule.clientMatches clientId = some false ∨
    (rule.clientMatches clientId = some true ∧
      (rule.action.covers action = false ∨ matchesRule rule = some false))

section Rules

variable (clientId : Str) (action : AclAction) (matchesRule : AclRule → Option Bool)

section

variable (rule : AclRule) (rules : List AclRule)

theorem checkRules_of_passes (h : rule.Passes clientId action matchesRule) :
    checkRules clientId action matchesRule (rule :: rules) =
      checkRules clientId action matchesRule rules := by
  rcases h with hClient | ⟨hClient, hAction | hMatch⟩
  · simp [checkRules, hClient]
  · simp [checkRules, hClient, hAction]
  · simp [checkRules, hClient, hMatch]

theorem checkRules_of_hits (h : rule.Hits clientId action matchesRule) :
    checkRules clientId action matchesRule (rule :: rules) = some rule.allow := by
  simp [checkRules, h.1, h.2.1, h.2.2]

/-- A decided loop either hit or went past its first rule. -/
theorem AclRule.hits_or_passes (decision : Bool)
    (h : checkRules clientId action matchesRule (rule :: rules) = some decision) :
    rule.Hits clientId action matchesRule ∨ rule.Passes clientId action matchesRule := by
  cases hClient : rule.clientMatches clientId with
  | none => simp [checkRules, hClient] at h
  | some client =>
    cases client with
    | false => exact Or.inr (Or.inl hClient)
    | true =>
      cases hAction : rule.action.covers action with
      | false => exact Or.inr (Or.inr ⟨hClient, Or.inl hAction⟩)
      | true =>
        cases hMatch : matchesRule rule with
        | none => simp [checkRules, hClient, hAction, hMatch] at h
        | some hit =>
          cases hit with
          | false => exact Or.inr (Or.inr ⟨hClient, Or.inr hMatch⟩)
          | true => exact Or.inl ⟨hClient, hAction, hMatch⟩

end

theorem checkRules_eq_some (rules : List AclRule) (decision : Bool)
    (h : checkRules clientId action matchesRule rules = some decision) :
    (∃ before rule after, rules = before ++ rule :: after ∧
      (∀ earlier ∈ before, earlier.Passes clientId action matchesRule) ∧
      rule.Hits clientId action matchesRule ∧ rule.allow = decision) ∨
    (decision = false ∧ ∀ rule ∈ rules, rule.Passes clientId action matchesRule) := by
  induction rules with
  | nil => exact Or.inr ⟨by simpa [checkRules] using h.symm, by simp⟩
  | cons rule rules ih =>
    rcases AclRule.hits_or_passes clientId action matchesRule rule rules decision h with hHit | hPass
    · rw [checkRules_of_hits _ _ _ rule rules hHit] at h
      exact Or.inl ⟨[], rule, rules, rfl, by simp, hHit, by simpa using h⟩
    · grind [checkRules_of_passes]

end Rules

def rulesOf : List AclRule :=
  ((tenants.get? (tenantKey tenant)).map TenantState.rules).getD []

def coversFilter (filter : TopicFilter) (rule : AclRule) : Option Bool :=
  some (rule.filterCovered filter)

variable (tenants : Tenants) (tenant : Str) (clientId : Str)

@[simp] theorem tenantKey_tenantKey : tenantKey (tenantKey tenant) = tenantKey tenant := by
  grind [tenantKey]

/-- A request is decided by the rule loop, or independently of the rules when
the tenant has none. -/
theorem checkInTenant_cases (action : AclAction) : (∃ allowed, ∀ matchesRule,
      checkInTenant tenants tenant clientId action matchesRule = some allowed) ∨
    ∀ matchesRule, checkInTenant tenants tenant clientId action matchesRule =
      checkRules clientId action matchesRule (rulesOf tenants tenant) := by
  simp only [checkInTenant, rulesOf]
  cases tenants.get? (tenantKey tenant) with
  | none =>
    left
    exact ⟨_, fun _ => rfl⟩
  | some state =>
    by_cases hRules : state.rules.isEmpty = true
    · left
      exact ⟨_, fun _ => if_pos hRules⟩
    · right
      intro matchesRule
      exact if_neg hRules

theorem authorizeSubscribeInTenant_granted (filter : TopicFilter)
    (h : authorizeSubscribeInTenant tenants tenant clientId filter = some (.ok ())) :
    (!isDefaultTenant (tenantKey tenant) && !isValidTenantId (tenantKey tenant)) = false ∧
      checkInTenant tenants (tenantKey tenant) clientId .subscribe (coversFilter filter) =
        some true := by
  simp only [authorizeSubscribeInTenant] at h
  split_ifs at h with hInvalid
  · cases h
  · obtain ⟨allowed, hAllowed, hDecision⟩ := Option.map_eq_some_iff.mp h
    refine ⟨by simpa using hInvalid, hAllowed.trans ?_⟩
    cases allowed with
    | false => cases hDecision
    | true => rfl

/-- With an allow rule that decides the second request, a denial of it comes
from an earlier rule, which the first request went past. -/
theorem earlier_deny_of_denied (first second : TopicFilter)
    (before : List AclRule) (grant : AclRule) (after : List AclRule)
    (hBefore : ∀ earlier ∈ before, earlier.Passes clientId .subscribe (coversFilter first))
    (hGrant : grant.Hits clientId .subscribe (coversFilter second)) (hAllow : grant.allow = true)
    (hDenied : checkRules clientId .subscribe (coversFilter second) (before ++ grant :: after) =
      some false) : ∃ deny ∈ before, deny.Hits clientId .subscribe (coversFilter second) ∧
      deny.allow = false ∧ deny.filterCovered first = false := by
  induction before with
  | nil => simp_all [checkRules_of_hits]
  | cons rule before ih =>
    have hRule := hBefore rule (by simp)
    rcases AclRule.hits_or_passes _ _ _ rule _ _ hDenied with hHit | hPass
    · rw [List.cons_append, checkRules_of_hits _ _ _ rule _ hHit] at hDenied
      refine ⟨rule, by simp, hHit, by simpa using hDenied, ?_⟩
      rcases hRule with hClient | ⟨-, hAction | hCover⟩
      · rw [hHit.1] at hClient
        cases hClient
      · rw [hHit.2.1] at hAction
        cases hAction
      · simpa [coversFilter] using hCover
    · simp_all [checkRules_of_passes]

/-- A rule that covers a filter also covers each topic of it, taken as a
request of its own, unless the pair is one of the overgranting ones. -/
theorem AclRule.filterCovered_topic (rule : AclRule) (filter : TopicFilter) (topic : Topic)
    (hCover : rule.filterCovered filter = true) (hOver : ¬Overgrants rule.topicPattern filter)
    (hMatch : filter.matches topic = true) : rule.filterCovered topic.asFilter = true := by
  have hTopic := rule.topicMatches_of_filterCovered filter topic hCover hOver hMatch
  obtain ⟨hValid, hLevels⟩ := (rule.topicMatches_eq_true_iff topic).mp hTopic
  apply (coverLevels_iff _ _).mpr
  change Covers _ (topic.text.levels.map seg)
  rw [topic.map_seg_levels]
  exact hLevels.covers_lit (validate_restLast _ hValid)

def overlapTenants : Tenants :=
  Dict.set ∅ defaultTenantId
    ⟨∅, [⟨"*".toList, .subscribe, "a/secret".toList, false⟩,
      ⟨"*".toList, .subscribe, "a/#".toList, true⟩]⟩

end IndraMqtt.Auth

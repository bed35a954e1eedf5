import Mathlib.Data.Rat.Defs

/-! The session section of the broker configuration and its range checks. -/
namespace IndraMqtt.Config

inductive ConfigError where
  | invalid (message : String)
  deriving DecidableEq, Repr

def invalid (setting value why : String) : ConfigError :=
  .invalid (setting ++ " \"" ++ value ++ "\" is invalid: " ++ why ++ " (field `" ++ setting ++ "`)")

def checkRange (setting : String) (value min max : Nat) : Except ConfigError Unit :=
  if value < min ∨ value > max then
    .error (invalid setting (toString value) ("must be " ++ toString min ++ "..=" ++ toString max))
  else .ok ()

/-- Finite values of the floating-point field are rationals; the others fail
the range check like any value outside it. -/
structure SessionConf where
  maxSessionExpirySecs : Nat
  maxOfflineQueue : Nat
  maxInflightMessages : Nat
  maxQos0Backlog : Nat
  maxQos1Inflight : Nat
  maxQos1Spill : Nat
  topicAliasMaximum : Nat
  keepAliveGrace : Rat

def SessionConf.default : SessionConf where
  maxSessionExpirySecs := 86400
  maxOfflineQueue := 50000
  maxInflightMessages := 65535
  maxQos0Backlog := 1000
  maxQos1Inflight := 100
  maxQos1Spill := 1000
  topicAliasMaximum := 10
  keepAliveGrace := 3 / 2

def SessionConf.validate (conf : SessionConf) : Except ConfigError Unit := do
  checkRange "session.max_session_expiry_secs" conf.maxSessionExpirySecs 0 2592000
  checkRange "session.max_offline_queue" conf.maxOfflineQueue 1 1000000
  checkRange "session.max_inflight_messages" conf.maxInflightMessages 1 65535
  checkRange "session.max_qos0_backlog" conf.maxQos0Backlog 1 100000
  checkRange "session.max_qos1_inflight" conf.maxQos1Inflight 1 100000
  checkRange "session.max_qos1_spill" conf.maxQos1Spill 1 100000
  checkRange "session.topic_alias_maximum" conf.topicAliasMaximum 0 65535
  if conf.keepAliveGrace < 1 ∨ 5 < conf.keepAliveGrace then
    .error (invalid "session.keep_alive_grace" (toString conf.keepAliveGrace) "must be 1.0..=5.0")
  else .ok ()

@[simp] theorem checkRange_eq_ok_iff (setting : String) (value min max : Nat) :
    checkRange setting value min max = .ok () ↔ min ≤ value ∧ value ≤ max := by
  unfold checkRange
  split <;> simp <;> omega

theorem then_eq_ok_iff {ε : Type*} {first second : Except ε Unit} :
    (first >>= fun _ => second) = .ok () ↔ first = .ok () ∧ second = .ok () := by
  cases first with
  | error e => simp [bind, Except.bind]
  | ok u => simp [bind, Except.bind]

/-- A configuration is accepted exactly when each field is within its range. -/
theorem SessionConf.validate_eq_ok_iff (conf : SessionConf) : conf.validate = .ok () ↔
      conf.maxSessionExpirySecs ≤ 2592000 ∧
      (1 ≤ conf.maxOfflineQueue ∧ conf.maxOfflineQueue ≤ 1000000) ∧
      (1 ≤ conf.maxInflightMessages ∧ conf.maxInflightMessages ≤ 65535) ∧
      (1 ≤ conf.maxQos0Backlog ∧ conf.maxQos0Backlog ≤ 100000) ∧
      (1 ≤ conf.maxQos1Inflight ∧ conf.maxQos1Inflight ≤ 100000) ∧
      (1 ≤ conf.maxQos1Spill ∧ conf.maxQos1Spill ≤ 100000) ∧
      conf.topicAliasMaximum ≤ 65535 ∧ 1 ≤ conf.keepAliveGrace ∧ conf.keepAliveGrace ≤ 5 := by
  simp only [validate, then_eq_ok_iff, checkRange_eq_ok_iff, Nat.zero_le, true_and]
  grind

theorem SessionConf.default_valid : SessionConf.default.validate = .ok () := by
  rw [validate_eq_ok_iff]
  decide +kernel

end IndraMqtt.Config

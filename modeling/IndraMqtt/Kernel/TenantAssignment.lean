import IndraMqtt.Kernel.Lifecycle
import IndraMqtt.Kernel.TenantExpression

/-! Tenant assignment. A rule renders an expression over the connect context, and the first
one that renders names the tenant. The verifiers of tokens refuse every tenant but the
default one, and they are asked with the tenant of the claimed username. -/
namespace IndraMqtt.Kernel

open Protocol Sessions

variable {connect : Connect} {t : Handled}

/-! ### Rules -/

structure TenantRule where
  listener : Str
  attributeName : Str
  expression : Str

def TenantRule.applies (rule : TenantRule) (ctx : ConnectContext) : Bool :=
  rule.attributeName == "tenant".toList &&
    (rule.listener.isEmpty || rule.listener == "*".toList || rule.listener == ctx.listener)

def assign (rules : List TenantRule) (ctx : ConnectContext) : Str :=
  match rules.findSome? fun rule =>
      if rule.applies ctx then renderExpression rule.expression ctx else none with
  | some rendered => if Auth.isValidTenantId rendered then rendered else defaultTenantId
  | none => defaultTenantId

theorem assign_ne_nil (rules : List TenantRule) (ctx : ConnectContext) : assign rules ctx ≠ [] := by
  have hDefault : defaultTenantId ≠ [] := by decide
  unfold assign
  split
  · split
    · next hValid =>
      rintro hEmpty
      rw [hEmpty] at hValid
      cases hValid
    · exact hDefault
  · exact hDefault

/-! ### Verifiers -/

/-- `verify_token_in_tenant` of the JWT and of the Kerberos authenticator: only the default
tenant has a verifier. -/
def verifyTokenInTenant (verifyToken : Str → Payload → Option Str) (tenant clientId : Str)
    (token : Payload) : Option Str :=
  if !tenant.isEmpty && tenant != defaultTenantId then none else verifyToken clientId token

def Env.tenancy (env : Env) (rules : List TenantRule)
    (jwt kerberos : Option (Str → Payload → Option Str)) : Env :=
  { env with
    assignTenant := assign rules
    jwks := jwt.map verifyTokenInTenant
    kerberos := kerberos.map verifyTokenInTenant }

section Tenancy

variable {env : Env} {rules : List TenantRule} {jwt kerberos : Option (Str → Payload → Option Str)}
  {req : BindRequest} {identity : Identity}

/-- A CONNECT with a verified JWT subject is accepted in the default tenant only. -/
theorem subject_tenant
    (hIdentity : authenticate (env.tenancy rules jwt kerberos) req = .ok identity)
    (hSubject : identity.subject.isSome) :
    bindTenantForReq (env.tenancy rules jwt kerberos) req identity.principal =
      defaultTenantId := by
  let node := env.tenancy rules jwt kerberos
  obtain ⟨-, rfl⟩ | ⟨-, hCredentials⟩ := authenticate_inv hIdentity
  · cases hSubject
  · unfold verifyCredentials at hCredentials
    simp only at hCredentials
    split at hCredentials
    · cases hCredentials
      cases hSubject
    · obtain ⟨hPrincipal, verify, subject, hJwks, hVerify⟩ :=
        verifyExternal_subject hCredentials hSubject
      obtain ⟨verifyToken, -, rfl⟩ := Option.map_eq_some_iff.mp hJwks
      rw [hPrincipal]
      have hSome : bindTenantForReq node req none ≠ [] := assign_ne_nil rules _
      by_contra hOther
      rw [verifyTokenInTenant, if_pos (by simp [hOther, hSome, node])] at hVerify
      cases hVerify

theorem principal_tenant {principal : Str} (hPrincipal : identity.principal = some principal) :
    bindTenantForReq (env.tenancy rules jwt kerberos) req identity.principal =
      assign rules
        { clientId := req.clientId, username := some principal, peerHost := req.peerhost,
          listener := [], certCn := req.certCn, certSubject := req.certSubject, certSans := req.certSans,
          userProperties := none } := by
  rw [hPrincipal, bindTenantForReq, Option.some_or]
  -- no rule reads the user properties
  rfl

end Tenancy

/-! ### The tenant of a verified identity -/

/-- The frame is a CONNECT that a node with these tenant rules accepts with this verified
identity. -/
structure VerifiedConnect (rules : List TenantRule) (identity : Identity) (t : Handled)
    (connect : Connect) : Prop where
  connects : connectOf t = some connect
  node : ∃ env jwt kerberos, t.input.1 = Env.tenancy env rules jwt kerberos
  accepted : ∃ will,
    accepts (t.before.withEnv t.input.1) t.input.1 connect.request = some (identity, will)
  verified : identity.principal.isSome ∨ identity.subject.isSome

structure SameFacts (req req' : BindRequest) : Prop where
  clientId : req.clientId = req'.clientId
  peerhost : req.peerhost = req'.peerhost
  certCn : req.certCn = req'.certCn
  certSubject : req.certSubject = req'.certSubject
  certSans : req.certSans = req'.certSans

variable {rules : List TenantRule} {identity : Identity}

theorem VerifiedConnect.tenant (hVerified : VerifiedConnect rules identity t connect) :
    ∃ env jwt kerberos, connect.key.tenant =
        bindTenantForReq (Env.tenancy env rules jwt kerberos) connect.request identity.principal ∧
      authenticate (Env.tenancy env rules jwt kerberos) connect.request = .ok identity := by
  obtain ⟨env, jwt, kerberos, hNode⟩ := hVerified.node
  obtain ⟨will, hAccepts⟩ := hVerified.accepted
  obtain ⟨looksV5, found, registered, -, hFound, hKey, -⟩ := connectOf_inv hVerified.connects
  rw [hAccepts] at hFound
  cases hFound
  obtain ⟨hIdentity, -, -⟩ := accepts_inv hAccepts
  rw [hNode] at hKey hIdentity
  exact ⟨env, jwt, kerberos, congrArg SessionKey.tenant hKey, hIdentity⟩

theorem VerifiedConnect.same_tenant {t' : Handled} {connect' : Connect}
    (hVerified : VerifiedConnect rules identity t connect)
    (hVerified' : VerifiedConnect rules identity t' connect')
    (hFacts : SameFacts connect.request connect'.request) :
    connect.key.tenant = connect'.key.tenant := by
  obtain ⟨env, jwt, kerberos, hTenant, hIdentity⟩ := hVerified.tenant
  obtain ⟨env', jwt', kerberos', hTenant', hIdentity'⟩ := hVerified'.tenant
  rw [hTenant, hTenant']
  cases hPrincipal : identity.principal with
  | none =>
    have hSubject : identity.subject.isSome := by
      simpa [hPrincipal] using hVerified.verified
    rw [← hPrincipal, subject_tenant hIdentity hSubject, subject_tenant hIdentity' hSubject]
  | some principal =>
    rw [← hPrincipal, principal_tenant hPrincipal, principal_tenant hPrincipal, hFacts.clientId,
      hFacts.peerhost, hFacts.certCn, hFacts.certSubject, hFacts.certSans]

def BoundIn (tenant : Str) (t : Handled) (connect : Connect) : Prop :=
  ∃ session, t.after.sessions.sessions.get? connect.key = some session ∧
    session.connId = some connect.connId ∧ session.tenantId = tenant

theorem boundIn_own (hReachable : Reachable t.before)
    (hStep : t.IsStep step)
    (hConnect : connectOf t = some connect) : BoundIn connect.key.tenant t connect := by
  obtain ⟨session, hGet, hConn, -, -⟩ := connect_step hReachable.bound hStep hConnect
  exact ⟨session, hGet, hConn, congrArg SessionKey.tenant (KeyedMap.key_of_get? hGet)⟩

/-- Two CONNECTs that are accepted with the same verified identity are bound to sessions of
the same tenant, if they agree on the client id and on what the client does not choose. -/
theorem verified_identity_tenant {rules : List TenantRule} {identity : Identity} {t t' : Handled}
    {connect connect' : Connect} (hReachable : Reachable t.before)
    (hReachable' : Reachable t'.before) (hStep : step t.before t.input = some (t.after, t.output))
    (hStep' : step t'.before t'.input = some (t'.after, t'.output))
    (hVerified : VerifiedConnect rules identity t connect)
    (hVerified' : VerifiedConnect rules identity t' connect')
    (hFacts : SameFacts connect.request connect'.request) :
    ∃ tenant, BoundIn tenant t connect ∧ BoundIn tenant t' connect' := by
  refine ⟨connect.key.tenant, boundIn_own hReachable hStep hVerified.connects, ?_⟩
  rw [hVerified.same_tenant hVerified' hFacts]
  exact boundIn_own hReachable' hStep' hVerified'.connects

def tenantRule (expression : String) : TenantRule := ⟨[], "tenant".toList, expression.toList⟩

def alice : Identity := { principal := some "alice".toList, subject := none, external := true }

def aliceNode (expression : String) : Env :=
  Env.plain.tenancy [tenantRule expression] none (some fun _ _ => some "alice".toList)

def ticketRequest (clientId username : String) : BindRequest :=
  { plainRequest clientId.toList with username := some username.toList, password := some [0x60] }

def aliceConnects (expression clientId username : String) : Env × Event :=
  (aliceNode expression, .bind 7 (.ok (ticketRequest clientId username)) false)

def aliceAccepted (expression clientId username : String) : Option (Identity × Str) :=
  (step (.start .new) (aliceConnects expression clientId username)).bind fun result =>
    (connectOf ⟨.start .new, aliceConnects expression clientId username, result.2,
      result.1⟩).bind fun connect =>
      (accepts ((Shared.start .new).withEnv (aliceNode expression)) (aliceNode expression)
        connect.request).map fun accepted => (accepted.1, connect.key.tenant)

theorem aliceAccepted_inv {expression clientId username : String} {tenant : Str}
    (hAccepted : aliceAccepted expression clientId username = some (alice, tenant)) :
    ∃ (t : Handled) (connect : Connect), Reachable t.before ∧
      t.input = aliceConnects expression clientId username ∧
      step t.before t.input = some (t.after, t.output) ∧
      VerifiedConnect [tenantRule expression] alice t connect ∧
      connect.request = ticketRequest clientId username ∧ connect.key.tenant = tenant := by
  obtain ⟨result, hStep, hRest⟩ := Option.bind_eq_some_iff.mp hAccepted
  obtain ⟨connect, hConnect, hFound⟩ := Option.bind_eq_some_iff.mp hRest
  obtain ⟨⟨identity, will⟩, hAccepts, hResult⟩ := Option.map_eq_some_iff.mp hFound
  obtain ⟨rfl, hTenant⟩ := Prod.mk.inj hResult
  obtain ⟨looksV5, found, registered, hInput, -, -, -⟩ := connectOf_inv hConnect
  have hRequest : ticketRequest clientId username = connect.request := by
    injection hInput with _ hParsed
    exact Except.ok.inj hParsed
  exact ⟨_, connect, ⟨.new, [], booted_new, .nil _⟩, rfl, hStep,
    ⟨hConnect, ⟨Env.plain, _, _, rfl⟩, ⟨will, hAccepts⟩, Or.inl rfl⟩, hRequest.symm, hTenant⟩

/-- `alice` gets one tenant under two usernames. -/
theorem alice_one_tenant :
    ∃ (t t' : Handled) (connect connect' : Connect) (tenant : Str),
      t.input = aliceConnects "$\x7busername\x7d" "meter" "" ∧
      t'.input = aliceConnects "$\x7busername\x7d" "meter" "default" ∧
      BoundIn tenant t connect ∧ BoundIn tenant t' connect' := by
  obtain ⟨t, connect, hReachable, hInput, hStep, hVerified, hRequest, -⟩ :=
    aliceAccepted_inv (show aliceAccepted "$\x7busername\x7d" "meter" "" =
      some (alice, "alice".toList) by decide +kernel)
  obtain ⟨t', connect', hReachable', hInput', hStep', hVerified', hRequest', -⟩ :=
    aliceAccepted_inv (show aliceAccepted "$\x7busername\x7d" "meter" "default" =
      some (alice, "alice".toList) by decide +kernel)
  have hFacts : SameFacts connect.request connect'.request := by
    rw [hRequest, hRequest']
    exact ⟨rfl, rfl, rfl, rfl, rfl⟩
  obtain ⟨tenant, hBound, hBound'⟩ := verified_identity_tenant hReachable hReachable' hStep hStep'
    hVerified hVerified' hFacts
  exact ⟨t, t', connect, connect', tenant, hInput, hInput', hBound, hBound'⟩

/-- Under a rule that reads the client id, the client id decides the tenant of `alice`. -/
theorem alice_two_tenants :
    ∃ (t t' : Handled) (connect connect' : Connect),
      Reachable t.before ∧ Reachable t'.before ∧
      step t.before t.input = some (t.after, t.output) ∧
      step t'.before t'.input = some (t'.after, t'.output) ∧
      VerifiedConnect [tenantRule "$\x7busername\x7d-$\x7bclientid\x7d"] alice t connect ∧
      VerifiedConnect [tenantRule "$\x7busername\x7d-$\x7bclientid\x7d"] alice t' connect' ∧
      connect.request = ticketRequest "a" "" ∧ connect'.request = ticketRequest "b" "" ∧
      BoundIn "alice-a".toList t connect ∧ BoundIn "alice-b".toList t' connect' := by
  obtain ⟨t, connect, hReachable, -, hStep, hVerified, hRequest, hTenant⟩ :=
    aliceAccepted_inv (show aliceAccepted "$\x7busername\x7d-$\x7bclientid\x7d" "a" "" =
      some (alice, "alice-a".toList) by decide +kernel)
  obtain ⟨t', connect', hReachable', -, hStep', hVerified', hRequest', hTenant'⟩ :=
    aliceAccepted_inv (show aliceAccepted "$\x7busername\x7d-$\x7bclientid\x7d" "b" "" =
      some (alice, "alice-b".toList) by decide +kernel)
  have hBound := boundIn_own hReachable hStep hVerified.connects
  have hBound' := boundIn_own hReachable' hStep' hVerified'.connects
  grind

end IndraMqtt.Kernel

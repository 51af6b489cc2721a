import McpZero.Governance.Engine
import McpZero.Pipeline.Hooks

/-! The governance hook: the policy decision of a call. -/
namespace McpZero.Governance
open Python

structure GovernanceHook where
  policy : PolicyConfig
  identityRequired : Bool := true

namespace GovernanceHook

variable (h : GovernanceHook)

/-- The caller of a request. One without identity is anonymous. -/
def caller (identity : Option UserIdentity) : String × List String :=
  match identity with
  | some user => (user.userId, user.groups)
  | none => ("anonymous", [])

def policyInput (ctx : HookContext) : PolicyInput where
  userId := (caller ctx.request.identity).1
  groups := (caller ctx.request.identity).2
  mcpServer := ctx.serverName
  tool := ctx.toolName

/-- What a denial gives as its reason: the description of the rule, as the document has it. -/
def denialReason (ctx : HookContext) : Value :=
  let result := PolicyEngine.evaluate h.policy (policyInput ctx)
  (result.reason.filter Value.truthy).getD (.str "Denied by policy")

def onPostValidation (ctx : HookContext) : Except Exc HookContext :=
  if ctx.request.identity.isNone && h.identityRequired then
    .error (.shortCircuit (.str "No authenticated identity") true)
  else
    let result := PolicyEngine.evaluate h.policy (policyInput ctx)
    if result.effect = .allow then
      .ok { ctx with
        policyDecision := .allow
        policyRuleId := (result.policyId.filter Value.truthy).getD (.str "") }
    else
      .error (.shortCircuit (h.denialReason ctx) true)

theorem denialReason_truthy (ctx : HookContext) : (h.denialReason ctx).truthy = true := by
  unfold denialReason
  dsimp only
  cases hreason : (PolicyEngine.evaluate h.policy (policyInput ctx)).reason.filter Value.truthy with
  | none => rfl
  | some reason => exact (Option.filter_eq_some_iff.mp hreason).2

def toHook {σ : Type} : Pipeline.LifecycleHook σ where
  name := "GovernanceHook"
  onPostValidation ctx s := (h.onPostValidation ctx, s)

/-- The hook lets a call pass exactly when the engine allows it to a known caller. -/
theorem onPostValidation_isOk_iff (ctx : HookContext) :
    (∃ d, h.onPostValidation ctx = .ok d) ↔
      (ctx.request.identity = none → h.identityRequired = false) ∧
        (PolicyEngine.evaluate h.policy (policyInput ctx)).effect = .allow := by
  unfold onPostValidation
  cases hidentity : ctx.request.identity with
  | none =>
    cases hrequired : h.identityRequired with
    | true => simp
    | false =>
      by_cases hallow : (PolicyEngine.evaluate h.policy (policyInput ctx)).effect = .allow
      · simp [hallow]
      · simp [hallow]
  | some user =>
    by_cases hallow : (PolicyEngine.evaluate h.policy (policyInput ctx)).effect = .allow
    · simp [hallow]
    · simp [hallow]

end GovernanceHook

end McpZero.Governance

import McpZero.Governance.Hook
import McpZero.Identity.Hook
import McpZero.Pipeline.Execute

/-! How the gateway wires its pipeline from the core hooks. -/
namespace McpZero.Main
open Pipeline Governance Identity

variable {σ : Type}

/-- A hook that only watches: it acts before the audit and on errors. -/
structure Observer (σ : Type) where
  name : String
  onPreAudit : HookContext → Action σ HookContext
  onError : HookContext → Exc → Action σ Unit

def Observer.toHook (o : Observer σ) : LifecycleHook σ where
  name := o.name
  onPreAudit := o.onPreAudit
  onError := o.onError

/-- What the configuration provides: an identity hook where an identity provider is
configured, a policy where a policy file is, an analytics hook where there is a collector,
and the audit hook. -/
structure CoreHooks (σ : Type) where
  identity : Option (IdentityHook σ)
  policy : Option PolicyConfig
  analytics : Option (Observer σ)
  audit : Observer σ

namespace CoreHooks

variable (c : CoreHooks σ)

def governance (policy : PolicyConfig) : GovernanceHook where
  policy := policy
  identityRequired := c.identity.isSome

def registerSome (r : HookRegistry σ) (hook : Option (LifecycleHook σ)) (priority : ℤ) :
    Except Exc (HookRegistry σ) :=
  match hook with
  | none => .ok r
  | some h => r.register h priority

/-- `_build_pipeline` without plugins. There is no pipeline without identity and policy. -/
def buildPipeline : Except Exc (Option (List (LifecycleHook σ))) := do
  let r ← registerSome {} (c.identity.map (·.toHook)) 10
  let r ← registerSome r (c.policy.map fun p => (c.governance p).toHook) 50
  let r ← registerSome r (c.analytics.map (·.toHook)) 145
  let r ← r.register c.audit.toHook 150
  if c.identity.isNone && c.policy.isNone then return none
  let hooks ← r.build.getHooks
  return some hooks

/-- The core hooks in the order of their priorities. -/
def ordered : List (LifecycleHook σ) :=
  (c.identity.map (·.toHook)).toList ++ (c.policy.map fun p => (c.governance p).toHook).toList ++
    (c.analytics.map (·.toHook)).toList ++ [c.audit.toHook]

/-- Hooks registered by increasing priority are not moved by the build. -/
theorem buildPipeline_eq :
    c.buildPipeline =
      .ok (if c.identity.isNone && c.policy.isNone then none else some c.ordered) := by
  have hsorted : ∀ es : List (ℤ × ℕ × LifecycleHook σ),
      es.Pairwise (fun a b => HookRegistry.entryLE a b = true) →
      es.mergeSort HookRegistry.entryLE = es := fun es h => List.mergeSort_of_pairwise h
  unfold buildPipeline ordered
  rcases c.identity with _ | i <;> rcases c.policy with _ | p <;> rcases c.analytics with _ | a <;>
    simp [registerSome, HookRegistry.register, HookRegistry.build, HookRegistry.getHooks, bind,
      Except.bind, pure, Except.pure, hsorted, HookRegistry.entryLE]

end CoreHooks

end McpZero.Main

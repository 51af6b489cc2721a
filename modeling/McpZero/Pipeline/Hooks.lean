import McpZero.Errors
import McpZero.Context
import Mathlib.Data.List.Sort

/-! Lifecycle hooks and the registry that puts them in priority order. -/
namespace McpZero.Pipeline

/-- The five points of `HOOK_SEQUENCE`. -/
inductive HookPoint
  | preValidation
  | postValidation
  | preMasking
  | postMasking
  | preAudit
  deriving DecidableEq

namespace HookPoint

def value : HookPoint → String
  | preValidation => "pre_validation"
  | postValidation => "post_validation"
  | preMasking => "pre_masking"
  | postMasking => "post_masking"
  | preAudit => "pre_audit"

/-- `_HOOK_METHOD`. -/
def methodName (p : HookPoint) : String := "on_" ++ p.value

end HookPoint

def hookSequence : List HookPoint :=
  [.preValidation, .postValidation, .preMasking, .postMasking, .preAudit]

/-- A hook overrides the methods it needs; the others return the context as it is. -/
structure LifecycleHook (σ : Type) where
  name : String
  onPreValidation : HookContext → Action σ HookContext := fun ctx s => (.ok ctx, s)
  onPostValidation : HookContext → Action σ HookContext := fun ctx s => (.ok ctx, s)
  onPreMasking : HookContext → Action σ HookContext := fun ctx s => (.ok ctx, s)
  onPostMasking : HookContext → Action σ HookContext := fun ctx s => (.ok ctx, s)
  onPreAudit : HookContext → Action σ HookContext := fun ctx s => (.ok ctx, s)
  onError : HookContext → Exc → Action σ Unit := fun _ _ s => (.ok (), s)

variable {σ : Type}

/-- `getattr(hook, _HOOK_METHOD[point])`. -/
def LifecycleHook.method (hook : LifecycleHook σ) : HookPoint → HookContext → Action σ HookContext
  | .preValidation => hook.onPreValidation
  | .postValidation => hook.onPostValidation
  | .preMasking => hook.onPreMasking
  | .postMasking => hook.onPostMasking
  | .preAudit => hook.onPreAudit

/-- Registered hooks with priority and insertion counter. -/
structure HookRegistry (σ : Type) where
  entries : List (ℤ × ℕ × LifecycleHook σ) := []
  frozen : Bool := false
  insertCounter : ℕ := 0

namespace HookRegistry

def register (r : HookRegistry σ) (hook : LifecycleHook σ) (priority : ℤ := 100) :
    Except Exc (HookRegistry σ) :=
  if r.frozen then .error (.other "PipelineError" "Cannot register hooks after build()")
  else .ok { r with
    entries := r.entries ++ [(priority, r.insertCounter, hook)]
    insertCounter := r.insertCounter + 1 }

/-- The sort key `(priority, counter)`, compared lexicographically. -/
def entryLE (a b : ℤ × ℕ × LifecycleHook σ) : Bool :=
  a.1 < b.1 || (a.1 == b.1 && a.2.1 ≤ b.2.1)

def build (r : HookRegistry σ) : HookRegistry σ :=
  { r with entries := r.entries.mergeSort entryLE, frozen := true }

def getHooks (r : HookRegistry σ) : Except Exc (List (LifecycleHook σ)) :=
  if r.frozen then .ok (r.entries.map (·.2.2))
  else .error (.other "PipelineError" "Registry must be built before use — call build()")

end HookRegistry

end McpZero.Pipeline

import McpZero.Pipeline.Execute

/-! Hooks beside a part of the world that they do not touch. -/
namespace McpZero.Pipeline

variable {σ σ' τ : Type}

/-- An action beside a part of the world that it does not touch. -/
def beside {α : Type} (act : Action σ α) : Action (τ × σ) α := fun s =>
  ((act s.2).1, (s.1, (act s.2).2))

/-- A hook beside a part of the world that it does not touch. -/
def LifecycleHook.beside (hook : LifecycleHook σ) : LifecycleHook (τ × σ) where
  name := hook.name
  onPreValidation ctx := Pipeline.beside (hook.onPreValidation ctx)
  onPostValidation ctx := Pipeline.beside (hook.onPostValidation ctx)
  onPreMasking ctx := Pipeline.beside (hook.onPreMasking ctx)
  onPostMasking ctx := Pipeline.beside (hook.onPostMasking ctx)
  onPreAudit ctx := Pipeline.beside (hook.onPreAudit ctx)
  onError ctx e := Pipeline.beside (hook.onError ctx e)

theorem LifecycleHook.beside_method (hook : LifecycleHook σ) (p : HookPoint) (ctx : HookContext)
    (s : τ × σ) :
    (hook.beside : LifecycleHook (τ × σ)).method p ctx s = Pipeline.beside (hook.method p ctx) s := by
  cases p <;> rfl

theorem raised_congr {h' : LifecycleHook σ'} {h : LifecycleHook σ} (hname : h'.name = h.name)
    (p : HookPoint) (e : Exc) : raised h' p e = raised h p e := by
  cases e <;> simp [raised, hname]

end McpZero.Pipeline

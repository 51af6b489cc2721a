import McpZero.Pipeline.Hooks
import McpZero.Lib.Stages

/-! The pipeline orchestrator. `execute` passes the context through every hook at every
point; on an exception it keeps the context that the failing point was entered with. -/
namespace McpZero.Pipeline
open Lib

variable {σ : Type}

structure PipelineResult where
  context : HookContext
  success : Bool
  error : Option Exc := none
  hooksExecuted : List String := []

/-- What leaves a hook point when a hook raises: a `ShortCircuitError` as it is, any other
exception wrapped in a `HookError`. -/
def raised (hook : LifecycleHook σ) (point : HookPoint) : Exc → Exc
  | .shortCircuit reason deny => .shortCircuit reason deny
  | e => .hook e.message hook.name point.value

/-- `_execute_hook_point`. The names of the methods called are appended to `executed`. -/
def executeHookPoint (point : HookPoint) : List (LifecycleHook σ) → HookContext → List String →
    σ → (Except Exc HookContext × List String) × σ
  | [], ctx, executed, s => ((.ok ctx, executed), s)
  | hook :: hooks, ctx, executed, s =>
    let executed := executed ++ [hook.name ++ "." ++ point.methodName]
    match hook.method point ctx s with
    | (.ok ctx, s) => executeHookPoint point hooks ctx executed s
    | (.error e, s) => ((.error (raised hook point e), executed), s)

/-- The loop over the hook points. The context is reassigned only when a point returns. -/
def executePoints (hooks : List (LifecycleHook σ)) : List HookPoint → HookContext → List String →
    σ → (HookContext × Option Exc × List String) × σ
  | [], ctx, executed, s => ((ctx, none, executed), s)
  | point :: points, ctx, executed, s =>
    match executeHookPoint point hooks ctx executed s with
    | ((.ok ctx, executed), s) => executePoints hooks points ctx executed s
    | ((.error e, executed), s) => ((ctx, some e, executed), s)

/-- `_fire_error_hooks`: what an error hook raises is dropped. -/
def fireErrorHooks (ctx : HookContext) (error : Exc) : List (LifecycleHook σ) → σ → σ
  | [], s => s
  | hook :: hooks, s => fireErrorHooks ctx error hooks (hook.onError ctx error s).2

/-- The context after a short circuit. -/
def markShortCircuited (ctx : HookContext) (reason : Python.Value) (deny : Bool) : HookContext :=
  { ctx with
    shortCircuited := true
    shortCircuitReason := reason
    policyDecision := if deny then .deny else ctx.policyDecision }

/-- The context put in the result when the hook points ended with the exception. -/
def failedContext (ctx : HookContext) : Exc → HookContext
  | .shortCircuit reason deny => markShortCircuited ctx reason deny
  | _ => ctx

def execute (hooks : List (LifecycleHook σ)) (ctx : HookContext) (s : σ) : PipelineResult × σ :=
  match executePoints hooks hookSequence ctx [] s with
  | ((ctx, none, executed), s) =>
    ({ context := ctx, success := true, hooksExecuted := executed }, s)
  | ((ctx, some e, executed), s) =>
    let ctx := failedContext ctx e
    ({ context := ctx, success := false, error := some e, hooksExecuted := executed },
      fireErrorHooks ctx e hooks s)

/-- The hook methods called at a point, as stages of a chain. -/
def stagesAt (hooks : List (LifecycleHook σ)) (point : HookPoint) :
    List (Stage HookContext σ Exc) := hooks.map (·.method point)

/-- Every hook returns at every one of the points. -/
inductive AllReturn (hooks : List (LifecycleHook σ)) :
    List HookPoint → HookContext → σ → HookContext → σ → Prop
  | nil (ctx : HookContext) (s : σ) : AllReturn hooks [] ctx s ctx s
  | cons {p : HookPoint} {ps : List HookPoint} {c d e : HookContext} {s t u : σ} :
      Completes (stagesAt hooks p) c s d t → AllReturn hooks ps d t e u →
      AllReturn hooks (p :: ps) c s e u

/-- `FirstRaise hooks ps c s entered e`: the first hook to raise, in pipeline order over the
points `ps`, raises `e` at a point that was entered with the context `entered`. -/
inductive FirstRaise (hooks : List (LifecycleHook σ)) :
    List HookPoint → HookContext → σ → HookContext → Exc → Prop
  | here {p : HookPoint} {ps : List HookPoint} {c : HookContext} {s u : σ} {e : Exc} :
      Stops (stagesAt hooks p) c s e u → FirstRaise hooks (p :: ps) c s c e
  | later {p : HookPoint} {ps : List HookPoint} {c d entered : HookContext} {s t : σ} {e : Exc} :
      Completes (stagesAt hooks p) c s d t → FirstRaise hooks ps d t entered e →
      FirstRaise hooks (p :: ps) c s entered e

@[simp] theorem raised_denies (hook : LifecycleHook σ) (p : HookPoint) (e : Exc) :
    (raised hook p e).denies = e.denies := by
  cases e <;> rfl

@[simp] theorem failedContext_requestPayload (ctx : HookContext) (e : Exc) :
    (failedContext ctx e).requestPayload = ctx.requestPayload := by
  cases e <;> rfl

/-- A failure marks the context as denied exactly when the exception denies, and otherwise
leaves the decision that stood. -/
theorem failedContext_policyDecision (ctx : HookContext) (e : Exc) :
    (failedContext ctx e).policyDecision = .deny ↔
      e.denies = true ∨ ctx.policyDecision = .deny := by
  cases e with
  | shortCircuit reason deny => cases deny <;> simp [failedContext, markShortCircuited, Exc.denies]
  | _ => simp [failedContext, Exc.denies]

theorem failedContext_of_not_shortCircuit {e : Exc} (h : ¬ e.IsShortCircuit) (ctx : HookContext) :
    failedContext ctx e = ctx := by
  cases e with
  | shortCircuit reason deny => exact absurd trivial h
  | _ => rfl

theorem raised_isShortCircuit_iff (hook : LifecycleHook σ) (p : HookPoint) (e : Exc) :
    (raised hook p e).IsShortCircuit ↔ e.IsShortCircuit := by
  cases e <;> rfl

/-- What leaves a point is a short circuit as it is, or a `HookError` with the message. -/
theorem raised_cases (hook : LifecycleHook σ) (p : HookPoint) (e : Exc) :
    (∃ reason deny, e = .shortCircuit reason deny ∧ raised hook p e = .shortCircuit reason deny) ∨
      raised hook p e = .hook e.message hook.name p.value := by
  cases e with
  | shortCircuit reason deny => exact .inl ⟨reason, deny, rfl, rfl⟩
  | _ => exact .inr rfl

theorem executeHookPoint_split (p : HookPoint) (hs hs' : List (LifecycleHook σ)) (c : HookContext)
    (ex : List String) (s : σ) :
    executeHookPoint p (hs ++ hs') c ex s =
      match executeHookPoint p hs c ex s with
      | ((.ok d, ex), t) => executeHookPoint p hs' d ex t
      | ((.error e, ex), t) => ((.error e, ex), t) := by
  induction hs generalizing c ex s with
  | nil => rfl
  | cons hook hs ih =>
    rcases hstep : hook.method p c s with ⟨e | d, t⟩
    · simp only [List.cons_append, executeHookPoint, hstep]
    · simp only [List.cons_append, executeHookPoint, hstep]
      exact ih d _ t

theorem executePoints_split (hooks : List (LifecycleHook σ)) (ps qs : List HookPoint)
    (c : HookContext) (ex : List String) (s : σ) :
    executePoints hooks (ps ++ qs) c ex s =
      match executePoints hooks ps c ex s with
      | ((d, none, ex), t) => executePoints hooks qs d ex t
      | ((d, some e, ex), t) => ((d, some e, ex), t) := by
  induction ps generalizing c ex s with
  | nil => rfl
  | cons p ps ih =>
    rcases hstep : executeHookPoint p hooks c ex s with ⟨⟨e | d, ex'⟩, t⟩
    · simp only [List.cons_append, executePoints, hstep]
    · simp only [List.cons_append, executePoints, hstep]
      exact ih d ex' t

theorem executeHookPoint_of_completes {p : HookPoint} {hooks : List (LifecycleHook σ)}
    {c d : HookContext} {s t : σ} (h : Completes (stagesAt hooks p) c s d t) (ex : List String) :
    ∃ ex', executeHookPoint p hooks c ex s = ((.ok d, ex'), t) := by
  induction hooks generalizing c s ex with
  | nil =>
    obtain ⟨rfl, rfl⟩ := completes_nil.mp h
    exact ⟨ex, rfl⟩
  | cons hook hooks ih =>
    obtain ⟨b, u, hb, hrest⟩ := completes_cons.mp h
    obtain ⟨ex', h'⟩ := ih hrest (ex ++ [hook.name ++ "." ++ p.methodName])
    exact ⟨ex', by simpa only [executeHookPoint, hb] using h'⟩

theorem executeHookPoint_of_stops {p : HookPoint} {hooks : List (LifecycleHook σ)}
    {c : HookContext} {s t : σ} {e : Exc} (h : Stops (stagesAt hooks p) c s e t)
    (ex : List String) :
    ∃ hook ∈ hooks, ∃ ex', executeHookPoint p hooks c ex s =
      ((.error (raised hook p e), ex'), t) := by
  induction hooks generalizing c s ex with
  | nil => exact absurd h not_stops_nil
  | cons hook hooks ih =>
    cases h with
    | here hf =>
      refine ⟨hook, List.mem_cons_self, ex ++ [hook.name ++ "." ++ p.methodName], ?_⟩
      simp only [executeHookPoint, hf]
    | later hf hrest =>
      obtain ⟨k, hk, ex', h'⟩ := ih hrest (ex ++ [hook.name ++ "." ++ p.methodName])
      exact ⟨k, List.mem_cons_of_mem _ hk, ex', by simpa only [executeHookPoint, hf] using h'⟩

theorem executePoints_of_allReturn {hooks : List (LifecycleHook σ)} {ps : List HookPoint}
    {c d : HookContext} {s t : σ} (h : AllReturn hooks ps c s d t) (ex : List String) :
    ∃ ex', executePoints hooks ps c ex s = ((d, none, ex'), t) := by
  induction h generalizing ex with
  | nil c s => exact ⟨ex, rfl⟩
  | cons hp _ ih =>
    obtain ⟨ex₁, h₁⟩ := executeHookPoint_of_completes hp ex
    obtain ⟨ex₂, h₂⟩ := ih ex₁
    exact ⟨ex₂, by simpa only [executePoints, h₁] using h₂⟩

theorem executePoints_of_firstRaise {hooks : List (LifecycleHook σ)} {ps : List HookPoint}
    {c entered : HookContext} {s : σ} {e : Exc} (h : FirstRaise hooks ps c s entered e)
    (ex : List String) :
    ∃ hook ∈ hooks, ∃ p ex' t,
      executePoints hooks ps c ex s = ((entered, some (raised hook p e), ex'), t) := by
  induction h generalizing ex with
  | @here p _ _ _ u _ hp =>
    obtain ⟨hook, hm, ex', h'⟩ := executeHookPoint_of_stops hp ex
    refine ⟨hook, hm, p, ex', u, ?_⟩
    simp only [executePoints, h']
  | later hp _ ih =>
    obtain ⟨ex₁, h₁⟩ := executeHookPoint_of_completes hp ex
    obtain ⟨hook, hm, p, ex₂, t, h₂⟩ := ih ex₁
    exact ⟨hook, hm, p, ex₂, t, by simpa only [executePoints, h₁] using h₂⟩

theorem allReturn_or_firstRaise (hooks : List (LifecycleHook σ)) (ps : List HookPoint)
    (c : HookContext) (s : σ) :
    (∃ d t, AllReturn hooks ps c s d t) ∨ ∃ entered e, FirstRaise hooks ps c s entered e := by
  induction ps generalizing c s with
  | nil => exact .inl ⟨c, s, .nil c s⟩
  | cons p ps ih =>
    rcases completes_or_stops (stagesAt hooks p) c s with ⟨d, t, hp⟩ | ⟨e, u, hp⟩
    · rcases ih d t with ⟨d', t', h⟩ | ⟨entered, e, h⟩
      · exact .inl ⟨d', t', .cons hp h⟩
      · exact .inr ⟨entered, e, .later hp h⟩
    · exact .inr ⟨c, e, .here hp⟩

@[simp] theorem allReturn_nil {hooks : List (LifecycleHook σ)} {c d : HookContext} {s t : σ} :
    AllReturn hooks [] c s d t ↔ d = c ∧ t = s := by
  constructor
  · intro h
    cases h
    exact ⟨rfl, rfl⟩
  · intro h
    obtain ⟨rfl, rfl⟩ := h
    exact .nil _ _

theorem allReturn_cons {hooks : List (LifecycleHook σ)} {p : HookPoint} {ps : List HookPoint}
    {c e : HookContext} {s u : σ} :
    AllReturn hooks (p :: ps) c s e u ↔
      ∃ d t, Completes (stagesAt hooks p) c s d t ∧ AllReturn hooks ps d t e u := by
  constructor
  · intro h
    cases h with
    | cons hp hps => exact ⟨_, _, hp, hps⟩
  · intro h
    obtain ⟨d, t, hp, hps⟩ := h
    exact .cons hp hps

/-- What every hook preserves, a completed run preserves. -/
theorem AllReturn.invariant {P : HookContext → Prop} {hooks : List (LifecycleHook σ)}
    {ps : List HookPoint} {c d : HookContext} {s t : σ} (h : AllReturn hooks ps c s d t)
    (hhook : ∀ hook ∈ hooks, ∀ p a s b t, P a → hook.method p a s = (.ok b, t) → P b)
    (hc : P c) : P d := by
  induction h with
  | nil => exact hc
  | @cons p _ _ _ _ _ _ _ hp _ ih =>
    refine ih (hp.invariant ?_ hc)
    intro f hf a s b t ha hab
    obtain ⟨hook, hmem, rfl⟩ := List.mem_map.mp hf
    exact hhook hook hmem p a s b t ha hab

theorem AllReturn.not_firstRaise {hooks : List (LifecycleHook σ)} {ps : List HookPoint}
    {c d entered : HookContext} {s t : σ} {e : Exc} (h : AllReturn hooks ps c s d t) :
    ¬ FirstRaise hooks ps c s entered e := by
  intro hraise
  induction h with
  | nil => cases hraise
  | cons hp _ ih =>
    cases hraise with
    | here hstop => exact hp.not_stops hstop
    | later hp' hps' =>
      obtain ⟨rfl, rfl⟩ := hp.functional hp'
      exact ih hps'

theorem FirstRaise.functional {hooks : List (LifecycleHook σ)} {ps : List HookPoint}
    {c entered entered' : HookContext} {s : σ} {e e' : Exc}
    (h : FirstRaise hooks ps c s entered e) (h' : FirstRaise hooks ps c s entered' e') :
    entered = entered' ∧ e = e' := by
  induction h with
  | here hstop =>
    cases h' with
    | here hstop' => exact ⟨rfl, (hstop.functional hstop').1⟩
    | later hp _ => exact absurd hstop hp.not_stops
  | later hp _ ih =>
    cases h' with
    | here hstop => exact absurd hstop hp.not_stops
    | later hp' hps' =>
      obtain ⟨rfl, rfl⟩ := hp.functional hp'
      exact ih hps'

/-- A run in which every hook returns succeeds with the context the last hook returned. -/
theorem execute_of_allReturn {hooks : List (LifecycleHook σ)} {c d : HookContext} {s t : σ}
    (h : AllReturn hooks hookSequence c s d t) :
    ∃ ex, execute hooks c s = ({ context := d, success := true, hooksExecuted := ex }, t) := by
  obtain ⟨ex, h'⟩ := executePoints_of_allReturn h []
  exact ⟨ex, by simp only [execute, h']⟩

/-- A run in which a hook raises fails with the context its hook point was entered with,
marked by the exception that left the point. -/
theorem execute_of_firstRaise {hooks : List (LifecycleHook σ)} {c entered : HookContext} {s : σ}
    {e : Exc} (h : FirstRaise hooks hookSequence c s entered e) :
    ∃ hook ∈ hooks, ∃ p ex t, execute hooks c s =
      ({ context := failedContext entered (raised hook p e), success := false,
         error := some (raised hook p e), hooksExecuted := ex }, t) := by
  obtain ⟨hook, hm, p, ex, t, h'⟩ := executePoints_of_firstRaise h []
  refine ⟨hook, hm, p, ex,
    fireErrorHooks (failedContext entered (raised hook p e)) (raised hook p e) hooks t, ?_⟩
  simp only [execute, h']

theorem execute_success_iff (hooks : List (LifecycleHook σ)) (c : HookContext) (s : σ) :
    (execute hooks c s).1.success = true ↔ ∃ d t, AllReturn hooks hookSequence c s d t := by
  rcases allReturn_or_firstRaise hooks hookSequence c s with ⟨d, t, h⟩ | ⟨entered, e, h⟩
  · obtain ⟨ex, h'⟩ := execute_of_allReturn h
    simp only [h', true_iff]
    exact ⟨d, t, h⟩
  · obtain ⟨_, _, _, _, _, h'⟩ := execute_of_firstRaise h
    simp only [h', Bool.false_eq_true, false_iff]
    rintro ⟨d, t, h''⟩
    obtain ⟨_, h''⟩ := execute_of_allReturn h''
    rw [h'] at h''
    cases h''

theorem execute_success_iff_error (hooks : List (LifecycleHook σ)) (c : HookContext) (s : σ) :
    (execute hooks c s).1.success = true ↔ (execute hooks c s).1.error = none := by
  unfold execute
  rcases executePoints hooks hookSequence c [] s with ⟨⟨d, err, ex⟩, t⟩
  cases err with
  | none => simp
  | some e => simp

/-- The context and the state of a successful run are those the hooks return. -/
theorem execute_success_eq {hooks : List (LifecycleHook σ)} {c : HookContext} {s : σ}
    (h : (execute hooks c s).1.success = true) :
    AllReturn hooks hookSequence c s (execute hooks c s).1.context (execute hooks c s).2 := by
  obtain ⟨d, t, hr⟩ := (execute_success_iff hooks c s).mp h
  obtain ⟨ex, h'⟩ := execute_of_allReturn hr
  rw [h']
  exact hr

end McpZero.Pipeline

import McpZero.Identity.Hook
import McpZero.Pipeline.Extension

/-! What a failing run leaves: the context in its result and the contexts that the error hooks
are given, against the context that the last completed hook returned. -/
namespace McpZero.Pipeline
open Lib

variable {σ : Type}

/-- `RaisesAt hooks ps c s entered last e`: a hook raises, and `e` leaves its point. The point
was entered with the context `entered`, and `last` is what the hook before it returned. -/
inductive RaisesAt (hooks : List (LifecycleHook σ)) :
    List HookPoint → HookContext → σ → HookContext → HookContext → Exc → Prop
  | here {p : HookPoint} {ps : List HookPoint} {c last : HookContext} {s t u : σ} {e : Exc}
      {before after : List (LifecycleHook σ)} {hook : LifecycleHook σ} :
      hooks = before ++ hook :: after → Completes (stagesAt before p) c s last t →
      hook.method p last t = (.error e, u) →
      RaisesAt hooks (p :: ps) c s c last (raised hook p e)
  | later {p : HookPoint} {ps : List HookPoint} {c d entered last : HookContext} {s t : σ}
      {e : Exc} :
      Completes (stagesAt hooks p) c s d t → RaisesAt hooks ps d t entered last e →
      RaisesAt hooks (p :: ps) c s entered last e

/-- The context `d` is `c` changed only in what a failure with `e` marks: the short circuit,
its reason and, for a denial, the decision. -/
@[mk_iff changedOnlyBy_iff]
structure ChangedOnlyBy (e : Exc) (c d : HookContext) : Prop where
  eq_evolve : d = { c with
    shortCircuited := d.shortCircuited
    shortCircuitReason := d.shortCircuitReason
    policyDecision := d.policyDecision }
  policyDecision : e.denies = false → d.policyDecision = c.policyDecision

/-- The hook, with a list of the contexts that its `on_error` is given. -/
def LifecycleHook.recording (hook : LifecycleHook σ) : LifecycleHook (List HookContext × σ) :=
  { hook.beside with
    onError := fun ctx e s => ((hook.onError ctx e s.2).1, s.1 ++ [ctx], (hook.onError ctx e s.2).2) }

/-- The contexts that the error hooks of a run are given. -/
def errorContexts (hooks : List (LifecycleHook σ)) (c : HookContext) (s : σ) : List HookContext :=
  (execute (hooks.map LifecycleHook.recording) c ([], s)).2.1

/-- A failing run loses nothing of the context that the last completed hook returned. -/
def KeepsContext (hooks : List (LifecycleHook σ)) (c : HookContext) (s : σ) : Prop :=
  ∀ entered last e, RaisesAt hooks hookSequence c s entered last e →
    ChangedOnlyBy e last (execute hooks c s).1.context ∧
      ∀ d ∈ errorContexts hooks c s, ChangedOnlyBy e last d

variable {hooks : List (LifecycleHook σ)} {c entered last : HookContext} {s : σ} {e : Exc}

theorem executeHookPoint_append {before : List (LifecycleHook σ)} {p : HookPoint} {d : HookContext}
    {t : σ} (h : Completes (stagesAt before p) c s d t) (after : List (LifecycleHook σ))
    (ex : List String) :
    ∃ ex', executeHookPoint p (before ++ after) c ex s = executeHookPoint p after d ex' t := by
  obtain ⟨ex', h'⟩ := executeHookPoint_of_completes h ex
  exact ⟨ex', by rw [executeHookPoint_split, h']⟩

/-- The loop over the points ends with the context that the failing point was entered with. -/
theorem executePoints_of_raisesAt {ps : List HookPoint} (h : RaisesAt hooks ps c s entered last e)
    (ex : List String) :
    ∃ ex' t, executePoints hooks ps c ex s = ((entered, some e, ex'), t) := by
  induction h generalizing ex with
  | @here p ps c last s t u e before after hook hsplit hbefore hraise =>
    obtain ⟨ex', h'⟩ := executeHookPoint_append hbefore (hook :: after) ex
    refine ⟨ex' ++ [hook.name ++ "." ++ p.methodName], u, ?_⟩
    simp only [executePoints, hsplit, h', executeHookPoint, hraise]
  | later hp _ ih =>
    obtain ⟨ex₁, h₁⟩ := executeHookPoint_of_completes hp ex
    obtain ⟨ex₂, t, h₂⟩ := ih ex₁
    exact ⟨ex₂, t, by simpa only [executePoints, h₁] using h₂⟩

theorem execute_of_raisesAt (h : RaisesAt hooks hookSequence c s entered last e) :
    ∃ ex t, execute hooks c s =
      ({ context := failedContext entered e, success := false, error := some e,
         hooksExecuted := ex }, fireErrorHooks (failedContext entered e) e hooks t) := by
  obtain ⟨ex, t, h'⟩ := executePoints_of_raisesAt h []
  exact ⟨ex, t, by simp only [execute, h']⟩

theorem exists_raise_of_stops {p : HookPoint} {u : σ} (h : Stops (stagesAt hooks p) c s e u) :
    ∃ before hook after last t, hooks = before ++ hook :: after ∧
      Completes (stagesAt before p) c s last t ∧ hook.method p last t = (.error e, u) := by
  induction hooks generalizing c s with
  | nil => exact absurd h not_stops_nil
  | cons hook hooks ih =>
    cases h with
    | here hf => exact ⟨[], hook, hooks, c, s, rfl, .nil c s, hf⟩
    | later hf hrest =>
      obtain ⟨before, k, after, last, t, rfl, hbefore, hraise⟩ := ih hrest
      exact ⟨hook :: before, k, after, last, t, rfl, .cons hf hbefore, hraise⟩

theorem FirstRaise.exists_raisesAt {ps : List HookPoint} (h : FirstRaise hooks ps c s entered e) :
    ∃ last e', RaisesAt hooks ps c s entered last e' := by
  induction h with
  | here hstop =>
    obtain ⟨before, hook, after, last, t, hsplit, hbefore, hraise⟩ := exists_raise_of_stops hstop
    exact ⟨last, _, .here hsplit hbefore hraise⟩
  | later hp _ ih =>
    obtain ⟨last, e', h⟩ := ih
    exact ⟨last, e', .later hp h⟩

/-- Every failing run fails at some hook. -/
theorem execute_failed_iff (hooks : List (LifecycleHook σ)) (c : HookContext) (s : σ) :
    (execute hooks c s).1.success = false ↔
      ∃ entered last e, RaisesAt hooks hookSequence c s entered last e := by
  constructor
  · intro hfailed
    rcases allReturn_or_firstRaise hooks hookSequence c s with ⟨d, t, h⟩ | ⟨entered, e, h⟩
    · rw [(execute_success_iff hooks c s).mpr ⟨d, t, h⟩] at hfailed
      cases hfailed
    · obtain ⟨last, e', hraise⟩ := h.exists_raisesAt
      exact ⟨entered, last, e', hraise⟩
  · rintro ⟨entered, last, e, h⟩
    obtain ⟨ex, t, hrun⟩ := execute_of_raisesAt h
    rw [hrun]

/-- Recording the error hooks changes nothing before a failure. -/
theorem executeHookPoint_recording (hooks : List (LifecycleHook σ)) (p : HookPoint)
    (c : HookContext) (ex : List String) (seen : List HookContext) (s : σ) :
    executeHookPoint p (hooks.map LifecycleHook.recording) c ex (seen, s) =
      ((executeHookPoint p hooks c ex s).1, (seen, (executeHookPoint p hooks c ex s).2)) := by
  induction hooks generalizing c ex s with
  | nil => rfl
  | cons hook hooks ih =>
    have hmethod : hook.recording.method p c (seen, s) =
        ((hook.method p c s).1, (seen, (hook.method p c s).2)) := by
      cases p <;> rfl
    simp only [List.map_cons, executeHookPoint, hmethod]
    rcases hook.method p c s with ⟨r, t⟩
    cases r with
    | error e => simp only [raised_congr (show hook.recording.name = hook.name from rfl)]; rfl
    | ok d => exact ih d _ t

theorem executePoints_recording (hooks : List (LifecycleHook σ)) (ps : List HookPoint)
    (c : HookContext) (ex : List String) (seen : List HookContext) (s : σ) :
    executePoints (hooks.map LifecycleHook.recording) ps c ex (seen, s) =
      ((executePoints hooks ps c ex s).1, (seen, (executePoints hooks ps c ex s).2)) := by
  induction ps generalizing c ex s with
  | nil => rfl
  | cons p ps ih =>
    simp only [executePoints, executeHookPoint_recording]
    rcases executeHookPoint p hooks c ex s with ⟨⟨r, ex'⟩, t⟩
    cases r with
    | error e => rfl
    | ok d => exact ih d ex' t

theorem fireErrorHooks_recording (ctx : HookContext) (seen : List HookContext) :
    (fireErrorHooks ctx e (hooks.map LifecycleHook.recording) (seen, s)).1 =
      seen ++ List.replicate hooks.length ctx := by
  induction hooks generalizing seen s with
  | nil => simp [fireErrorHooks]
  | cons hook hooks ih =>
    simp only [List.map_cons, fireErrorHooks, LifecycleHook.recording]
    rw [ih]
    simp [List.replicate_succ]

/-- Every error hook is given the context that the result has. -/
theorem errorContexts_of_raisesAt (h : RaisesAt hooks hookSequence c s entered last e) :
    errorContexts hooks c s = List.replicate hooks.length (failedContext entered e) := by
  obtain ⟨ex, t, h'⟩ := executePoints_of_raisesAt h []
  simp only [errorContexts, execute, executePoints_recording, h', fireErrorHooks_recording,
    List.nil_append]

/-- What a failure marks is what may differ. -/
theorem changedOnlyBy_failedContext_iff :
    ChangedOnlyBy e last (failedContext entered e) ↔ ChangedOnlyBy e last entered := by
  cases e with
  | shortCircuit reason deny =>
    constructor
    · rintro ⟨heq, hdecision⟩
      cases entered
      cases last
      cases deny <;> simp_all [changedOnlyBy_iff, failedContext, markShortCircuited, Exc.denies]
    · rintro ⟨heq, hdecision⟩
      cases entered
      cases last
      cases deny <;> simp_all [changedOnlyBy_iff, failedContext, markShortCircuited, Exc.denies]
  | _ => exact Iff.rfl

/-- A run keeps the context of its last completed hook exactly when the hooks that completed at
the failing point changed nothing that the failure does not mark. -/
theorem keepsContext_iff (hooks : List (LifecycleHook σ)) (c : HookContext) (s : σ) :
    KeepsContext hooks c s ↔
      ∀ entered last e, RaisesAt hooks hookSequence c s entered last e →
        ChangedOnlyBy e last entered := by
  constructor
  · intro h entered last e hraise
    obtain ⟨ex, t, hrun⟩ := execute_of_raisesAt hraise
    have hresult := (h entered last e hraise).1
    rw [hrun] at hresult
    exact changedOnlyBy_failedContext_iff.mp hresult
  · intro h entered last e hraise
    have hmarked := changedOnlyBy_failedContext_iff.mpr (h entered last e hraise)
    obtain ⟨ex, t, hrun⟩ := execute_of_raisesAt hraise
    refine ⟨by rw [hrun]; exact hmarked, fun d hd => ?_⟩
    rw [errorContexts_of_raisesAt hraise] at hd
    rw [List.eq_of_mem_replicate hd]
    exact hmarked

/-- A hook that identifies every bearer. -/
def identifyingHook : LifecycleHook Unit :=
  Identity.IdentityHook.toHook ⟨fun _ s => (.ok { userId := "ann" }, s)⟩

/-- A hook that refuses every call at the same point. -/
def refusingHook : LifecycleHook Unit where
  name := "QuotaHook"
  onPreValidation _ s := (.error (.shortCircuit (.str "Quota exhausted") true), s)

def bearerContext : HookContext where
  request := { correlationId := "c1" }
  extras := [(.str "authorization", .str "Bearer t1")]

/-- The error hooks and the result do not know the identified caller. -/
theorem identifiedThenRefused_not_keepsContext :
    ¬ KeepsContext [identifyingHook, refusingHook] bearerContext () := by
  intro h
  have hcompletes : Completes (stagesAt [identifyingHook] .preValidation) bearerContext ()
      (Identity.IdentityHook.enrich bearerContext "t1" { userId := "ann" }) () :=
    completes_cons.mpr ⟨_, (), rfl, .nil _ _⟩
  have hsplit : [identifyingHook, refusingHook] = [identifyingHook] ++ refusingHook :: [] := rfl
  have hraise : RaisesAt [identifyingHook, refusingHook] hookSequence bearerContext ()
      bearerContext (Identity.IdentityHook.enrich bearerContext "t1" { userId := "ann" })
      (.shortCircuit (.str "Quota exhausted") true) :=
    .here hsplit hcompletes rfl
  have hidentity := congrArg (·.request.identity) (h _ _ _ hraise).1.eq_evolve
  revert hidentity
  decide

end McpZero.Pipeline

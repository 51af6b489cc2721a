import McpZero.Pipeline.Extension
import McpZero.Pipeline.Registration

/-! The order in which a pipeline calls its hooks: at a run, the methods point by point, and at a
failure the error hooks. -/
namespace McpZero.Pipeline
open Lib

variable {σ : Type}

/-- The method calls of a run in which every hook returns. -/
def calls (hooks : List (LifecycleHook σ)) : List (HookPoint × LifecycleHook σ) :=
  hookSequence.flatMap fun p => hooks.map fun hook => (p, hook)

/-- The name that `hooks_executed` has for a call. -/
def callName (call : HookPoint × LifecycleHook σ) : String :=
  call.2.name ++ "." ++ call.1.methodName

def callStage (call : HookPoint × LifecycleHook σ) : Stage HookContext σ Exc :=
  call.2.method call.1

/-- `FailedAt hooks c s before call after`: the calls before this one return, and it raises. -/
def FailedAt (hooks : List (LifecycleHook σ)) (c : HookContext) (s : σ)
    (before : List (HookPoint × LifecycleHook σ)) (call : HookPoint × LifecycleHook σ)
    (after : List (HookPoint × LifecycleHook σ)) : Prop :=
  calls hooks = before ++ call :: after ∧
    ∃ d t e u, Completes (before.map callStage) c s d t ∧ callStage call d t = (.error e, u)

/-- The hook, with a list of the numbers of the hooks whose `on_error` is called. -/
def LifecycleHook.numbered (hook : LifecycleHook σ) (i : ℕ) : LifecycleHook (List ℕ × σ) :=
  { hook.beside with
    onError := fun ctx e s => ((hook.onError ctx e s.2).1, s.1 ++ [i], (hook.onError ctx e s.2).2) }

/-- The hooks, each with its place in the order of registration. -/
def numberedRegistrations (registrations : List (ℤ × LifecycleHook σ)) :
    List (ℤ × LifecycleHook (List ℕ × σ)) :=
  registrations.zipIdx.map fun x => (x.1.1, x.1.2.numbered x.2)

/-- The registrations whose error hooks a run calls, one number for each call. -/
def errorCalls (registrations : List (ℤ × LifecycleHook σ)) (c : HookContext) (s : σ) : List ℕ :=
  match builtFrom (numberedRegistrations registrations) with
  | .ok hooks => (execute hooks c ([], s)).2.1
  | .error _ => []

/-- Where a hook point ends: after all of its hooks, or at the first that raises. -/
theorem executeHookPoint_ends (p : HookPoint) (hooks : List (LifecycleHook σ)) (c : HookContext)
    (ex : List String) (s : σ) :
    (∃ d t, Completes (stagesAt hooks p) c s d t ∧ executeHookPoint p hooks c ex s =
        ((.ok d, ex ++ hooks.map fun hook => callName (p, hook)), t)) ∨
      ∃ before hook after d t e u, hooks = before ++ hook :: after ∧
        Completes (stagesAt before p) c s d t ∧ hook.method p d t = (.error e, u) ∧
        executeHookPoint p hooks c ex s = ((.error (raised hook p e),
          ex ++ (before ++ [hook]).map fun hook => callName (p, hook)), u) := by
  induction hooks generalizing c ex s with
  | nil => exact .inl ⟨c, s, .nil c s, by simp [executeHookPoint]⟩
  | cons hook hooks ih =>
    rcases hstep : hook.method p c s with ⟨e | d, t⟩
    · refine .inr ⟨[], hook, hooks, c, s, e, t, rfl, .nil c s, hstep, ?_⟩
      simp only [executeHookPoint, hstep, List.nil_append, List.map_cons, List.map_nil, callName]
    · have hname : ex ++ callName (p, hook) :: hooks.map (fun hook => callName (p, hook)) =
          (ex ++ [callName (p, hook)]) ++ hooks.map fun hook => callName (p, hook) := by simp
      rcases ih d (ex ++ [callName (p, hook)]) t with
        ⟨d', t', hrest, hrun⟩ | ⟨before, k, after, d', t', e, u, rfl, hbefore, hraise, hrun⟩
      · refine .inl ⟨d', t', .cons hstep hrest, ?_⟩
        rw [List.map_cons, hname]
        simp only [executeHookPoint, hstep]
        exact hrun
      · refine .inr ⟨hook :: before, k, after, d', t', e, u, rfl, .cons hstep hbefore, hraise, ?_⟩
        simp only [executeHookPoint, hstep]
        refine hrun.trans ?_
        simp

theorem map_callStage_at (hooks : List (LifecycleHook σ)) (p : HookPoint) :
    (hooks.map fun hook => (p, hook)).map callStage = stagesAt hooks p := by
  simp [stagesAt, callStage]

/-- Where the loop over the points ends, in terms of all its calls. -/
theorem executePoints_ends (hooks : List (LifecycleHook σ)) (ps : List HookPoint) (c : HookContext)
    (ex : List String) (s : σ) :
    (∃ d t, executePoints hooks ps c ex s = ((d, none,
        ex ++ (ps.flatMap fun p => hooks.map fun hook => (p, hook)).map callName), t)) ∨
      ∃ before call after d t e u entered,
        (ps.flatMap fun p => hooks.map fun hook => (p, hook)) = before ++ call :: after ∧
        Completes (before.map callStage) c s d t ∧ callStage call d t = (.error e, u) ∧
        executePoints hooks ps c ex s = ((entered, some (raised call.2 call.1 e),
          ex ++ (before ++ [call]).map callName), u) := by
  induction ps generalizing c ex s with
  | nil => exact .inl ⟨c, s, by simp [executePoints]⟩
  | cons p ps ih =>
    rcases executeHookPoint_ends p hooks c ex s with
      ⟨d, t, hpoint, hrun⟩ | ⟨before, hook, after, d, t, e, u, rfl, hbefore, hraise, hrun⟩
    · rcases ih d (ex ++ hooks.map fun hook => callName (p, hook)) t with
        ⟨d', t', hrest⟩ |
        ⟨before, call, after, d', t', e, u, entered, hsplit, hbefore, hraise, hrest⟩
      · refine .inl ⟨d', t', ?_⟩
        simp only [executePoints, hrun, hrest]
        simp [List.map_flatMap, Function.comp_def]
      · refine .inr ⟨(hooks.map fun hook => (p, hook)) ++ before, call, after, d', t', e, u,
          entered, by simp [hsplit], ?_, hraise, ?_⟩
        · rw [List.map_append, map_callStage_at]
          exact completes_append.mpr ⟨d, t, hpoint, hbefore⟩
        · simp only [executePoints, hrun, hrest]
          simp [Function.comp_def]
    · refine .inr ⟨before.map (fun hook => (p, hook)), (p, hook),
        (after.map fun hook => (p, hook)) ++ ps.flatMap fun p =>
          (before ++ hook :: after).map fun hook => (p, hook),
        d, t, e, u, c, by simp, ?_, hraise, ?_⟩
      · rw [map_callStage_at]
        exact hbefore
      · simp only [executePoints, hrun]
        simp [Function.comp_def]

/-- The names of a run: all calls of a success, and the calls up to the one that raised. -/
theorem execute_ends (hooks : List (LifecycleHook σ)) (c : HookContext) (s : σ) :
    ((execute hooks c s).1.success = true ∧
        (execute hooks c s).1.hooksExecuted = (calls hooks).map callName) ∨
      ((execute hooks c s).1.success = false ∧ ∃ before call after,
        FailedAt hooks c s before call after ∧
        (execute hooks c s).1.hooksExecuted = (before ++ [call]).map callName) := by
  rcases executePoints_ends hooks hookSequence c [] s with
    ⟨d, t, hrun⟩ | ⟨before, call, after, d, t, e, u, entered, hsplit, hbefore, hraise, hrun⟩
  · refine .inl ?_
    simp only [execute, hrun, List.nil_append, calls, and_self]
  · refine .inr ?_
    simp only [execute, hrun, List.nil_append]
    exact ⟨trivial, before, call, after, ⟨hsplit, d, t, e, u, hbefore, hraise⟩, rfl⟩

/-- Numbering a hook changes neither what its methods do nor its name. -/
theorem executeHookPoint_numbered (p : HookPoint) (hooks : List (LifecycleHook σ × ℕ))
    (c : HookContext) (ex : List String) (seen : List ℕ) (s : σ) :
    executeHookPoint p (hooks.map fun h => h.1.numbered h.2) c ex (seen, s) =
      ((executeHookPoint p (hooks.map (·.1)) c ex s).1,
        (seen, (executeHookPoint p (hooks.map (·.1)) c ex s).2)) := by
  induction hooks generalizing c ex s with
  | nil => rfl
  | cons hook hooks ih =>
    have hmethod : (hook.1.numbered hook.2).method p c (seen, s) =
        ((hook.1.method p c s).1, (seen, (hook.1.method p c s).2)) := by
      cases p <;> rfl
    have hname : (hook.1.numbered hook.2).name = hook.1.name := rfl
    simp only [List.map_cons, executeHookPoint, hmethod, hname]
    rcases hook.1.method p c s with ⟨e | d, t⟩
    · simp only [raised_congr hname]
    · exact ih d _ t

theorem executePoints_numbered (hooks : List (LifecycleHook σ × ℕ)) (ps : List HookPoint)
    (c : HookContext) (ex : List String) (seen : List ℕ) (s : σ) :
    executePoints (hooks.map fun h => h.1.numbered h.2) ps c ex (seen, s) =
      ((executePoints (hooks.map (·.1)) ps c ex s).1,
        (seen, (executePoints (hooks.map (·.1)) ps c ex s).2)) := by
  induction ps generalizing c ex s with
  | nil => rfl
  | cons p ps ih =>
    rcases hpoint : executeHookPoint p (hooks.map (·.1)) c ex s with ⟨⟨e | d, ex'⟩, t⟩
    · simp only [executePoints, executeHookPoint_numbered, hpoint]
    · simp only [executePoints, executeHookPoint_numbered, hpoint]
      exact ih d ex' t

/-- Every error hook is called, in the order of the hooks, whatever the others raise. -/
theorem fireErrorHooks_numbered (ctx : HookContext) (e : Exc) (hooks : List (LifecycleHook σ × ℕ))
    (seen : List ℕ) (s : σ) :
    fireErrorHooks ctx e (hooks.map fun h => h.1.numbered h.2) (seen, s) =
      (seen ++ hooks.map (·.2), fireErrorHooks ctx e (hooks.map (·.1)) s) := by
  induction hooks generalizing seen s with
  | nil => simp [fireErrorHooks]
  | cons hook hooks ih =>
    have hcall : (hook.1.numbered hook.2).onError ctx e (seen, s) =
        ((hook.1.onError ctx e s).1, seen ++ [hook.2], (hook.1.onError ctx e s).2) := rfl
    simp only [List.map_cons, fireErrorHooks, hcall]
    rw [ih]
    simp

theorem execute_numbered (hooks : List (LifecycleHook σ × ℕ)) (c : HookContext) (s : σ) :
    execute (hooks.map fun h => h.1.numbered h.2) c ([], s) =
      ((execute (hooks.map (·.1)) c s).1,
        (if (execute (hooks.map (·.1)) c s).1.success then [] else hooks.map (·.2),
          (execute (hooks.map (·.1)) c s).2)) := by
  rcases hpoints : executePoints (hooks.map (·.1)) hookSequence c [] s with ⟨⟨d, _ | e, ex⟩, t⟩
  · simp only [execute, executePoints_numbered, hpoints, if_true]
  · simp only [execute, executePoints_numbered, hpoints, fireErrorHooks_numbered, List.nil_append,
      Bool.false_eq_true, if_false]

theorem builtFrom_filled (registrations : List (ℤ × LifecycleHook σ)) :
    builtFrom registrations = .ok ((filled registrations).build.entries.map (·.2.2)) := by
  have hempty : ({} : HookRegistry σ) = filled [] := rfl
  unfold builtFrom
  rw [hempty, foldlM_register_filled]
  rfl

theorem entries_numbered (registrations : List (ℤ × LifecycleHook σ)) :
    (filled (numberedRegistrations registrations)).entries =
      (filled registrations).entries.map fun e => (e.1, e.2.1, e.2.2.numbered e.2.1) := by
  apply List.ext_getElem?
  intro i
  cases h : registrations[i]? <;> simp [filled, numberedRegistrations, h]

/-- The registry of the numbered hooks is the registry of the hooks, with the numbers. -/
theorem builtFrom_numbered (registrations : List (ℤ × LifecycleHook σ)) :
    builtFrom (numberedRegistrations registrations) =
      .ok ((filled registrations).build.entries.map fun e => e.2.2.numbered e.2.1) := by
  let number : ℤ × ℕ × LifecycleHook σ → ℤ × ℕ × LifecycleHook (List ℕ × σ) := fun e =>
    (e.1, e.2.1, e.2.2.numbered e.2.1)
  have hle : ∀ a ∈ (filled registrations).entries, ∀ b ∈ (filled registrations).entries,
      HookRegistry.entryLE a b = HookRegistry.entryLE (number a) (number b) :=
    fun _ _ _ _ => rfl
  have hsort : (filled (numberedRegistrations registrations)).build.entries =
      (filled registrations).build.entries.map number := by
    simp only [HookRegistry.build, entries_numbered]
    exact (List.map_mergeSort hle).symm
  rw [builtFrom_filled, hsort, List.map_map]
  rfl

/-- The error hooks that a run calls: on a failure all of them, once each. -/
theorem errorCalls_eq (registrations : List (ℤ × LifecycleHook σ)) (c : HookContext) (s : σ) :
    errorCalls registrations c s =
      if (execute ((filled registrations).build.entries.map (·.2.2)) c s).1.success then []
      else (filled registrations).build.entries.map (·.2.1) := by
  have hrun := execute_numbered
    ((filled registrations).build.entries.map fun e => (e.2.2, e.2.1)) c s
  simp only [List.map_map, Function.comp_def] at hrun
  simp only [errorCalls, builtFrom_numbered, hrun]

/-- A run calls the hooks in the order of the points, at each point in the order of their
priorities and then of their registration. It stops after the call that raises, and then every
error hook is called in the same order. -/
theorem execute_callOrder (registrations : List (ℤ × LifecycleHook σ)) :
    ∃ entries : List (ℤ × ℕ × LifecycleHook σ),
      (entries.Pairwise fun a b => a.1 < b.1 ∨ (a.1 = b.1 ∧ a.2.1 < b.2.1)) ∧
      (∀ e, e ∈ entries ↔ registrations[e.2.1]? = some (e.1, e.2.2)) ∧
      builtFrom registrations = .ok (entries.map (·.2.2)) ∧
      ∀ (c : HookContext) (s : σ),
        (execute (entries.map (·.2.2)) c s).1.hooksExecuted <+:
            (calls (entries.map (·.2.2))).map callName ∧
          ((execute (entries.map (·.2.2)) c s).1.success = true →
            (execute (entries.map (·.2.2)) c s).1.hooksExecuted =
                (calls (entries.map (·.2.2))).map callName ∧
              errorCalls registrations c s = []) ∧
          ((execute (entries.map (·.2.2)) c s).1.success = false →
            errorCalls registrations c s = entries.map (·.2.1) ∧
              ∃ before call after, FailedAt (entries.map (·.2.2)) c s before call after ∧
                (execute (entries.map (·.2.2)) c s).1.hooksExecuted =
                  (before ++ [call]).map callName ∧
                ((execute (entries.map (·.2.2)) c s).1.hooksExecuted =
                  (calls (entries.map (·.2.2))).map callName ↔ after = [])) := by
  refine ⟨(filled registrations).build.entries, entries_filled_ordered registrations,
    fun _ => mem_entries_filled, builtFrom_filled registrations, fun c s => ?_⟩
  rw [errorCalls_eq]
  rcases execute_ends ((filled registrations).build.entries.map (·.2.2)) c s with
    ⟨hsuccess, hnames⟩ | ⟨hsuccess, before, call, after, hfailed, hnames⟩
  · rw [hsuccess, hnames]
    exact ⟨List.prefix_refl _, fun _ => ⟨rfl, rfl⟩, fun h => absurd h.symm Bool.false_ne_true⟩
  · have hcalls : (calls ((filled registrations).build.entries.map (·.2.2))).map callName =
        (before ++ [call]).map callName ++ after.map callName := by
      rw [hfailed.1, ← List.map_append, List.append_assoc]
      rfl
    rw [hsuccess, hnames, hcalls]
    refine ⟨List.prefix_append _ _, fun h => absurd h Bool.false_ne_true,
      fun _ => ⟨rfl, before, call, after, hfailed, rfl, ?_⟩⟩
    rw [List.self_eq_append_right, List.map_eq_nil_iff]

/-- A hook that refuses what is to be audited. -/
def auditRefusingHook : LifecycleHook Unit where
  name := "StorageHook"
  onPreAudit _ s := (.error (.other "OSError" "No space left on device"), s)

/-- The last hook of the last point fails: the run fails, and still every name is there. -/
theorem auditRefusing_hooksExecuted :
    ∃ hooks, builtFrom [(150, auditRefusingHook)] = .ok hooks ∧
      (execute hooks { request := { correlationId := "c1" } } ()).1.success = false ∧
      (execute hooks { request := { correlationId := "c1" } } ()).1.hooksExecuted =
        (calls hooks).map callName :=
  ⟨[auditRefusingHook], by rw [builtFrom_eq]; simp, rfl, rfl⟩

end McpZero.Pipeline

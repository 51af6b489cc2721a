import McpZero.Pipeline.Observer

/-! A pipeline with watchers among its hooks, in a world that the watchers keep a part of. The
other hooks act as they do without them. -/
namespace McpZero.Pipeline
open Lib

variable {σ σ' : Type}

/-- The hook `h'` does in its world what `h` does in a world that `R` relates to it. -/
structure Follows (R : σ' → σ → Prop) (h' : LifecycleHook σ') (h : LifecycleHook σ) : Prop where
  name : h'.name = h.name
  result (p : HookPoint) (ctx : HookContext) (s' : σ') (s : σ) : R s' s →
    (h'.method p ctx s').1 = (h.method p ctx s).1
  world (p : HookPoint) (ctx : HookContext) (s' : σ') (s : σ) : R s' s →
    R (h'.method p ctx s').2 (h.method p ctx s).2
  onError (ctx : HookContext) (e : Exc) (s' : σ') (s : σ) : R s' s →
    R (h'.onError ctx e s').2 (h.onError ctx e s).2

/-- The hook `h'` only touches its own part of the world. It returns the contexts that it is
given as they are, before the audit only those in `I`. -/
structure Watches (I : HookContext → Prop) (R : σ' → σ → Prop) (h' : LifecycleHook σ') :
    Prop where
  result (p : HookPoint) (ctx : HookContext) (s' : σ') : (p = .preAudit → I ctx) →
    (h'.method p ctx s').1 = .ok ctx
  world (p : HookPoint) (ctx : HookContext) (s' : σ') (s : σ) : R s' s →
    R (h'.method p ctx s').2 s
  onError (ctx : HookContext) (e : Exc) (s' : σ') (s : σ) : R s' s →
    R (h'.onError ctx e s').2 s

/-- The first list is the second with watchers in between. -/
inductive Extends (I : HookContext → Prop) (R : σ' → σ → Prop) :
    List (LifecycleHook σ') → List (LifecycleHook σ) → Prop
  | nil : Extends I R [] []
  | hook {h' : LifecycleHook σ'} {h : LifecycleHook σ} {hs' : List (LifecycleHook σ')}
      {hs : List (LifecycleHook σ)} :
      Follows R h' h → Extends I R hs' hs → Extends I R (h' :: hs') (h :: hs)
  | watcher {h' : LifecycleHook σ'} {hs' : List (LifecycleHook σ')}
      {hs : List (LifecycleHook σ)} :
      Watches I R h' → Extends I R hs' hs → Extends I R (h' :: hs') hs

/-- At the last point, which is entered with `d`, the context goes from one hook to the next. -/
def Handed (hooks : List (LifecycleHook σ)) (d : HookContext) (t : σ) (ctx : HookContext) : Prop :=
  ∃ first last u, hooks = first ++ last ∧ Completes (stagesAt first .preAudit) d t ctx u

/-- In a run of the pipeline the context goes from one hook to the next before the audit. -/
def HandedIn (hooks : List (LifecycleHook σ)) (c : HookContext) (s : σ) (ctx : HookContext) : Prop :=
  ∃ d t, AllReturn hooks pointsBeforeAudit c s d t ∧ Handed hooks d t ctx

theorem handed_self (hooks : List (LifecycleHook σ)) (d : HookContext) (t : σ) :
    Handed hooks d t d :=
  ⟨[], hooks, t, rfl, .nil d t⟩

theorem Handed.cons {hook : LifecycleHook σ} {hooks : List (LifecycleHook σ)} {c d ctx : HookContext}
    {s t : σ} (hstep : hook.method .preAudit c s = (.ok d, t)) (h : Handed hooks d t ctx) :
    Handed (hook :: hooks) c s ctx := by
  obtain ⟨first, last, u, rfl, hfirst⟩ := h
  exact ⟨hook :: first, last, u, rfl, .cons hstep hfirst⟩

variable {I : HookContext → Prop} {R : σ' → σ → Prop} {hs' : List (LifecycleHook σ')}
  {hs : List (LifecycleHook σ)}

/-- Watchers do not change how a hook point ends. -/
theorem executeHookPoint_extends (h : Extends I R hs' hs) {p : HookPoint} {c : HookContext}
    {s' : σ'} {s : σ} (hI : p = .preAudit → ∀ ctx, Handed hs c s ctx → I ctx) (hR : R s' s)
    (ex' ex : List String) :
    (executeHookPoint p hs' c ex' s').1.1 = (executeHookPoint p hs c ex s).1.1 ∧
      R (executeHookPoint p hs' c ex' s').2 (executeHookPoint p hs c ex s).2 := by
  induction h generalizing c s' s ex' ex with
  | nil => exact ⟨rfl, hR⟩
  | @hook h' h hs' hs hfollow _ ih =>
    have hresult := hfollow.result p c s' s hR
    have hworld := hfollow.world p c s' s hR
    rcases hstep : h.method p c s with ⟨r, t⟩
    rcases hstep' : h'.method p c s' with ⟨r', t'⟩
    simp only [hstep, hstep'] at hresult hworld
    subst hresult
    simp only [executeHookPoint, hstep, hstep']
    cases r' with
    | error e => exact ⟨by simp only [raised_congr hfollow.name], hworld⟩
    | ok d =>
      refine ih (fun hp ctx hctx => hI hp ctx ?_) hworld _ _
      subst hp
      exact hctx.cons hstep
  | @watcher h' hs' hs hwatch _ ih =>
    have hresult := hwatch.result p c s' fun hp => hI hp c (handed_self hs c s)
    have hworld := hwatch.world p c s' s hR
    rcases hstep' : h'.method p c s' with ⟨r', t'⟩
    simp only [hstep'] at hresult hworld
    subst hresult
    simp only [executeHookPoint, hstep']
    exact ih hI hworld _ _

/-- Watchers do not change how the hook points before the last one end. -/
theorem executePoints_extends (h : Extends I R hs' hs) {ps : List HookPoint}
    (hps : .preAudit ∉ ps) {c : HookContext} {s' : σ'} {s : σ} (hR : R s' s)
    (ex' ex : List String) :
    (executePoints hs' ps c ex' s').1.1 = (executePoints hs ps c ex s).1.1 ∧
      (executePoints hs' ps c ex' s').1.2.1 = (executePoints hs ps c ex s).1.2.1 ∧
        R (executePoints hs' ps c ex' s').2 (executePoints hs ps c ex s).2 := by
  induction ps generalizing c s' s ex' ex with
  | nil => exact ⟨rfl, rfl, hR⟩
  | cons p ps ih =>
    rw [List.mem_cons, not_or] at hps
    obtain ⟨hresult, hworld⟩ :=
      executeHookPoint_extends h (fun hp => absurd hp.symm hps.1) hR ex' ex (c := c)
    rcases hstep : executeHookPoint p hs c ex s with ⟨⟨r, x⟩, t⟩
    rcases hstep' : executeHookPoint p hs' c ex' s' with ⟨⟨r', x'⟩, t'⟩
    simp only [hstep, hstep'] at hresult hworld
    subst hresult
    simp only [executePoints, hstep, hstep']
    cases r' with
    | error e => exact ⟨rfl, rfl, hworld⟩
    | ok d => exact ih hps.2 hworld _ _

theorem fireErrorHooks_extends (h : Extends I R hs' hs) (ctx : HookContext) (e : Exc) {s' : σ'}
    {s : σ} (hR : R s' s) : R (fireErrorHooks ctx e hs' s') (fireErrorHooks ctx e hs s) := by
  induction h generalizing s' s with
  | nil => exact hR
  | hook hfollow _ ih => exact ih (hfollow.onError ctx e _ _ hR)
  | watcher hwatch _ ih => exact ih (hwatch.onError ctx e _ _ hR)

/-- Hook points without an exception are hook points at which every hook returns. -/
theorem allReturn_of_executePoints {ps : List HookPoint} {c d : HookContext} {s t : σ}
    {ex ex' : List String} (h : executePoints hs ps c ex s = ((d, none, ex'), t)) :
    AllReturn hs ps c s d t := by
  rcases allReturn_or_firstRaise hs ps c s with ⟨d', t', hall⟩ | ⟨entered, e, hraise⟩
  · obtain ⟨x, hrun⟩ := executePoints_of_allReturn hall ex
    rw [h] at hrun
    cases hrun
    exact hall
  · obtain ⟨hook, -, p, x, u, hrun⟩ := executePoints_of_firstRaise hraise ex
    rw [h] at hrun
    cases hrun

/-- Watchers do not change the result of a run, but for the names of the hooks executed, if the
contexts that go from hook to hook before the audit are in `I`. -/
theorem execute_extends (h : Extends I R hs' hs) {c : HookContext} {s' : σ'} {s : σ}
    (hI : ∀ ctx, HandedIn hs c s ctx → I ctx) (hR : R s' s) :
    (execute hs' c s').1.context = (execute hs c s).1.context ∧
      (execute hs' c s').1.success = (execute hs c s).1.success ∧
        (execute hs' c s').1.error = (execute hs c s).1.error ∧
          R (execute hs' c s').2 (execute hs c s).2 := by
  have hsequence : hookSequence = pointsBeforeAudit ++ [.preAudit] := rfl
  have hbefore : HookPoint.preAudit ∉ pointsBeforeAudit := by decide
  obtain ⟨hcontext, herror, hworld⟩ := executePoints_extends h hbefore hR [] [] (c := c)
  unfold execute
  rw [hsequence, executePoints_split, executePoints_split]
  rcases hstep : executePoints hs pointsBeforeAudit c [] s with ⟨⟨d, err, x⟩, t⟩
  rcases hstep' : executePoints hs' pointsBeforeAudit c [] s' with ⟨⟨d', err', x'⟩, t'⟩
  simp only [hstep, hstep'] at hcontext herror hworld
  subst hcontext herror
  cases err' with
  | some e => exact ⟨rfl, rfl, rfl, fireErrorHooks_extends h _ _ hworld⟩
  | none =>
    have hall := allReturn_of_executePoints hstep
    have hhanded : HookPoint.preAudit = .preAudit → ∀ ctx, Handed hs d' t ctx → I ctx :=
      fun _ ctx hctx => hI ctx ⟨d', t, hall, hctx⟩
    obtain ⟨hresult, hworld'⟩ := executeHookPoint_extends h hhanded hworld x' x
    simp only [executePoints]
    rcases hlast : executeHookPoint .preAudit hs d' x t with ⟨⟨r, y⟩, u⟩
    rcases hlast' : executeHookPoint .preAudit hs' d' x' t' with ⟨⟨r', y'⟩, u'⟩
    simp only [hlast, hlast'] at hresult hworld'
    subst hresult
    cases r' with
    | error e => exact ⟨rfl, rfl, rfl, fireErrorHooks_extends h _ _ hworld'⟩
    | ok d => exact ⟨rfl, rfl, rfl, hworld'⟩

end McpZero.Pipeline

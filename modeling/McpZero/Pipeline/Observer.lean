import McpZero.Pipeline.Extension

/-! What a pipeline does to the part of the world that one of its hooks keeps for itself. The
hook notes something of the context before the audit, and of a failure. -/
namespace McpZero.Pipeline

variable {ω σ τ : Type}

/-- The points of `HOOK_SEQUENCE` before the last one. -/
def pointsBeforeAudit : List HookPoint :=
  [.preValidation, .postValidation, .preMasking, .postMasking]

/-- What the hook after the first ones is called with before the audit, when the run gets there. -/
def calledWith (first hooks : List (LifecycleHook ω)) (c : HookContext) (w : ω) :
    Option (HookContext × ω) :=
  match executePoints hooks pointsBeforeAudit c [] w with
  | ((d, none, _), w) =>
    match executeHookPoint .preAudit first d [] w with
    | ((.ok seen, _), w) => some (seen, w)
    | _ => none
  | _ => none

/-- The hook only acts before the audit and on errors, and only on its own part of the world. It
returns the contexts that it accepts as they are. -/
structure Observes (O : LifecycleHook (τ × σ)) (Accepts : HookContext → Prop)
    (note : HookContext → σ → τ → τ) (report : HookContext → Exc → σ → τ → τ) : Prop where
  idle (p : HookPoint) (ctx : HookContext) (w : τ × σ) : p ≠ .preAudit →
    O.method p ctx w = (.ok ctx, w)
  preAudit (ctx : HookContext) (w : τ × σ) : (O.onPreAudit ctx w).2 = (note ctx w.2 w.1, w.2)
  accepted (ctx : HookContext) (w : τ × σ) : Accepts ctx → (O.onPreAudit ctx w).1 = .ok ctx
  refused (ctx : HookContext) (w : τ × σ) : ¬ Accepts ctx → ∃ e, (O.onPreAudit ctx w).1 = .error e
  onError (ctx : HookContext) (e : Exc) (w : τ × σ) :
    (O.onError ctx e w).2 = (report ctx e w.2 w.1, w.2)

/-- The hooks with one among them that has a part of the world for itself. -/
def watched (first last : List (LifecycleHook σ)) (O : LifecycleHook (τ × σ)) :
    List (LifecycleHook (τ × σ)) :=
  first.map (·.beside) ++ O :: last.map (·.beside)

/-- What the hook has of the world after the hook points. -/
def noted (note : HookContext → σ → τ → τ) (own : τ) : Option (HookContext × (τ × σ)) → τ
  | some (seen, w) => note seen w.2 own
  | none => own

/-- The names collected so far have no part in how a point ends. -/
theorem executeHookPoint_names (p : HookPoint) (hooks : List (LifecycleHook ω)) (c : HookContext)
    (ex ex' : List String) (s : ω) :
    (executeHookPoint p hooks c ex s).1.1 = (executeHookPoint p hooks c ex' s).1.1 ∧
      (executeHookPoint p hooks c ex s).2 = (executeHookPoint p hooks c ex' s).2 := by
  induction hooks generalizing c ex ex' s with
  | nil => exact ⟨rfl, rfl⟩
  | cons hook hooks ih =>
    rcases hstep : hook.method p c s with ⟨e | d, t⟩
    · simp only [executeHookPoint, hstep, and_self]
    · simp only [executeHookPoint, hstep]
      exact ih d _ _ t

section
variable {α : Type} (part : ω → α) {hooks : List (LifecycleHook ω)}

/-- Hooks that leave a part of the world alone leave it alone at a whole point. -/
theorem executeHookPoint_keeps {p : HookPoint}
    (h : ∀ hook ∈ hooks, ∀ ctx w, part (hook.method p ctx w).2 = part w) (c : HookContext)
    (ex : List String) (w : ω) : part (executeHookPoint p hooks c ex w).2 = part w := by
  induction hooks generalizing c ex w with
  | nil => rfl
  | cons hook hooks ih =>
    rw [List.forall_mem_cons] at h
    have hhook := h.1 c w
    rcases hstep : hook.method p c w with ⟨e | d, t⟩
    · rw [hstep] at hhook
      simpa only [executeHookPoint, hstep] using hhook
    · rw [hstep] at hhook
      simp only [executeHookPoint, hstep]
      rw [ih h.2, hhook]

theorem executePoints_keeps {ps : List HookPoint}
    (h : ∀ p ∈ ps, ∀ hook ∈ hooks, ∀ ctx w, part (hook.method p ctx w).2 = part w)
    (c : HookContext) (ex : List String) (w : ω) :
    part (executePoints hooks ps c ex w).2 = part w := by
  induction ps generalizing c ex w with
  | nil => rfl
  | cons p ps ih =>
    rw [List.forall_mem_cons] at h
    have hpoint := executeHookPoint_keeps part h.1 c ex w
    rcases hstep : executeHookPoint p hooks c ex w with ⟨⟨e | d, ex'⟩, t⟩
    · rw [hstep] at hpoint
      simpa only [executePoints, hstep] using hpoint
    · rw [hstep] at hpoint
      simp only [executePoints, hstep]
      rw [ih h.2, hpoint]

end

theorem beside_keeps (hooks : List (LifecycleHook σ)) (p : HookPoint) :
    ∀ hook ∈ hooks.map (LifecycleHook.beside (τ := τ)), ∀ ctx w,
      (hook.method p ctx w).2.1 = w.1 := by
  intro hook hmem ctx w
  obtain ⟨k, -, rfl⟩ := List.mem_map.mp hmem
  rw [LifecycleHook.beside_method]
  rfl

section
variable {O : LifecycleHook (τ × σ)} {Accepts : HookContext → Prop}
  {note : HookContext → σ → τ → τ} {report : HookContext → Exc → σ → τ → τ}
  (hO : Observes O Accepts note report) (first last : List (LifecycleHook σ))
include hO

theorem watched_keeps {p : HookPoint} (hp : p ≠ .preAudit) :
    ∀ hook ∈ watched first last O, ∀ ctx w, (hook.method p ctx w).2.1 = w.1 := by
  intro hook hmem ctx w
  rcases List.mem_append.mp hmem with h | h
  · exact beside_keeps first p hook h ctx w
  · rcases List.mem_cons.mp h with rfl | h
    · rw [hO.idle p ctx w hp]
    · exact beside_keeps last p hook h ctx w

theorem watched_keeps_beforeAudit : ∀ p ∈ pointsBeforeAudit, ∀ hook ∈ watched first last O,
    ∀ ctx w, (hook.method p ctx w).2.1 = w.1 := by
  intro p hp
  refine watched_keeps hO first last ?_
  rintro rfl
  revert hp
  decide

/-- The hook's part of the world after the hook points: it has noted the context that it was
called with, if it was called. -/
theorem executePoints_watched (c : HookContext) (w : τ × σ) :
    (executePoints (watched first last O) hookSequence c [] w).2.1 =
        noted note w.1 (calledWith (first.map (·.beside)) (watched first last O) c w) ∧
      ((executePoints (watched first last O) hookSequence c [] w).1.2.1 = none →
        ∃ seen w', calledWith (first.map (·.beside)) (watched first last O) c w = some (seen, w') ∧
          Accepts seen) := by
  have hsequence : hookSequence = pointsBeforeAudit ++ [.preAudit] := rfl
  have hkeep := executePoints_keeps Prod.fst (watched_keeps_beforeAudit hO first last) c [] w
  rw [hsequence, executePoints_split]
  unfold calledWith
  rcases hpoints : executePoints (watched first last O) pointsBeforeAudit c [] w with
    ⟨⟨d, err, ex⟩, w'⟩
  rw [hpoints] at hkeep
  cases err with
  | some e => exact ⟨hkeep, fun h => by cases h⟩
  | none =>
    dsimp only at hkeep ⊢
    obtain ⟨hresult, hworld⟩ :=
      executeHookPoint_names .preAudit (first.map (LifecycleHook.beside (τ := τ))) d [] ex w'
    have hfirst := executeHookPoint_keeps Prod.fst (beside_keeps (τ := τ) first .preAudit) d ex w'
    simp only [executePoints, watched, executeHookPoint_split]
    rcases hstep : executeHookPoint .preAudit (first.map (LifecycleHook.beside (τ := τ))) d ex w'
      with ⟨⟨e | seen, ex'⟩, w''⟩
    all_goals
      rcases hstep' : executeHookPoint .preAudit (first.map (LifecycleHook.beside (τ := τ))) d [] w'
        with ⟨⟨r, ex''⟩, t⟩
      rw [hstep] at hresult hworld hfirst
      rw [hstep'] at hresult hworld
      dsimp only at hresult hworld hfirst
      subst hresult hworld
    · exact ⟨hfirst.trans hkeep, fun h => by cases h⟩
    · have hown : t.1 = w.1 := hfirst.trans hkeep
      have hnote : (O.method .preAudit seen t).2 = (note seen t.2 t.1, t.2) := hO.preAudit seen t
      by_cases haccept : Accepts seen
      · have hok : (O.method .preAudit seen t).1 = .ok seen := hO.accepted seen t haccept
        have hcall : O.method .preAudit seen t = (.ok seen, note seen t.2 t.1, t.2) :=
          Prod.ext hok hnote
        simp only [executeHookPoint, hcall, noted, hown]
        have hlast := executeHookPoint_keeps Prod.fst (beside_keeps (τ := τ) last .preAudit) seen
          (ex' ++ [O.name ++ "." ++ HookPoint.preAudit.methodName]) (note seen t.2 w.1, t.2)
        rcases hrest : executeHookPoint .preAudit (last.map (LifecycleHook.beside (τ := τ))) seen
          (ex' ++ [O.name ++ "." ++ HookPoint.preAudit.methodName]) (note seen t.2 w.1, t.2) with
          ⟨⟨e | d', ex₂⟩, w₂⟩
        all_goals rw [hrest] at hlast
        · exact ⟨hlast, fun h => by cases h⟩
        · exact ⟨hlast, fun _ => ⟨seen, t, rfl, haccept⟩⟩
      · obtain ⟨e, he⟩ := hO.refused seen t haccept
        have hcall : O.method .preAudit seen t = (.error e, note seen t.2 t.1, t.2) :=
          Prod.ext he hnote
        simp only [executeHookPoint, hcall, noted, hown]
        exact ⟨trivial, fun h => by cases h⟩

omit hO in
theorem fireErrorHooks_split (ctx : HookContext) (e : Exc) (hs hs' : List (LifecycleHook ω))
    (w : ω) : fireErrorHooks ctx e (hs ++ hs') w =
      fireErrorHooks ctx e hs' (fireErrorHooks ctx e hs w) := by
  induction hs generalizing w with
  | nil => rfl
  | cons hook hs ih => exact ih _

omit hO in
theorem fireErrorHooks_beside (ctx : HookContext) (e : Exc) (hooks : List (LifecycleHook σ))
    (w : τ × σ) : (fireErrorHooks ctx e (hooks.map LifecycleHook.beside) w).1 = w.1 := by
  induction hooks generalizing w with
  | nil => rfl
  | cons hook hooks ih => exact ih _

/-- On a failure the hook reports once, in some world that the error hooks before it leave. -/
theorem fireErrorHooks_watched (ctx : HookContext) (e : Exc) (w : τ × σ) :
    ∃ v, (fireErrorHooks ctx e (watched first last O) w).1 = report ctx e v w.1 := by
  have hfirst := fireErrorHooks_beside (τ := τ) ctx e first w
  refine ⟨(fireErrorHooks ctx e (first.map LifecycleHook.beside) w).2, ?_⟩
  rw [watched, fireErrorHooks_split, fireErrorHooks, fireErrorHooks_beside, hO.onError, hfirst]

/-- The hook's part of the world after a run. -/
theorem execute_watched (c : HookContext) (w : τ × σ) :
    (∃ v, (execute (watched first last O) c w).2.1 =
      match (execute (watched first last O) c w).1.error with
      | some e => report (execute (watched first last O) c w).1.context e v
          (noted note w.1 (calledWith (first.map (·.beside)) (watched first last O) c w))
      | none => noted note w.1
          (calledWith (first.map (·.beside)) (watched first last O) c w)) ∧
      ((execute (watched first last O) c w).1.error = none →
        ∃ seen w', calledWith (first.map (·.beside)) (watched first last O) c w = some (seen, w') ∧
          Accepts seen) := by
  obtain ⟨hown, haccepted⟩ := executePoints_watched hO first last c w
  unfold execute
  rcases hpoints : executePoints (watched first last O) hookSequence c [] w with ⟨⟨d, err, ex⟩, w'⟩
  rw [hpoints] at hown haccepted
  cases err with
  | none => exact ⟨⟨w'.2, hown⟩, fun _ => haccepted rfl⟩
  | some e =>
    obtain ⟨v, hv⟩ := fireErrorHooks_watched hO first last (failedContext d e) e w'
    refine ⟨⟨v, ?_⟩, nofun⟩
    dsimp only at hown ⊢
    rw [hv, hown]

end

end McpZero.Pipeline

import Mathlib.Data.List.DropRight
import McpZero.Audit.Reporting
import McpZero.Pipeline.Watchers

/-! What the audit hook keeps in memory. An event is kept when it is given to `_emit`, before
it is known whether it can be logged. -/
namespace McpZero.Audit
open Python Pipeline

variable {η σ : Type}

/-- The last elements of a window and one more are the last of all and one more. -/
theorem rtake_rtake_concat {α : Type} (xs : List α) (x : α) {n : ℕ} (hn : n ≠ 0) :
    (xs.rtake n ++ [x]).rtake n = (xs ++ [x]).rtake n := by
  obtain ⟨k, rfl⟩ := Nat.exists_eq_succ_of_ne_zero hn
  have hwindow : (xs.rtake (k + 1)).rtake k = xs.rtake k := by
    simp only [List.rtake_eq_reverse_take_reverse, List.reverse_reverse, List.take_take]
    congr 2
    omega
  rw [List.rtake_concat_succ, List.rtake_concat_succ, hwindow]

/-- What happens to the memory of the hook: a run of the pipeline, in the world that it finds, or
one event of runs that overlap. -/
inductive AuditStep (σ : Type)
  | run (ctx : HookContext) (s : σ)
  | emit (event : AuditEvent)

/-- The hook holds the last of the events that it is given, as many as it may hold. -/
structure Retains (maxEvents : ℕ) (given kept : List AuditEvent) : Prop where
  latest : kept = given.rtake maxEvents
  bounded : kept.length ≤ maxEvents

namespace AuditHook

variable (h : AuditHook η σ)

/-- The hook with a memory that loses nothing: it holds what it has been given. -/
def unlimited : AuditHook η σ := { h with maxEvents := 0 }

section
variable (first last : List (LifecycleHook σ))

def step (log : AuditLog η) : AuditStep σ → AuditLog η
  | .run ctx s => (execute (watched first last h.toHook) ctx (log, s)).2.1
  | .emit event => (h.emit event log).2

/-- The log of a hook, among the hooks of the pipeline, after the steps. -/
def after (handlers : η) (steps : List (AuditStep σ)) : AuditLog η :=
  steps.foldl (h.step first last) { handlers := handlers }

/-- The events that the steps give to `_emit`. -/
def given (handlers : η) (steps : List (AuditStep σ)) : List AuditEvent :=
  (h.unlimited.after first last handlers steps).events

end

/-- What is given to `_emit` before the audit. There is a second event only when the first one can
be logged. -/
def givenPreAudit (ctx : HookContext) (s : σ) : List AuditEvent :=
  match h.buildEvent ctx .toolInvocation s with
  | .error _ => []
  | .ok event =>
    match Json.dumps (Json.defaultStr (.dict (h.jsonDict event))) with
    | .error _ => [event]
    | .ok _ =>
      if ctx.maskingApplied || ctx.outputMaskingApplied then
        event :: (h.buildEvent ctx .maskingEvent s).toOption.toList
      else [event]

/-- The memory has no part in whether an event can be logged. -/
theorem emit_result (event : AuditEvent) (log : AuditLog η) : (h.emit event log).1 =
    (Json.dumps (Json.defaultStr (.dict (h.jsonDict event)))).map fun _ => () := by
  unfold emit
  dsimp only
  split
  · rename_i hdumps
    rw [hdumps]
    rfl
  · rename_i hdumps
    rw [hdumps]
    rfl

theorem unlimited_emit_events (event : AuditEvent) (log : AuditLog η) :
    (h.unlimited.emit event log).2.events = log.events ++ [event] := by
  unfold emit
  dsimp only
  split <;> rfl

/-- Without a bound the hook holds what its methods give to `_emit`. -/
theorem unlimited_onPreAudit_events (ctx : HookContext) (log : AuditLog η) (s : σ) :
    (h.unlimited.onPreAudit ctx (log, s)).2.1.events = log.events ++ h.givenPreAudit ctx s := by
  have hbuild (t : AuditEventType) : h.unlimited.buildEvent ctx t s = h.buildEvent ctx t s := rfl
  have hdict (event : AuditEvent) : h.unlimited.jsonDict event = h.jsonDict event := rfl
  unfold onPreAudit givenPreAudit
  dsimp only
  rw [hbuild, hbuild]
  cases h.buildEvent ctx .toolInvocation s with
  | error e => exact (List.append_nil _).symm
  | ok event =>
    have hfirst := h.unlimited_emit_events event log
    have hresult := h.unlimited.emit_result event log
    rw [hdict] at hresult
    rcases hemit : h.unlimited.emit event log with ⟨r, log₁⟩
    rw [hemit] at hfirst hresult
    dsimp only at hfirst hresult ⊢
    rw [hemit]
    cases hdumps : Json.dumps (Json.defaultStr (.dict (h.jsonDict event))) with
    | error e =>
      rw [hdumps] at hresult
      subst hresult
      exact hfirst
    | ok text =>
      rw [hdumps] at hresult
      subst hresult
      dsimp only [Except.map]
      split
      · cases h.buildEvent ctx .maskingEvent s with
        | error e => exact hfirst
        | ok maskingEvent =>
          have hsecond := h.unlimited_emit_events maskingEvent log₁
          rw [hfirst, List.append_assoc] at hsecond
          dsimp only
          split <;> simp_all [Except.toOption]
      · exact hfirst

theorem unlimited_onError_events (ctx : HookContext) (error : Exc) (log : AuditLog η) (s : σ) :
    (h.unlimited.onError ctx error (log, s)).2.1.events =
      log.events ++ h.failureEvents ctx error s := by
  have hbuild : h.unlimited.buildEvent ctx (errorEventType error) s =
      h.buildEvent ctx (errorEventType error) s := rfl
  unfold onError failureEvents
  dsimp only
  rw [hbuild]
  cases h.buildEvent ctx (errorEventType error) s with
  | error e => exact (List.append_nil _).symm
  | ok event =>
    have hevents := h.unlimited_emit_events
      { event with errorType := typeName error, errorMessage := error.message } log
    dsimp only
    split <;> simp_all

/-- What a run of the pipeline gives to `_emit`: the events of the context that the hook is called
with before the audit, and of the failure of the run. -/
theorem unlimited_run_events (first last : List (LifecycleHook σ)) (ctx : HookContext) (s : σ)
    (log : AuditLog η) :
    ∃ v, (h.unlimited.step first last log (.run ctx s)).events = log.events ++
      ((calledWith (first.map (·.beside)) (watched first last h.unlimited.toHook) ctx
          (log, s)).elim [] fun call => h.givenPreAudit call.1 call.2.2) ++
      (execute (watched first last h.unlimited.toHook) ctx (log, s)).1.error.elim [] fun e =>
        h.failureEvents (execute (watched first last h.unlimited.toHook) ctx (log, s)).1.context e
          v := by
  obtain ⟨⟨v, hown⟩, -⟩ := execute_watched h.unlimited.observes first last ctx (log, s)
  refine ⟨v, ?_⟩
  have hnoted : (noted h.unlimited.note log (calledWith (first.map (·.beside))
      (watched first last h.unlimited.toHook) ctx (log, s))).events = log.events ++
        (calledWith (first.map (·.beside)) (watched first last h.unlimited.toHook) ctx
          (log, s)).elim [] fun call => h.givenPreAudit call.1 call.2.2 := by
    cases calledWith (first.map (·.beside)) (watched first last h.unlimited.toHook) ctx (log, s) with
    | none => exact (List.append_nil _).symm
    | some call => exact h.unlimited_onPreAudit_events call.1 log call.2.2
  have hafter := congrArg AuditLog.events hown
  cases herror : (execute (watched first last h.unlimited.toHook) ctx (log, s)).1.error with
  | none =>
    rw [herror] at hafter
    rw [← hnoted, Option.elim_none, List.append_nil]
    exact hafter
  | some e =>
    rw [herror] at hafter
    rw [← hnoted, Option.elim_some]
    exact hafter.trans (h.unlimited_onError_events _ e _ v)

/-- The log with a bound on the memory, beside the log without one. -/
structure Trims (log full : AuditLog η) : Prop where
  events : log.events = full.events.rtake h.maxEvents
  emitted : log.emitted = full.emitted
  handlers : log.handlers = full.handlers

variable {h}

theorem append_eq (hmax : h.maxEvents ≠ 0) (events : List AuditEvent) (event : AuditEvent) :
    h.append events event = (events ++ [event]).rtake h.maxEvents := if_neg hmax

theorem Trims.emit {log full : AuditLog η} (htrims : h.Trims log full) (hmax : h.maxEvents ≠ 0)
    (event : AuditEvent) : (h.emit event log).1 = (h.unlimited.emit event full).1 ∧
      h.Trims (h.emit event log).2 (h.unlimited.emit event full).2 := by
  have hevents : h.append log.events event =
      (h.unlimited.append full.events event).rtake h.maxEvents := by
    rw [append_eq hmax, htrims.events]
    exact rtake_rtake_concat full.events event hmax
  have hdict : h.unlimited.jsonDict event = h.jsonDict event := rfl
  constructor
  · rw [emit_result, emit_result, hdict]
  · unfold AuditHook.emit
    rw [hdict]
    cases Json.dumps (Json.defaultStr (.dict (h.jsonDict event))) with
    | error e => exact ⟨hevents, htrims.emitted, htrims.handlers⟩
    | ok text =>
      refine ⟨hevents, ?_, ?_⟩
      · simp only [htrims.emitted]
      · simp only [htrims.handlers]
        rfl

/-- In the world beside the log the two hooks act alike. -/
def Beside (h : AuditHook η σ) (w full : AuditLog η × σ) : Prop := h.Trims w.1 full.1 ∧ w.2 = full.2

theorem Trims.onPreAudit {log full : AuditLog η} (htrims : h.Trims log full)
    (hmax : h.maxEvents ≠ 0) (ctx : HookContext) (s : σ) :
    (h.onPreAudit ctx (log, s)).1 = (h.unlimited.onPreAudit ctx (full, s)).1 ∧
      h.Beside (h.onPreAudit ctx (log, s)).2 (h.unlimited.onPreAudit ctx (full, s)).2 := by
  have hbuild (t : AuditEventType) : h.unlimited.buildEvent ctx t s = h.buildEvent ctx t s := rfl
  unfold AuditHook.onPreAudit
  dsimp only
  rw [hbuild, hbuild]
  cases h.buildEvent ctx .toolInvocation s with
  | error e => exact ⟨rfl, htrims, rfl⟩
  | ok event =>
    obtain ⟨hresult, hlog⟩ := htrims.emit hmax event
    rcases hemit : h.emit event log with ⟨r, log₁⟩
    rcases hemit' : h.unlimited.emit event full with ⟨r', full₁⟩
    rw [hemit, hemit'] at hresult hlog
    dsimp only at hresult hlog ⊢
    subst hresult
    rw [hemit, hemit']
    cases r with
    | error e => exact ⟨rfl, hlog, rfl⟩
    | ok u =>
      dsimp only
      split
      · cases h.buildEvent ctx .maskingEvent s with
        | error e => exact ⟨rfl, hlog, rfl⟩
        | ok maskingEvent =>
          obtain ⟨hresult₂, hlog₂⟩ := hlog.emit hmax maskingEvent
          rcases hemit₂ : h.emit maskingEvent log₁ with ⟨r₂, log₂⟩
          rcases hemit₂' : h.unlimited.emit maskingEvent full₁ with ⟨r₂', full₂⟩
          rw [hemit₂, hemit₂'] at hresult₂ hlog₂
          dsimp only at hresult₂ hlog₂ ⊢
          subst hresult₂
          rw [hemit₂, hemit₂']
          cases r₂ <;> exact ⟨rfl, hlog₂, rfl⟩
      · exact ⟨rfl, hlog, rfl⟩

theorem Trims.onError {log full : AuditLog η} (htrims : h.Trims log full)
    (hmax : h.maxEvents ≠ 0) (ctx : HookContext) (error : Exc) (s : σ) :
    h.Beside (h.onError ctx error (log, s)).2 (h.unlimited.onError ctx error (full, s)).2 := by
  have hbuild : h.unlimited.buildEvent ctx (errorEventType error) s =
      h.buildEvent ctx (errorEventType error) s := rfl
  unfold AuditHook.onError
  dsimp only
  rw [hbuild]
  cases h.buildEvent ctx (errorEventType error) s with
  | error e => exact ⟨htrims, rfl⟩
  | ok event =>
    obtain ⟨hresult, hlog⟩ := htrims.emit hmax
      { event with errorType := typeName error, errorMessage := error.message }
    dsimp only
    split <;> split <;> simp_all [Beside]

theorem follows_unlimited (hmax : h.maxEvents ≠ 0) :
    Follows h.Beside h.toHook h.unlimited.toHook where
  name := rfl
  result p ctx w full hw := by
    obtain ⟨log, s⟩ := w
    obtain ⟨full, s'⟩ := full
    obtain ⟨htrims, rfl⟩ := hw
    cases p with
    | preAudit => exact (htrims.onPreAudit hmax ctx s).1
    | _ => rfl
  world p ctx w full hw := by
    obtain ⟨log, s⟩ := w
    obtain ⟨full, s'⟩ := full
    obtain ⟨htrims, rfl⟩ := hw
    cases p with
    | preAudit => exact (htrims.onPreAudit hmax ctx s).2
    | _ => exact ⟨htrims, rfl⟩
  onError ctx e w full hw := by
    obtain ⟨log, s⟩ := w
    obtain ⟨full, s'⟩ := full
    obtain ⟨htrims, rfl⟩ := hw
    exact htrims.onError hmax ctx e s

theorem follows_beside (h : AuditHook η σ) (hook : LifecycleHook σ) :
    Follows h.Beside (hook.beside : LifecycleHook (AuditLog η × σ)) hook.beside where
  name := rfl
  result p ctx w full hw := by
    rw [LifecycleHook.beside_method, LifecycleHook.beside_method, beside, beside, hw.2]
  world p ctx w full hw := by
    rw [LifecycleHook.beside_method, LifecycleHook.beside_method, beside, beside, hw.2]
    exact ⟨hw.1, rfl⟩
  onError ctx e w full hw := by
    obtain ⟨htrims, hs⟩ := hw
    exact ⟨htrims, congrArg (fun s => (hook.onError ctx e s).2) hs⟩

section
variable (first last : List (LifecycleHook σ))

theorem extends_unlimited (hmax : h.maxEvents ≠ 0) :
    Extends (fun _ => True) h.Beside (watched first last h.toHook)
      (watched first last h.unlimited.toHook) := by
  have hrest (hooks : List (LifecycleHook σ)) {hs hs' : List (LifecycleHook (AuditLog η × σ))}
      (hext : Extends (fun _ => True) h.Beside hs' hs) :
      Extends (fun _ => True) h.Beside (hooks.map (·.beside) ++ hs')
        (hooks.map (·.beside) ++ hs) := by
    induction hooks with
    | nil => exact hext
    | cons hook hooks ih => exact .hook (follows_beside h hook) ih
  have hlast := hrest last .nil
  rw [List.append_nil] at hlast
  exact hrest first (.hook (follows_unlimited hmax) hlast)

/-- What a step keeps: a run of the pipeline differs in nothing but the memory. -/
theorem Trims.step {log full : AuditLog η} (htrims : h.Trims log full) (hmax : h.maxEvents ≠ 0)
    (x : AuditStep σ) : h.Trims (h.step first last log x) (h.unlimited.step first last full x) := by
  cases x with
  | run ctx s =>
    have hext := extends_unlimited first last hmax
    have hbeside : h.Beside (log, s) (full, s) := ⟨htrims, rfl⟩
    obtain ⟨-, -, -, hworld⟩ := execute_extends hext (c := ctx) (fun _ _ => trivial) hbeside
    exact hworld.1
  | emit event => exact (htrims.emit hmax event).2

theorem Trims.foldl {log full : AuditLog η} (htrims : h.Trims log full) (hmax : h.maxEvents ≠ 0)
    (steps : List (AuditStep σ)) : h.Trims (steps.foldl (h.step first last) log)
      (steps.foldl (h.unlimited.step first last) full) := by
  induction steps generalizing log full with
  | nil => exact htrims
  | cons x steps ih => exact ih (htrims.step first last hmax x)

theorem length_rtake_le {α : Type} (n : ℕ) (xs : List α) : (xs.rtake n).length ≤ n := by
  rw [List.rtake, List.length_drop]
  omega

/-- The hook holds the last of the events that it was given exactly when its bound is not zero, or
when it was given none. -/
theorem retains_iff (h : AuditHook η σ) (handlers : η) (steps : List (AuditStep σ)) :
    Retains h.maxEvents (h.given first last handlers steps)
        (h.after first last handlers steps).events ↔
      h.maxEvents ≠ 0 ∨ h.given first last handlers steps = [] := by
  by_cases hmax : h.maxEvents = 0
  · have hself : h.unlimited = h := by
      obtain ⟨includes, maxEvents, eventBus, monotonic, now, reprFloat⟩ := h
      cases hmax
      rfl
    simp only [given, hself, hmax, ne_eq, not_true_eq_false, false_or]
    constructor
    · intro hretains
      exact hretains.latest.trans (List.rtake_zero _)
    · intro hnone
      rw [hnone]
      exact ⟨rfl, le_rfl⟩
  · simp only [ne_eq, hmax, not_false_eq_true, true_or, iff_true]
    have hstart : h.Trims { handlers := handlers } { handlers := handlers } :=
      ⟨(List.rtake_nil _).symm, rfl, rfl⟩
    have hafter := (hstart.foldl first last hmax steps).events
    refine ⟨hafter, ?_⟩
    rw [after, hafter]
    exact length_rtake_le _ _

end

end AuditHook

/-- A hook that is told to keep nothing. -/
def forgetful : AuditHook Unit Unit where
  maxEvents := 0
  monotonic := fun _ => 0
  now := fun _ => ""
  reprFloat := fun _ => "0.0"

def queryRun : AuditStep Unit :=
  .run { request := { correlationId := "c1" }, serverName := "db", toolName := "query" } ()

/-- With the bound zero the event of a run is kept. -/
theorem forgetful_not_retains :
    ((forgetful.after [] [] () [queryRun]).events.map (·.correlationId)) = ["c1"] ∧
      ¬ Retains forgetful.maxEvents (forgetful.given [] [] () [queryRun])
        (forgetful.after [] [] () [queryRun]).events := by
  have hkept : ((forgetful.after [] [] () [queryRun]).events.map (·.correlationId)) = ["c1"] := by
    decide +kernel
  refine ⟨hkept, fun hretains => ?_⟩
  have hlength := hretains.bounded
  rw [← List.length_map (·.correlationId), hkept] at hlength
  exact absurd hlength (by decide)

end McpZero.Audit
